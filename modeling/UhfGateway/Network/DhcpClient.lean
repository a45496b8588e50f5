/-
The DHCP client as a process of its own (`ExecDhcpClient` of `platform/network/dhcp_client`).

The gateway starts a `dhclient` for an interface and stops it later, perhaps as another process
than the one that started it.  What it has of the client by then is a number, remembered or read
from a file, and the process that now goes by this number may be any.  Processes come and go
between any two calls.

* `ExecDhcpClient.terminatePid`, `stop`, `start` — what the gateway does; a loop that waits for
  the end of a process makes at most `fuel` passes, and `none` is the outcome of one that has
  made them all;
* `signals_warranted` — whom it sends a signal.
-/
import UhfGateway.Network.LeaseFile
import UhfGateway.Posix.Processes
import UhfGateway.Storage.StorageCleaner

namespace Uhf.Network

open Effects Posix
open Config (isCSpace)
open Storage (joinPath)

/-! ### Calls -/

inductive Signal
  | terminate
  | kill
  deriving DecidableEq, Repr

/-- How `kill` ended; there may be no such process. -/
inductive KillResult
  | done
  | noProcess
  | failed
  deriving DecidableEq, Repr

/-- What a look at a process file descriptor shows. -/
inductive Waited
  | exited
  | nothing
  | failed
  deriving DecidableEq, Repr

/-- What `waitpid` says about a child without waiting for it. -/
inductive ChildState
  | running
  | exited (success : Bool)
  | interrupted
  | failed
  deriving DecidableEq, Repr

inductive ProcessCall
  | readFile (path : Bytes)
  | removeFile (path : Bytes)
  | prepareDirectory (path : Bytes)
  | openPidfd (pid : ℤ)
  | readCommandLine (pid : ℤ)
  | signalPidfd (signal : Signal)
  | pollPidfd
  | closePidfd
  | kill (pid : ℤ) (signal : Signal)
  | probe (pid : ℤ)
  | timeLeft
  | pause
  | spawn (arguments : List Bytes) (result name : Bytes)
  | waitChild (pid : ℤ)
  deriving DecidableEq

@[reducible] def processCalls : Interface where
  Op := ProcessCall
  Answer
    | .readFile _ => Option Bytes
    | .removeFile _ => Bool
    | .prepareDirectory _ => Bool
    | .openPidfd _ => Bool
    | .readCommandLine _ => Option Bytes
    | .signalPidfd _ => Bool
    | .pollPidfd => Waited
    | .closePidfd => Unit
    | .kill _ _ => KillResult
    | .probe _ => KillResult
    | .timeLeft => Bool
    | .pause => Unit
    | .spawn _ _ _ => Option ℤ
    | .waitChild _ => ChildState

abbrev ProcessProg := Prog processCalls

abbrev act {α : Type} (c : ProcessCall) (k : processCalls.Answer c → ProcessProg α) :
    ProcessProg α :=
  .call (I := processCalls) c k

/-! ### The client -/

/-- The arguments in a command line: each ends in a null character, which the last may lack. -/
def cmdlineTokens (cmdline : Bytes) : List Bytes :=
  let pieces := cmdline.splitOn 0
  if pieces.getLast? = some [] then pieces.dropLast else pieces

def hasCmdlineToken (cmdline token : Bytes) : Bool := (cmdlineTokens cmdline).contains token

/-- `path::filename`. -/
def pathFilename (path : Bytes) : Bytes := ((path.splitOn '/'.toUInt8).getLast?).getD []

structure ExecDhcpClient where
  stateDirectory : Bytes
  dhclientPath : Bytes := ascii "/usr/sbin/dhclient"
  hookPath : Bytes := ascii "/usr/lib/uhf-gateway/dhclient-hook"

/-- `running_pids_`; -1 where none is running. -/
abbrev RunningPids := Port → ℤ

namespace ExecDhcpClient

variable (client : ExecDhcpClient)

def resultPath (config : InterfaceConfig) : Bytes :=
  joinPath client.stateDirectory (config.name ++ ascii ".result")

def pidPath (config : InterfaceConfig) : Bytes :=
  joinPath client.stateDirectory (config.name ++ ascii ".pid")

def leasePath (config : InterfaceConfig) : Bytes :=
  joinPath client.stateDirectory (config.name ++ ascii ".lease")

def interfaceIndex (config : InterfaceConfig) : Option Port :=
  if config.name = ascii "eth0" then some .eth0
  else if config.name = ascii "eth1" then some .eth1
  else none

/-- What `process_matches` asks of a command line. -/
def owns (config : InterfaceConfig) (cmdline : Bytes) : Bool :=
  let executableName := pathFilename client.dhclientPath
  (hasCmdlineToken cmdline client.dhclientPath ||
      (executableName ≠ [] && hasCmdlineToken cmdline executableName)) &&
    hasCmdlineToken cmdline config.name && hasCmdlineToken cmdline (client.pidPath config)

/-- `process_matches`. -/
def processMatches {α : Type} (config : InterfaceConfig) (pid : ℤ) (k : Bool → ProcessProg α) :
    ProcessProg α :=
  if pid ≤ 0 then k false
  else
    act (.readCommandLine pid) fun (contents : Option Bytes) =>
    k (contents.any fun cmdline =>
      cmdline ≠ [] && cmdline.length ≤ 4096 && client.owns config cmdline)

/-- The number in the text of a pid file: blanks may follow it. -/
def parsePid (contents : Bytes) : ℤ :=
  let text := (contents.reverse.dropWhile isCSpace).reverse
  match fromChars text with
  | some value => if value = 0 ∨ 2147483647 < value then -1 else value
  | none => -1

def storedPid {α : Type} (config : InterfaceConfig) (k : ℤ → ProcessProg α) : ProcessProg α :=
  act (.readFile (client.pidPath config)) fun (contents : Option Bytes) =>
  match contents with
  | some contents => k (parsePid contents)
  | none => k (-1)

/-- `wait_pidfd_exit`. -/
def waitPidfdExit : (fuel : ℕ) → ProcessProg (Option Bool)
  | 0 => .done none
  | fuel + 1 =>
    act .timeLeft fun (left : Bool) =>
    if !left then .done (some false)
    else
      act .pollPidfd fun (waited : Waited) =>
      match waited with
      | .exited => .done (some true)
      | .failed => .done (some false)
      | .nothing => waitPidfdExit fuel

/-- The loop that waits for the end of a process without its descriptor. -/
def waitGone (config : InterfaceConfig) (pid : ℤ) : (fuel : ℕ) → ProcessProg (Option Bool)
  | 0 => .done none
  | fuel + 1 =>
    act .timeLeft fun (left : Bool) =>
    if !left then .done (some false)
    else
      client.processMatches config pid fun matching =>
      if !matching then .done (some true)
      else
        act (.probe pid) fun (probed : KillResult) =>
        if probed = .noProcess then .done (some true)
        else act .pause fun _ => waitGone config pid fuel

/-- The branch of `terminate_pid` with a descriptor of the process. -/
def terminatePidfd (config : InterfaceConfig) (pid : ℤ) (fuel : ℕ) : ProcessProg (Option Bool) :=
  client.processMatches config pid fun matching =>
  if !matching then act .closePidfd fun _ => .done (some true)
  else
    act (.signalPidfd .terminate) fun (sent : Bool) =>
    if !sent then act .closePidfd fun _ => .done (some false)
    else
      waitPidfdExit fuel >>= fun
      | none => .done none
      | some true => act .closePidfd fun _ => .done (some true)
      | some false =>
        act (.signalPidfd .kill) fun (sent : Bool) =>
        if !sent then act .closePidfd fun _ => .done (some false)
        else
          waitPidfdExit fuel >>= fun
          | none => .done none
          | some exited => act .closePidfd fun _ => .done (some exited)

/-- The branch for a kernel without such descriptors. -/
def terminateById (config : InterfaceConfig) (pid : ℤ) (fuel : ℕ) : ProcessProg (Option Bool) :=
  client.processMatches config pid fun matching =>
  if !matching then .done (some true)
  else
    act (.kill pid .terminate) fun (killed : KillResult) =>
    if killed = .failed then .done (some false)
    else
      client.waitGone config pid fuel >>= fun
      | none => .done none
      | some true => .done (some true)
      | some false =>
        client.processMatches config pid fun matching =>
        if !matching then .done (some true)
        else
          act (.kill pid .kill) fun (killed : KillResult) =>
          if killed = .failed then .done (some false)
          else
            client.waitGone config pid fuel >>= fun
            | none => .done none
            | some true => .done (some true)
            | some false =>
              client.processMatches config pid fun matching =>
              if !matching then .done (some true)
              else act (.probe pid) fun (probed : KillResult) =>
                .done (some (probed = .noProcess))

def terminatePid (config : InterfaceConfig) (pid : ℤ) (fuel : ℕ) : ProcessProg (Option Bool) :=
  if pid ≤ 0 then .done (some true)
  else
    act (.openPidfd pid) fun (opened : Bool) =>
    if opened then client.terminatePidfd config pid fuel
    else client.terminateById config pid fuel

/-- `stop`; the lease is not looked at. -/
def stop (running : RunningPids) (config : InterfaceConfig) (fuel : ℕ) :
    ProcessProg (Option Bool × RunningPids) :=
  match interfaceIndex config with
  | none => .done (some false, running)
  | some index =>
    let terminate (pid : ℤ) : ProcessProg (Option Bool × RunningPids) :=
      client.terminatePid config pid fuel >>= fun
      | none => .done (none, running)
      | some stopped =>
        let stoppedPids := Function.update running index (-1)
        if !stopped then .done (some false, stoppedPids)
        else
          act (.removeFile (client.resultPath config)) fun (removed : Bool) =>
          if !removed then .done (some false, stoppedPids)
          else act (.removeFile (client.pidPath config)) fun (removed : Bool) =>
            .done (some removed, stoppedPids)
    if running index ≤ 0 then client.storedPid config terminate else terminate (running index)

/-- `dhclient_arguments`. -/
def dhclientArguments (pid lease : Bytes) (config : InterfaceConfig) (oneShot : Bool) :
    List Bytes :=
  [client.dhclientPath, if oneShot then ascii "-1" else ascii "-nw", ascii "-sf", client.hookPath,
      ascii "-pf", pid, ascii "-lf", lease] ++
    (if config.hostname = [] then [] else [ascii "-H", config.hostname]) ++ [config.name]

/-- The loop behind the start: a client that is still there after it goes on by itself. -/
def waitStarted (pid : ℤ) : (fuel : ℕ) → ProcessProg (Option ChildState)
  | 0 => .done none
  | fuel + 1 =>
    act .timeLeft fun (left : Bool) =>
    if !left then .done (some .running)
    else
      act (.waitChild pid) fun (state : ChildState) =>
      match state with
      | .running | .interrupted => act .pause fun _ => waitStarted pid fuel
      | .exited success => .done (some (.exited success))
      | .failed => .done (some .failed)

/-- Start a client of one's own. -/
def launch (running : RunningPids) (config : InterfaceConfig) (index : Port) (fuel : ℕ) :
    ProcessProg (Option Bool × RunningPids) :=
  let none' := Function.update running index (-1)
  act (.removeFile (client.pidPath config)) fun _ =>
  act (.removeFile (client.resultPath config)) fun (removed : Bool) =>
  if !removed then .done (some false, none')
  else
    act (.spawn (client.dhclientArguments (client.pidPath config) (client.leasePath config) config
        false) (client.resultPath config) config.name) fun (child : Option ℤ) =>
    match child with
    | none => .done (some false, none')
    | some child =>
      waitStarted child fuel >>= fun
      | none => .done (none, Function.update running index child)
      | some (.exited success) => .done (some success, none')
      | some .failed => .done (some false, none')
      | some _ => .done (some true, Function.update running index child)

/-- Whether a client of the gateway still goes by this id. -/
def stillRunning {α : Type} (config : InterfaceConfig) (pid : ℤ) (k : Bool → ProcessProg α) :
    ProcessProg α :=
  if pid ≤ 0 then k false
  else
    client.processMatches config pid fun matching =>
    if !matching then k false
    else act (.probe pid) fun (probed : KillResult) => k (probed = .done)

/-- `start`. -/
def start (running : RunningPids) (config : InterfaceConfig) (lease : DhcpLease) (fuel : ℕ) :
    ProcessProg (Option Bool × RunningPids) :=
  match interfaceIndex config with
  | none => .done (some false, running)
  | some index =>
    if config.mode ≠ .dhcp || !validateLease lease || client.stateDirectory = [] ||
        client.dhclientPath = [] || client.hookPath = [] then .done (some false, running)
    else
      act (.prepareDirectory client.stateDirectory) fun (ready : Bool) =>
      if !ready then .done (some false, running)
      else
        client.stillRunning config (running index) fun known =>
        if known then .done (some true, running)
        else
          let forgotten := Function.update running index (-1)
          client.storedPid config fun existing =>
          client.stillRunning config existing fun found =>
          if found then .done (some true, Function.update running index existing)
          else client.launch forgotten config index fuel

end ExecDhcpClient

/-! ### The processes around it -/

/-- What the gateway has seen and done to processes, and to which of them. -/
inductive Sight
  | looked (pid : ℤ) (cmdline : Bytes) (serial : ℕ)
  | signalled (serial : ℕ) (signal : Signal)
  | killed (pid : ℤ) (serial : Option ℕ) (signal : Signal)
  deriving DecidableEq

structure ProcessWorld where
  processes : Processes
  /-- The process the descriptor is of. -/
  pidfd : Option ℕ := none
  sights : List Sight := []

/-- The call itself; a signal through the descriptor reaches the process it was opened for, if
that has not ended, and `kill` reaches the one that goes by the id. -/
def ProcessWorld.does : (o : ProcessCall) → ProcessWorld → processCalls.Answer o →
    ProcessWorld → Prop
  | .openPidfd pid, s, opened, s' =>
    (opened = false ∧ s' = s) ∨ (opened = true ∧ ∃ process, s.processes.table pid = some process ∧
      s' = { s with pidfd := some process.serial })
  | .readCommandLine pid, s, contents, s' =>
    (contents = none ∧ s' = s) ∨ ∃ process, s.processes.table pid = some process ∧
      contents = some process.commandLine ∧
      s' = { s with sights := s.sights ++ [.looked pid process.commandLine process.serial] }
  | .signalPidfd signal, s, _, s' =>
    s' = s ∨ ∃ serial, s.pidfd = some serial ∧ s.processes.Alive serial ∧
      s' = { s with sights := s.sights ++ [.signalled serial signal] }
  | .kill pid signal, s, _, s' =>
    s' = { s with
      sights := s.sights ++
        [.killed pid ((s.processes.table pid).map Posix.Process.serial) signal] }
  | _, s, _, s' => s' = s

/-- Before every call processes may have come and gone. -/
def processWorld : World processCalls ProcessWorld where
  answers o s a s' := ∃ moved, s.processes.Moves moved ∧
    ProcessWorld.does o { s with processes := moved } a s'
  cut _ s s' := s' = s
  dies _ := True

namespace ExecDhcpClient

variable (client : ExecDhcpClient)

/-- The command line of a client of the gateway for one of the interfaces. -/
def Own (cmdline : Bytes) : Prop :=
  ∃ config, (interfaceIndex config).isSome = true ∧ client.owns config cmdline = true

/-- A process that gets a signal through the descriptor has shown such a command line before;
one that is reached by its id has shown one under this id, and nothing was done in between. -/
def Warranted (before : List Sight) : Sight → Prop
  | .looked _ _ _ => True
  | .signalled serial _ => ∃ pid cmdline, .looked pid cmdline serial ∈ before ∧ client.Own cmdline
  | .killed pid _ _ => 0 < pid ∧ ∃ earlier cmdline serial,
      before = earlier ++ [.looked pid cmdline serial] ∧ client.Own cmdline

def Justified (sights : List Sight) : Prop :=
  ∀ before sight after, sights = before ++ sight :: after → client.Warranted before sight

variable {client : ExecDhcpClient}

theorem Justified.append {sights : List Sight} {sight : Sight} (h : client.Justified sights)
    (hsight : client.Warranted sights sight) : client.Justified (sights ++ [sight]) := by
  intro before sight' after heq
  rcases List.eq_nil_or_concat after with rfl | ⟨after', last, rfl⟩
  · obtain ⟨rfl, hlast⟩ := List.append_inj' heq rfl
    cases hlast
    exact hsight
  · rw [List.concat_eq_append, ← List.cons_append, ← List.append_assoc] at heq
    obtain ⟨hfront, -⟩ := List.append_inj' heq rfl
    exact h before sight' after' hfront

/-- The process of the descriptor has shown its command line, or it has ended. -/
structure Verified (client : ExecDhcpClient) (s : ProcessWorld) : Prop where
  justified : client.Justified s.sights
  shown : ∀ serial, s.pidfd = some serial → serial < s.processes.next ∧
    (s.processes.Alive serial →
      ∃ pid cmdline, .looked pid cmdline serial ∈ s.sights ∧ client.Own cmdline)

/-- Calls that send no signal and open no descriptor. -/
def Quiet : ProcessCall → Prop
  | .openPidfd _ | .signalPidfd _ | .kill _ _ => False
  | _ => True

/-- Calls that reach a process through the descriptor at most. -/
def ByDescriptor : ProcessCall → Prop
  | .openPidfd _ | .kill _ _ => False
  | _ => True

theorem Quiet.byDescriptor (o : ProcessCall) (h : Quiet o) : ByDescriptor o := by
  cases o <;> trivial

theorem byDescriptor_cases {o : ProcessCall} (h : ByDescriptor o) :
    Quiet o ∨ ∃ signal, o = .signalPidfd signal := by
  cases o with
  | signalPidfd signal => exact .inr ⟨signal, rfl⟩
  | openPidfd | kill => exact absurd h not_false
  | readFile | removeFile | prepareDirectory | readCommandLine | pollPidfd | closePidfd | probe
  | timeLeft | pause | spawn | waitChild => exact .inl trivial

section Proofs

variable {s s' : ProcessWorld} {t : Processes} {α : Type} {Q : α → ProcessWorld → Prop}
  {config : InterfaceConfig} {pid : ℤ}

theorem Verified.moves (h : client.Verified s) (hmoves : s.processes.Moves t) :
    client.Verified { s with processes := t } := by
  refine ⟨h.justified, fun serial hserial => ?_⟩
  obtain ⟨hold, hshown⟩ := h.shown serial hserial
  exact ⟨Nat.lt_of_lt_of_le hold hmoves.next, fun halive => hshown (hmoves.alive hold halive)⟩

/-- Whatever has been seen in addition, the process has still shown itself. -/
theorem Verified.sees (h : client.Verified s) {sight : Sight}
    (hsight : client.Warranted s.sights sight) :
    client.Verified { s with sights := s.sights ++ [sight] } := by
  refine ⟨h.justified.append hsight, fun serial hserial => ?_⟩
  obtain ⟨hold, hshown⟩ := h.shown serial hserial
  refine ⟨hold, fun halive => ?_⟩
  obtain ⟨pid, cmdline, hlooked, hown⟩ := hshown halive
  exact ⟨pid, cmdline, List.mem_append_left _ hlooked, hown⟩

/-- What a quiet call does: it sees a command line at most. -/
theorem does_quiet {o : ProcessCall} (ho : Quiet o) {a : processCalls.Answer o}
    (h : ProcessWorld.does o s a s') :
    s' = s ∨ ∃ pid cmdline serial,
      s' = { s with sights := s.sights ++ [.looked pid cmdline serial] } := by
  cases o with
  | openPidfd | signalPidfd | kill => exact absurd ho not_false
  | readCommandLine pid =>
    rcases h with ⟨-, rfl⟩ | ⟨process, -, -, rfl⟩
    · exact .inl rfl
    · exact .inr ⟨_, _, _, rfl⟩
  | readFile | removeFile | prepareDirectory | pollPidfd | closePidfd | probe | timeLeft | pause
  | spawn | waitChild => exact .inl h

theorem steady_justified :
    processWorld.Steady (fun s => client.Justified s.sights) (fun s => client.Justified s.sights)
      Quiet := by
  refine ⟨fun _ hs _ => hs, fun _ _ _ _ hs hc => hc ▸ hs, ?_⟩
  rintro o s a s' ho hs ⟨t, -, hdoes⟩
  rcases does_quiet ho hdoes with rfl | ⟨pid, cmdline, serial, rfl⟩
  · exact hs
  · exact Justified.append hs trivial

/-- With a verified descriptor a signal may be sent through it. -/
theorem steady_verified :
    processWorld.Steady (fun s => client.Justified s.sights) client.Verified ByDescriptor := by
  refine ⟨fun _ hs _ => hs.justified, fun _ _ _ _ hs hc => hc ▸ hs.justified, ?_⟩
  rintro o s a s' ho hs ⟨t, hmoves, hdoes⟩
  have hs := hs.moves hmoves
  rcases byDescriptor_cases ho with ho | ⟨signal, rfl⟩
  · rcases does_quiet ho hdoes with rfl | ⟨pid, cmdline, serial, rfl⟩
    · exact hs
    · exact hs.sees trivial
  · rcases hdoes with rfl | ⟨serial, hserial, halive, rfl⟩
    · exact hs
    · -- the process has not ended, so it is the one that has shown its command line
      exact hs.sees ((hs.shown serial hserial).2 halive)

/-- One look at the command line under an id. -/
theorem ensures_processMatches {k : Bool → ProcessProg α} (hs : client.Justified s.sights)
    (hno : ∀ s', client.Justified s'.sights →
      (k false).Ensures processWorld (fun s => client.Justified s.sights) Q s')
    (hyes : ∀ t process, 0 < pid → s.processes.Moves t → t.table pid = some process →
      client.owns config process.commandLine = true →
      (k true).Ensures processWorld (fun s => client.Justified s.sights) Q
        ⟨t, s.pidfd, s.sights ++ [.looked pid process.commandLine process.serial]⟩) :
    (client.processMatches config pid k).Ensures processWorld
      (fun s => client.Justified s.sights) Q s := by
  rw [processMatches]
  split_ifs with hpid
  · exact hno s hs
  refine ⟨fun _ => hs, fun s' hc => hc ▸ hs, ?_⟩
  rintro contents s' ⟨t, hmoves, ⟨rfl, rfl⟩ | ⟨process, htable, rfl, rfl⟩⟩
  · exact hno _ hs
  · show (k ((some process.commandLine).any _)).Ensures _ _ _ _
    rw [Option.any_some]
    cases howns : client.owns config process.commandLine with
    | false =>
      rw [Bool.and_false]
      exact hno _ (Justified.append hs trivial)
    | true =>
      rw [Bool.and_true]
      cases hlegal : decide (process.commandLine ≠ []) &&
          decide (process.commandLine.length ≤ 4096) with
      | false => exact hno _ (Justified.append hs trivial)
      | true => exact hyes t process (by omega) hmoves htable howns

theorem waitPidfdExit_quiet (fuel : ℕ) : (waitPidfdExit fuel).Only Quiet := by
  induction fuel with
  | zero => trivial
  | succ fuel ih =>
    refine ⟨trivial, fun (left : Bool) => Prog.only_ite (fun _ => trivial) fun _ => ?_⟩
    refine ⟨trivial, fun (waited : Waited) => ?_⟩
    cases waited with
    | exited | failed => trivial
    | nothing => exact ih

theorem processMatches_quiet {k : Bool → ProcessProg α} (hk : ∀ matching, (k matching).Only Quiet) :
    (client.processMatches config pid k).Only Quiet := by
  rw [processMatches]
  split_ifs
  · exact hk false
  · exact ⟨trivial, fun _ => hk _⟩

theorem waitGone_quiet (fuel : ℕ) : (client.waitGone config pid fuel).Only Quiet := by
  induction fuel with
  | zero => trivial
  | succ fuel ih =>
    refine ⟨trivial, fun (left : Bool) => Prog.only_ite (fun _ => trivial) fun _ => ?_⟩
    refine processMatches_quiet fun matching => Prog.only_ite (fun _ => trivial) fun _ => ?_
    refine ⟨trivial, fun (probed : KillResult) => ?_⟩
    exact Prog.only_ite (fun _ => trivial) fun _ => ⟨trivial, fun _ => ih⟩

/-- A signal through a verified descriptor, and what follows it. -/
theorem verified_rest {p : ProcessProg α} (hs : client.Verified s)
    (hp : p.Only ByDescriptor) :
    p.Ensures processWorld (fun s => client.Justified s.sights)
      (fun _ s => client.Justified s.sights) s :=
  Prog.ensures_mono (fun _ h => h) (fun _ _ h => h.justified) (steady_verified.only hp hs)

theorem quiet_rest {p : ProcessProg α} (hs : client.Justified s.sights) (hp : p.Only Quiet) :
    p.Ensures processWorld (fun s => client.Justified s.sights)
      (fun _ s => client.Justified s.sights) s :=
  steady_justified.only hp hs

/-- **With a descriptor**: it is opened before the look, so what is seen under the id is what
the descriptor is of, or that process has ended and gets no signal any more. -/
theorem terminatePidfd_justified {origin : Processes} {process : Posix.Process} {fuel : ℕ}
    (hindex : (interfaceIndex config).isSome = true) (hs : client.Justified s.sights)
    (hmoves : origin.Moves s.processes)
    (htable : origin.table pid = some process) (hpidfd : s.pidfd = some process.serial) :
    (client.terminatePidfd config pid fuel).Ensures processWorld
      (fun s => client.Justified s.sights) (fun _ s => client.Justified s.sights) s := by
  refine ensures_processMatches hs
    (fun s' hs' => quiet_rest hs' ⟨trivial, fun _ => trivial⟩) ?_
  intro t seen hpid hmoves' htable' howns
  have hboth := hmoves.trans hmoves'
  refine verified_rest ⟨hs.append trivial, ?_⟩ ?_
  · rintro serial hserial
    obtain rfl : process.serial = serial := Option.some.inj (hpidfd.symm.trans hserial)
    refine ⟨Nat.lt_of_lt_of_le (origin.given pid process htable) hboth.next, fun halive => ?_⟩
    have hsame := Processes.same_of_alive hboth htable htable' halive
    refine ⟨pid, seen.commandLine, ?_, config, hindex, howns⟩
    rw [← hsame]
    exact List.mem_append_right _ (List.mem_singleton_self _)
  · have hclosed : ∀ result : Option Bool, (act .closePidfd fun _ =>
        Prog.done result : ProcessProg (Option Bool)).Only ByDescriptor :=
      fun result => ⟨trivial, fun _ => trivial⟩
    have hwait := (waitPidfdExit_quiet fuel).mono Quiet.byDescriptor
    refine ⟨trivial, fun (sent : Bool) => ?_⟩
    refine Prog.only_ite (fun _ => hclosed _) fun _ => Prog.only_bind hwait fun exited => ?_
    match exited with
    | none => trivial
    | some true => exact hclosed _
    | some false =>
      refine ⟨trivial, fun (sent : Bool) => ?_⟩
      refine Prog.only_ite (fun _ => hclosed _) fun _ => Prog.only_bind hwait fun exited => ?_
      cases exited with
      | none => trivial
      | some exited => exact hclosed _

/-- One signal by the id, right behind a look. -/
theorem ensures_kill {t : Processes} {descriptor : Option ℕ} {sights : List Sight}
    {cmdline : Bytes} {serial : ℕ} {signal : Signal} {k : KillResult → ProcessProg α}
    (hs : client.Justified sights) (hpid : 0 < pid) (howns : client.Own cmdline)
    (hk : ∀ killed s', client.Justified s'.sights →
      (k killed).Ensures processWorld (fun s => client.Justified s.sights) Q s') :
    (act (.kill pid signal) k).Ensures processWorld (fun s => client.Justified s.sights) Q
      ⟨t, descriptor, sights ++ [.looked pid cmdline serial]⟩ := by
  have hlooked : client.Justified (sights ++ [.looked pid cmdline serial]) := hs.append trivial
  refine ⟨fun _ => hlooked, fun s' hc => hc ▸ hlooked, ?_⟩
  rintro killed s' ⟨t', -, rfl⟩
  exact hk killed _ (hlooked.append ⟨hpid, _, _, _, rfl, howns⟩)

theorem terminateById_justified {fuel : ℕ} (hindex : (interfaceIndex config).isSome = true)
    (hs : client.Justified s.sights) :
    (client.terminateById config pid fuel).Ensures processWorld
      (fun s => client.Justified s.sights) (fun _ s => client.Justified s.sights) s := by
  have hdone : ∀ {s : ProcessWorld} (result : Option Bool), client.Justified s.sights →
      (Prog.done result : ProcessProg (Option Bool)).Ensures processWorld
        (fun s => client.Justified s.sights) (fun _ s => client.Justified s.sights) s :=
    fun result hs => quiet_rest hs trivial
  refine ensures_processMatches hs (fun s' hs' => hdone _ hs') ?_
  intro t process hpid _ _ howns
  refine ensures_kill hs hpid ⟨config, hindex, howns⟩ fun killed s₁ hs₁ => ?_
  refine Prog.ensures_ite (fun _ => hdone _ hs₁) fun _ => Prog.ensures_bind ?_
  refine Prog.ensures_mono (fun _ h => h) ?_ (quiet_rest hs₁ (waitGone_quiet fuel))
  intro gone s₂ hs₂
  match gone with
  | none => exact hdone _ hs₂
  | some true => exact hdone _ hs₂
  | some false =>
    refine ensures_processMatches hs₂ (fun s' hs' => hdone _ hs') ?_
    intro t process hpid _ _ howns
    refine ensures_kill hs₂ hpid ⟨config, hindex, howns⟩ fun killed s₃ hs₃ => ?_
    refine Prog.ensures_ite (fun _ => hdone _ hs₃) fun _ => Prog.ensures_bind ?_
    refine Prog.ensures_mono (fun _ h => h) ?_ (quiet_rest hs₃ (waitGone_quiet fuel))
    intro gone s₄ hs₄
    match gone with
    | none => exact hdone _ hs₄
    | some true => exact hdone _ hs₄
    | some false =>
      refine quiet_rest hs₄ (processMatches_quiet fun matching => ?_)
      exact Prog.only_ite (fun _ => trivial) fun _ => ⟨trivial, fun _ => trivial⟩

theorem terminatePid_justified {fuel : ℕ} (hindex : (interfaceIndex config).isSome = true)
    (hs : client.Justified s.sights) :
    (client.terminatePid config pid fuel).Ensures processWorld
      (fun s => client.Justified s.sights) (fun _ s => client.Justified s.sights) s := by
  refine Prog.ensures_ite (fun _ => quiet_rest hs trivial) fun _ => ?_
  refine ⟨fun _ => hs, fun s' hc => hc ▸ hs, ?_⟩
  rintro opened s' ⟨t, -, ⟨rfl, rfl⟩ | ⟨rfl, process, htable, rfl⟩⟩
  · exact terminateById_justified hindex hs
  · exact terminatePidfd_justified hindex hs (Processes.Moves.refl t) htable rfl

theorem storedPid_justified {k : ℤ → ProcessProg α} (hs : client.Justified s.sights)
    (hk : ∀ pid s', client.Justified s'.sights →
      (k pid).Ensures processWorld (fun s => client.Justified s.sights) Q s') :
    (client.storedPid config k).Ensures processWorld (fun s => client.Justified s.sights) Q s := by
  refine steady_justified.call (o := .readFile (client.pidPath config)) trivial hs ?_
  intro contents s' hs'
  match contents with
  | none => exact hk _ s' hs'
  | some contents => exact hk _ s' hs'

theorem stop_justified {running : RunningPids} {fuel : ℕ} (hs : client.Justified s.sights) :
    (client.stop running config fuel).Ensures processWorld
      (fun s => client.Justified s.sights) (fun _ s => client.Justified s.sights) s := by
  rw [stop]
  cases hindex : interfaceIndex config with
  | none => exact quiet_rest hs trivial
  | some index =>
    have hsome : (interfaceIndex config).isSome = true := by rw [hindex]; rfl
    have hterminate : ∀ pid s', client.Justified s'.sights →
        (client.terminatePid config pid fuel).Ensures processWorld
          (fun s => client.Justified s.sights) (fun _ s => client.Justified s.sights) s' :=
      fun pid s' hs' => terminatePid_justified hsome hs'
    refine Prog.ensures_ite (fun _ => storedPid_justified hs fun pid s' hs' => ?_) fun _ => ?_
    all_goals
      refine Prog.ensures_bind (Prog.ensures_mono (fun _ h => h) ?_ (hterminate _ _ ‹_›))
      intro stopped s₁ hs₁
      refine quiet_rest hs₁ ?_
      match stopped with
      | none => trivial
      | some stopped =>
        refine Prog.only_ite (fun _ => trivial) fun _ => ⟨trivial, fun (removed : Bool) => ?_⟩
        exact Prog.only_ite (fun _ => trivial) fun _ => ⟨trivial, fun _ => trivial⟩

theorem waitStarted_quiet (fuel : ℕ) : (waitStarted pid fuel).Only Quiet := by
  induction fuel with
  | zero => trivial
  | succ fuel ih =>
    refine ⟨trivial, fun (left : Bool) => Prog.only_ite (fun _ => trivial) fun _ => ?_⟩
    refine ⟨trivial, fun (state : ChildState) => ?_⟩
    cases state with
    | running | interrupted => exact ⟨trivial, fun _ => ih⟩
    | exited | failed => trivial

theorem launch_quiet {running : RunningPids} {index : Port} {fuel : ℕ} :
    (client.launch running config index fuel).Only Quiet := by
  refine ⟨trivial, fun _ => ⟨trivial, fun (removed : Bool) => ?_⟩⟩
  refine Prog.only_ite (fun _ => trivial) fun _ => ⟨trivial, fun (child : Option ℤ) => ?_⟩
  cases child with
  | none => trivial
  | some child =>
    refine Prog.only_bind (waitStarted_quiet fuel) fun state => ?_
    match state with
    | none => trivial
    | some (.exited success) => trivial
    | some .failed => trivial
    | some .running => trivial
    | some .interrupted => trivial

theorem stillRunning_quiet {k : Bool → ProcessProg α} (hk : ∀ running, (k running).Only Quiet) :
    (client.stillRunning config pid k).Only Quiet := by
  refine Prog.only_ite (fun _ => hk false) fun _ => processMatches_quiet fun matching => ?_
  exact Prog.only_ite (fun _ => hk false) fun _ => ⟨trivial, fun _ => hk _⟩

/-- A start sends no signal at all. -/
theorem start_quiet {running : RunningPids} {lease : DhcpLease} {fuel : ℕ} :
    (client.start running config lease fuel).Only Quiet := by
  rw [start]
  cases interfaceIndex config with
  | none => trivial
  | some index =>
    refine Prog.only_ite (fun _ => trivial) fun _ => ⟨trivial, fun (ready : Bool) => ?_⟩
    refine Prog.only_ite (fun _ => trivial) fun _ => stillRunning_quiet fun known => ?_
    refine Prog.only_ite (fun _ => trivial) fun _ => ⟨trivial, fun (contents : Option Bytes) => ?_⟩
    have hfound : ∀ existing, (client.stillRunning config existing fun found =>
        if found then .done (some true, Function.update running index existing)
        else client.launch (Function.update running index (-1)) config index fuel).Only Quiet :=
      fun existing => stillRunning_quiet fun found =>
        Prog.only_ite (fun _ => trivial) fun _ => launch_quiet
    cases contents with
    | none => exact hfound _
    | some contents => exact hfound _

end Proofs

end ExecDhcpClient

/-! ### The client over whole runs -/

inductive DhcpRequest
  | start (config : InterfaceConfig) (lease : DhcpLease)
  | stop (config : InterfaceConfig)

/-- The client as part of a process, which remembers the ids while it lives. -/
def dhcpService (client : ExecDhcpClient) (fuel : ℕ) :
    Service processCalls RunningPids DhcpRequest (Option Bool) where
  program running
    | .start config lease => client.start running config lease fuel
    | .stop config => client.stop running config fuel
  fresh _ _ := -1

/-- Between two requests processes come and go. -/
def ProcessesMove (running : RunningPids) (s : ProcessWorld) (running' : RunningPids)
    (s' : ProcessWorld) : Prop :=
  running' = running ∧ ∃ moved, s.processes.Moves moved ∧ s' = { s with processes := moved }

/-- A client for the first interface, known by the id 42. -/
def knownClient : Posix.Process where
  serial := 7
  commandLine := ascii "dhclient" ++ 0 :: ascii "eth0" ++ 0 :: ascii "/run/eth0.pid" ++ [0]

def knownProcesses : Processes where
  table pid := if pid = 42 then some knownClient else none
  next := 8
  given pid process h := by
    obtain ⟨-, heq⟩ := Option.ite_none_right_eq_some.mp h
    cases heq
    decide
  distinct pid pid' process process' h h' _ := by
    obtain ⟨rfl, -⟩ := Option.ite_none_right_eq_some.mp h
    obtain ⟨rfl, -⟩ := Option.ite_none_right_eq_some.mp h'
    rfl

end Uhf.Network
