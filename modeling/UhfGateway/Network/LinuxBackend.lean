/-
The Linux network backend (`platform/network/linux_backend`).

`readCurrent`, `applyStage`, `confirm`, `rollback`, `startRuntime` and
`refreshRuntime` are the operations of `LinuxNetworkBackend`, written as programs
over the sub-steps they take: the configuration and lease files, the DHCP client
and the `ip` commands.  The
object's own memory is what `applyStage` leaves for the operation that finishes
the transaction.  Files are known by what is written to them and read back from
them, not by their text.
-/
import UhfGateway.Effects.Layer
import UhfGateway.Network.FlatJson
import UhfGateway.Network.Transaction

namespace Uhf.Network

open Effects

/-! ### Leases -/

structure DhcpLease where
  address : Bytes
  prefixLength : UInt8 := 0
  gateway : Bytes := []
  dns : Vector Bytes 2 := #v[[], []]
  dnsCount : UInt8 := 0
  deriving DecidableEq, Repr

/-- `validate_lease`; its `same_subnet` wants a prefix of 1 to 32, which has been
checked by then. -/
def validateLease (lease : DhcpLease) : Bool :=
  if !validIpv4 lease.address || lease.prefixLength = 0 || 32 < lease.prefixLength ||
      kMaxDnsServers < lease.dnsCount.toNat then false
  else if !lease.gateway.isEmpty && !sameSubnet lease.address lease.prefixLength lease.gateway then
    false
  else (lease.dns.toList.take lease.dnsCount.toNat).all validIpv4

inductive Port
  | eth0
  | eth1
  deriving DecidableEq, Repr

def Port.all : List Port := [.eth0, .eth1]

def NetworkConfig.port (config : NetworkConfig) : Port → InterfaceConfig
  | .eth0 => config.eth0
  | .eth1 => config.eth1

/-- The leases of the two interfaces. -/
abbrev Leases := Port → Option DhcpLease

def Leases.empty : Leases := fun _ => none

/-- Every interface in DHCP mode has a lease. -/
def Leases.Cover (leases : Leases) (config : NetworkConfig) : Bool :=
  Port.all.all fun port => (config.port port).mode ≠ .dhcp || (leases port).isSome

/-- Every lease passes its validation. -/
def Leases.Valid (leases : Leases) : Bool :=
  Port.all.all fun port => (leases port).all validateLease

inductive LeaseLoadResult
  | none
  | valid (leases : Leases)
  | corrupt
  | ioError

/-! ### The sub-steps of the backend -/

/-- The lease files: `lease_store_`, `staged_lease_store_`, `previous_lease_store_`. -/
inductive LeaseFile
  | current
  | staged
  | previous
  deriving DecidableEq, Repr

/-- The files `save` writes. -/
inductive ConfigFile
  | network
  | vendor (port : Port)
  deriving DecidableEq, Repr

/-- What a configuration file holds: the text of a configuration, of an interface
in the vendor's format, or something else. -/
inductive FileText
  | network (config : NetworkConfig)
  | vendor (config : InterfaceConfig)
  | other (text : Bytes)
  deriving DecidableEq, Repr

inductive BackendCall
  | prepareDirectory
  | snapshotFile (file : ConfigFile)
  | writeFile (file : ConfigFile) (text : FileText)
  | restoreFile (file : ConfigFile) (snapshot : Option FileText)
  | load
  | networkFileMissing
  | vendorFilesExist
  | loadVendor
  | loadLeases (file : LeaseFile)
  | writeLeases (file : LeaseFile) (leases : Leases)
  | clearLeases (file : LeaseFile)
  | acquire (config : InterfaceConfig)
  | currentLease (config : InterfaceConfig)
  | start (config : InterfaceConfig) (lease : DhcpLease)
  | stop (config : InterfaceConfig) (lease : DhcpLease)
  | release (config : InterfaceConfig) (lease : DhcpLease)
  | ip (allowMissing : Bool) (arguments : List Bytes)

/-- What each sub-step reports back.  `snapshotFile` delivers the content of the
file if there is one, `vendorFilesExist` says of either file whether it is there,
and `none` is a failure throughout. -/
@[reducible] def backendCalls : Interface where
  Op := BackendCall
  Answer
    | .snapshotFile _ => Option (Option FileText)
    | .load => Option NetworkConfig
    | .vendorFilesExist => Option (Bool × Bool)
    | .loadVendor => Option NetworkConfig
    | .loadLeases _ => LeaseLoadResult
    | .acquire _ => Option DhcpLease
    | .currentLease _ => Option DhcpLease
    | _ => Bool

abbrev BackendProg := Prog backendCalls

/-- Perform a sub-step of the backend and go on with its answer. -/
abbrev sub {α : Type} (c : BackendCall) (k : backendCalls.Answer c → BackendProg α) :
    BackendProg α :=
  Prog.call (I := backendCalls) c k

/-! ### Files -/

/-- A `LinuxNetworkBackend` object: which collaborators it was given, and the
transaction it staged. -/
structure LinuxBackend where
  hasDhcpClient : Bool := true
  vendorEth0 : Bool := false
  vendorEth1 : Bool := false
  staged : Bool := false
  stagedPrevious : NetworkConfig := {}
  stagedCandidate : NetworkConfig := {}
  deriving DecidableEq, Repr

namespace LinuxBackend

variable {α : Type}

/-- `LinuxNetworkBackend::load_leases`: a missing file holds no leases. -/
def loadLeases (file : LeaseFile) (k : Option Leases → BackendProg α) : BackendProg α :=
  sub (.loadLeases file) fun
  | .none => k (some Leases.empty)
  | .valid leases => k (some leases)
  | .corrupt => k none
  | .ioError => k none

/-- `LeaseStore::save`. -/
def saveLeases (file : LeaseFile) (leases : Leases) (k : Bool → BackendProg α) : BackendProg α :=
  if !leases.Valid then k false else sub (.writeLeases file leases) k

/-- The text of an interface in the vendor's format is empty for a prefix without
a netmask. -/
def hasVendorText (config : InterfaceConfig) : Bool :=
  !(config.prefixLength = 0 || 32 < config.prefixLength)

/-- Write both vendor files, or put them back. -/
def writeVendor (config : NetworkConfig) (previous0 previous1 : Option FileText)
    (k : Bool → BackendProg α) : BackendProg α :=
  let restore : BackendProg α :=
    sub (.restoreFile (.vendor .eth0) previous0) fun _ =>
    sub (.restoreFile (.vendor .eth1) previous1) fun _ => k false
  if !hasVendorText config.eth0 || !hasVendorText config.eth1 then restore
  else
    sub (.writeFile (.vendor .eth0) (.vendor config.eth0)) fun written0 =>
    if !written0 then restore
    else
      sub (.writeFile (.vendor .eth1) (.vendor config.eth1)) fun written1 =>
      if !written1 then restore else k true

def saveVendor (b : LinuxBackend) (config : NetworkConfig) (k : Bool → BackendProg α) :
    BackendProg α :=
  if !b.vendorEth0 && !b.vendorEth1 then k true
  else if !b.vendorEth0 || !b.vendorEth1 then k false
  else
    sub (.snapshotFile (.vendor .eth0)) fun previous0 =>
    sub (.snapshotFile (.vendor .eth1)) fun previous1 =>
    match previous0, previous1 with
    | some previous0, some previous1 => writeVendor config previous0 previous1 k
    | _, _ => k false

def save (b : LinuxBackend) (config : NetworkConfig) (k : Bool → BackendProg α) : BackendProg α :=
  sub .prepareDirectory fun ready =>
  if !ready then k false
  else if !(validate config).valid then k false
  else
    sub (.snapshotFile .network) fun
    | none => k false
    | some previous =>
      sub (.writeFile .network (.network config)) fun written =>
      if !written then sub (.restoreFile .network previous) fun _ => k false
      else
        b.saveVendor config fun saved =>
        if saved then k true else sub (.restoreFile .network previous) fun _ => k false

/-- The leases a configuration with an interface in DHCP mode needs are there. -/
def leasesPresent (config : NetworkConfig) (k : Bool → BackendProg α) : BackendProg α :=
  if config.eth0.mode = .dhcp ∨ config.eth1.mode = .dhcp then
    loadLeases .current fun
    | some leases => k (leases.Cover config)
    | none => k false
  else k true

/-- `save(config)` as the last step of `read_current`. -/
def readAfterSave (b : LinuxBackend) (config : NetworkConfig) : BackendProg (Option NetworkConfig) :=
  b.save config fun saved => .done (if saved then some config else none)

/-- `read_current` with a configuration file that parses. -/
def readLoaded (b : LinuxBackend) (config : NetworkConfig) : BackendProg (Option NetworkConfig) :=
  leasesPresent config fun present =>
  if !present then .done none
  else if b.vendorEth0 || b.vendorEth1 then
    if !b.vendorEth0 || !b.vendorEth1 then .done none
    else
      sub .vendorFilesExist fun
      | none => .done none
      | some (eth0Exists, eth1Exists) =>
        if !eth0Exists || !eth1Exists then b.readAfterSave config else .done (some config)
  else .done (some config)

/-- `read_current` without a configuration file. -/
def readUnsaved (b : LinuxBackend) : BackendProg (Option NetworkConfig) :=
  if b.vendorEth0 || b.vendorEth1 then
    if !b.vendorEth0 || !b.vendorEth1 then .done none
    else
      sub .vendorFilesExist fun
      | none => .done none
      | some (eth0Exists, eth1Exists) =>
        if eth0Exists ≠ eth1Exists then .done none
        else if eth0Exists then
          sub .loadVendor fun
          | none => .done none
          | some config =>
            leasesPresent config fun present =>
            if !present then .done none else b.readAfterSave config
        else b.readAfterSave {}
  else b.readAfterSave {}

def readCurrent (b : LinuxBackend) : BackendProg (Option NetworkConfig) :=
  sub .load fun
  | some config => b.readLoaded config
  | none =>
    sub .networkFileMissing fun missing =>
    if !missing then .done none else b.readUnsaved

/-! ### Commands -/

def kCandidateRouteMetric : Bytes := ascii "42700"

/-- `effective_address`: of the lease in DHCP mode, of the configuration else. -/
def effectiveAddress (config : InterfaceConfig) (lease : Option DhcpLease) : Bytes :=
  match config.mode, lease with
  | .dhcp, some lease => lease.address ++ ascii "/" ++ decimal lease.prefixLength.toNat
  | _, _ => config.address ++ ascii "/" ++ decimal config.prefixLength.toNat

def effectiveGateway (config : InterfaceConfig) (lease : Option DhcpLease) : Bytes :=
  match config.mode, lease with
  | .dhcp, some lease => lease.gateway
  | _, _ => config.gateway

/-- `run_ip` and `run_ip_allow_missing`. -/
def ip (allowMissing : Bool) (suffix : List Bytes) (k : Bool → BackendProg α) : BackendProg α :=
  sub (.ip allowMissing (ascii "/usr/sbin/ip" :: suffix)) k

/-- Run the commands one after the other and stop at the first that fails. -/
def ipWhile : List (List Bytes) → (Bool → BackendProg α) → BackendProg α
  | [], k => k true
  | c :: cs, k => ip false c fun ok => if !ok then k false else ipWhile cs k

/-- Run all the commands, whatever they report. -/
def ipEach (allowMissing : Bool) : List (List Bytes) → (Bool → BackendProg α) → BackendProg α
  | [], k => k true
  | c :: cs, k => ip allowMissing c fun ok => ipEach allowMissing cs fun rest => k (ok && rest)

/-- The effective addresses and gateways of a transaction. -/
structure Change where
  previous : NetworkConfig
  candidate : NetworkConfig
  previousLeases : Leases
  candidateLeases : Leases

namespace Change

variable (c : Change) (port : Port)

def oldAddress : Bytes := effectiveAddress (c.previous.port port) (c.previousLeases port)
def newAddress : Bytes := effectiveAddress (c.candidate.port port) (c.candidateLeases port)
def oldGateway : Bytes := effectiveGateway (c.previous.port port) (c.previousLeases port)
def newGateway : Bytes := effectiveGateway (c.candidate.port port) (c.candidateLeases port)

def addressAdditions : List (List Bytes) :=
  if c.oldAddress port = c.newAddress port then []
  else [[ascii "address", ascii "add", c.newAddress port, ascii "dev", (c.candidate.port port).name]]

def routeAdditions : List (List Bytes) :=
  if c.oldGateway port = c.newGateway port ∨ c.newGateway port = [] then []
  else [[ascii "route", ascii "add", ascii "default", ascii "via", c.newGateway port, ascii "dev",
    (c.candidate.port port).name, ascii "metric", kCandidateRouteMetric]]

def candidateRemovals : List (List Bytes) :=
  (if c.oldAddress port ≠ c.newAddress port then
    [[ascii "address", ascii "del", c.newAddress port, ascii "dev", (c.candidate.port port).name]]
  else []) ++
  if c.oldGateway port ≠ c.newGateway port ∧ c.newGateway port ≠ [] then
    [[ascii "route", ascii "del", ascii "default", ascii "via", c.newGateway port, ascii "dev",
      (c.candidate.port port).name, ascii "metric", kCandidateRouteMetric]]
  else []

def previousRemovals : List (List Bytes) :=
  (if c.oldGateway port ≠ c.newGateway port ∧ c.oldGateway port ≠ [] then
    [[ascii "route", ascii "del", ascii "default", ascii "via", c.oldGateway port, ascii "dev",
      (c.previous.port port).name]]
  else []) ++
  if c.oldAddress port ≠ c.newAddress port then
    [[ascii "address", ascii "del", c.oldAddress port, ascii "dev", (c.previous.port port).name]]
  else []

def previousRestorations : List (List Bytes) :=
  (if c.oldAddress port ≠ c.newAddress port then
    [[ascii "address", ascii "add", c.oldAddress port, ascii "dev", (c.previous.port port).name]]
  else []) ++
  if c.oldGateway port ≠ c.newGateway port ∧ c.oldGateway port ≠ [] then
    [[ascii "route", ascii "add", ascii "default", ascii "via", c.oldGateway port, ascii "dev",
      (c.previous.port port).name]]
  else []

end Change

def removeCandidateState (c : Change) (k : Bool → BackendProg α) : BackendProg α :=
  ipEach true (Port.all.flatMap c.candidateRemovals) k

def removePreviousState (c : Change) (k : Bool → BackendProg α) : BackendProg α :=
  ipEach true (Port.all.flatMap c.previousRemovals) k

def restorePreviousState (c : Change) (k : Bool → BackendProg α) : BackendProg α :=
  ipEach false (Port.all.flatMap c.previousRestorations) k

def applyAddressAdditions (c : Change) (k : Bool → BackendProg α) : BackendProg α :=
  ipWhile (Port.all.flatMap c.addressAdditions) fun added =>
  if !added then k false
  else
    ipWhile (Port.all.flatMap c.routeAdditions) fun routed =>
    if !routed then removeCandidateState c fun _ => k false else k true

/-! ### DHCP -/

/-- Release every lease there is. -/
def releaseEach (config : NetworkConfig) (leases : Leases) :
    List Port → (Bool → BackendProg α) → BackendProg α
  | [], k => k true
  | port :: ports, k =>
    match leases port with
    | none => releaseEach config leases ports k
    | some lease =>
      sub (.release (config.port port) lease) fun ok =>
      releaseEach config leases ports fun rest => k (ok && rest)

def releaseLeases (b : LinuxBackend) (config : NetworkConfig) (leases : Leases)
    (k : Bool → BackendProg α) : BackendProg α :=
  if !b.hasDhcpClient then k true else releaseEach config leases Port.all k

/-- Acquire a lease for every interface in DHCP mode; those acquired so far are
released when one fails. -/
def acquireEach (b : LinuxBackend) (config : NetworkConfig) :
    List Port → Leases → (Option Leases → BackendProg α) → BackendProg α
  | [], leases, k => k (some leases)
  | port :: ports, leases, k =>
    if (config.port port).mode ≠ .dhcp then acquireEach b config ports leases k
    else if !b.hasDhcpClient then k none
    else
      sub (.acquire (config.port port)) fun
      | none => b.releaseLeases config leases fun _ => k none
      | some lease =>
        if !validateLease lease then b.releaseLeases config leases fun _ => k none
        else acquireEach b config ports (Function.update leases port (some lease)) k

/-- Start the clients that were stopped. -/
def startEach (config : NetworkConfig) (leases : Leases) :
    List Port → (Bool → BackendProg α) → BackendProg α
  | [], k => k true
  | port :: ports, k =>
    match leases port with
    | none => startEach config leases ports k
    | some lease =>
      sub (.start (config.port port) lease) fun ok =>
      startEach config leases ports fun rest => k (ok && rest)

/-- Stop the client of every interface in DHCP mode; `stopped` are those stopped
so far. -/
def stopEach (b : LinuxBackend) (config : NetworkConfig) (leases : Leases) :
    List Port → List Port → (Option (List Port) → BackendProg α) → BackendProg α
  | [], stopped, k => k (some stopped)
  | port :: ports, stopped, k =>
    if (config.port port).mode ≠ .dhcp then stopEach b config leases ports stopped k
    else
      match b.hasDhcpClient, leases port with
      | true, some lease =>
        sub (.stop (config.port port) lease) fun ok =>
        if !ok then startEach config leases stopped fun _ => k none
        else stopEach b config leases ports (stopped ++ [port]) k
      | _, _ => startEach config leases stopped fun _ => k none

/-! ### The operations of the transaction -/

/-- What an operation hands back: whether it succeeded, and the object after it. -/
abbrev Finished := Bool × LinuxBackend

/-- The transaction to finish is not the one this object staged. -/
def foreign (b : LinuxBackend) (previous candidate : NetworkConfig) : Bool :=
  b.staged && (toFlatJson b.stagedPrevious != toFlatJson previous ||
    toFlatJson b.stagedCandidate != toFlatJson candidate)

/-- `apply_stage` once the candidate's leases are there. -/
def applyAcquired (b : LinuxBackend) (c : Change) : BackendProg Finished :=
  let undo : BackendProg Finished :=
    removeCandidateState c fun _ =>
    b.releaseLeases c.candidate c.candidateLeases fun _ =>
    sub (.clearLeases .staged) fun _ => .done (false, b)
  saveLeases .staged c.candidateLeases fun saved =>
  if !saved then undo
  else
    applyAddressAdditions c fun applied =>
    if !applied then undo
    else .done (true, { b with
      staged := true, stagedPrevious := c.previous, stagedCandidate := c.candidate })

def applyStage (b : LinuxBackend) (previous candidate : NetworkConfig) : BackendProg Finished :=
  if b.staged || !(validate previous).valid || !(validate candidate).valid then .done (false, b)
  else
    loadLeases .current fun
    | none => .done (false, b)
    | some previousLeases =>
      if !previousLeases.Cover previous then .done (false, b)
      else
        sub (.clearLeases .previous) fun cleared =>
        if !cleared then .done (false, b)
        else
          saveLeases .previous previousLeases fun saved =>
          if !saved then .done (false, b)
          else
            acquireEach b candidate Port.all Leases.empty fun
            | none => .done (false, b)
            | some candidateLeases =>
              b.applyAcquired ⟨previous, candidate, previousLeases, candidateLeases⟩

/-- `confirm` once the previous clients are stopped. -/
def confirmStopped (b : LinuxBackend) (c : Change) (stopped : List Port) :
    BackendProg Finished :=
  let restore : BackendProg Finished :=
    restorePreviousState c fun _ =>
    if !b.hasDhcpClient then .done (false, b)
    else startEach c.previous c.previousLeases stopped fun _ => .done (false, b)
  let unsave : BackendProg Finished := b.save c.previous fun _ => restore
  removePreviousState c fun removed =>
  if !removed then restore
  else
    b.save c.candidate fun saved =>
    if !saved then restore
    else
      saveLeases .current c.candidateLeases fun savedLeases =>
      if !savedLeases then unsave
      else
        sub (.clearLeases .staged) fun cleared =>
        if !cleared then unsave else .done (true, { b with staged := false })

def confirm (b : LinuxBackend) (previous candidate : NetworkConfig) : BackendProg Finished :=
  if !(validate previous).valid || !(validate candidate).valid || b.foreign previous candidate then
    .done (false, b)
  else
    loadLeases .current fun
    | none => .done (false, b)
    | some previousLeases =>
      loadLeases .staged fun
      | none => .done (false, b)
      | some candidateLeases =>
        if !candidateLeases.Cover candidate || !previousLeases.Cover previous then .done (false, b)
        else
          stopEach b previous previousLeases Port.all [] fun
          | none => .done (false, b)
          | some stopped =>
            b.confirmStopped ⟨previous, candidate, previousLeases, candidateLeases⟩ stopped

/-- `rollback` once the leases of both sides are known. -/
def rollbackLoaded (b : LinuxBackend) (c : Change) : BackendProg Finished :=
  b.save c.previous fun saved =>
  if !saved then .done (false, b)
  else
    saveLeases .current c.previousLeases fun savedLeases =>
    if !savedLeases then .done (false, b)
    else
      removeCandidateState c fun removed =>
      b.releaseLeases c.candidate c.candidateLeases fun released =>
      if !removed || !released then .done (false, b)
      else
        sub (.clearLeases .staged) fun clearedStaged =>
        if !clearedStaged then .done (false, b)
        else
          sub (.clearLeases .previous) fun clearedPrevious =>
          if !clearedPrevious then .done (false, b) else .done (true, { b with staged := false })

def rollback (b : LinuxBackend) (previous candidate : NetworkConfig) : BackendProg Finished :=
  if !(validate previous).valid || !(validate candidate).valid || b.foreign previous candidate then
    .done (false, b)
  else
    loadLeases .current fun
    | none => .done (false, b)
    | some currentLeases =>
      -- without a backup or staged leases the current ones stand in for them
      let withStaged (previousLeases : Leases) : BackendProg Finished :=
        let withCandidate (candidateLeases : Leases) : BackendProg Finished :=
          if !candidateLeases.Cover candidate then .done (false, b)
          else b.rollbackLoaded ⟨previous, candidate, previousLeases, candidateLeases⟩
        sub (.loadLeases .staged) fun
        | .none => withCandidate currentLeases
        | .valid leases => withCandidate leases
        | .corrupt => .done (false, b)
        | .ioError => .done (false, b)
      sub (.loadLeases .previous) fun
      | .none => withStaged currentLeases
      | .valid leases => withStaged leases
      | .corrupt => .done (false, b)
      | .ioError => .done (false, b)

/-! ### The operations at run time -/

/-- The commands that put a static interface in place. -/
def staticCommands (config : InterfaceConfig) : List (List Bytes) :=
  if config.mode ≠ .staticAddress then []
  else
    [ascii "address", ascii "replace",
      config.address ++ ascii "/" ++ decimal config.prefixLength.toNat, ascii "dev", config.name] ::
    if config.gateway = [] then []
    else [[ascii "route", ascii "replace", ascii "default", ascii "via", config.gateway, ascii "dev",
      config.name]]

def applyStaticRuntimeState (current : NetworkConfig) (k : Bool → BackendProg α) : BackendProg α :=
  ipWhile (Port.all.flatMap fun port => staticCommands (current.port port)) k

/-- Start the client of every interface in DHCP mode on its stored lease. -/
def startStored (b : LinuxBackend) (current : NetworkConfig) (leases : Leases) :
    List Port → (Bool → BackendProg α) → BackendProg α
  | [], k => k true
  | port :: ports, k =>
    if (current.port port).mode ≠ .dhcp then startStored b current leases ports k
    else
      match b.hasDhcpClient, leases port with
      | true, some lease =>
        if !validateLease lease then k false
        else
          sub (.start (current.port port) lease) fun ok =>
          if !ok then k false else startStored b current leases ports k
      | _, _ => k false

def startRuntime (b : LinuxBackend) : BackendProg Bool :=
  b.readCurrent >>= fun
  | none => .done false
  | some current =>
    applyStaticRuntimeState current fun applied =>
    if !applied then .done false
    else
      loadLeases .current fun
      | none => .done false
      | some leases => b.startStored current leases Port.all .done

/-- Ask the client of every interface in DHCP mode for its lease; `refreshed` are the leases known
so far, and `changed` says whether one of them is new. -/
def collectLeases (b : LinuxBackend) (current : NetworkConfig) (previous : Leases) :
    List Port → (refreshed : Leases) → (changed : Bool) →
      (Option (Leases × Bool) → BackendProg α) → BackendProg α
  | [], refreshed, changed, k => k (some (refreshed, changed))
  | port :: ports, refreshed, changed, k =>
    if (current.port port).mode ≠ .dhcp then collectLeases b current previous ports refreshed changed k
    else if !b.hasDhcpClient || (previous port).isNone then k none
    else
      sub (.currentLease (current.port port)) fun
      | none => collectLeases b current previous ports refreshed changed k
      | some lease =>
        if !validateLease lease then k none
        else if refreshed port = some lease then
          collectLeases b current previous ports refreshed changed k
        else
          collectLeases b current previous ports (Function.update refreshed port (some lease)) true k

/-- `refresh_runtime` once there is a lease to adopt. -/
def adoptLeases (c : Change) : BackendProg Bool :=
  let undo : BackendProg Bool :=
    removeCandidateState c fun _ =>
    restorePreviousState c fun _ => .done false
  applyAddressAdditions c fun applied =>
  if !applied then .done false
  else
    removePreviousState c fun removed =>
    if !removed then undo
    else
      saveLeases .current c.candidateLeases fun saved =>
      if !saved then undo else .done true

def refreshRuntime (b : LinuxBackend) : BackendProg Bool :=
  b.readCurrent >>= fun
  | none => .done false
  | some current =>
    loadLeases .current fun
    | none => .done false
    | some previous =>
      b.collectLeases current previous Port.all previous false fun
      | none => .done false
      | some (refreshed, changed) =>
        if !changed then .done true else adoptLeases ⟨current, current, previous, refreshed⟩

end LinuxBackend

end Uhf.Network
