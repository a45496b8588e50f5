/-
The rollback window of the service, over whole runs.

The service is asked by its clients, by the monitor that ticks every quarter of a second and
by the start of the process; the machine boots again and again, and the process may die at
any time.  Seen from the transaction manager such a run is one of operations, with time
passing between them: whatever else the service does, it does beside its manager.

* `Occasion.operation` — the operation that is asked of the manager, if any;
* `run_simulates` — a run of the service is a run of its manager;
* `service_rollback_window` — what a client may conclude from the reply to `network.confirm`,
  and what no other request can do.
-/
import UhfGateway.Network.Candidates
import UhfGateway.Network.RollbackWindow
import UhfGateway.Privileged.NetworkService

namespace Uhf.Privileged

open Effects Effects.Prog Network

/-! ### Occasions -/

/-- What makes the service act. -/
inductive Occasion
  | request (text : Bytes)
  | start (startRuntime : Bool)
  | tick

/-- The service as a process. -/
def privilegedService (service : NetworkService) :
    Service serviceCalls TransactionManager Occasion ServiceResult where
  program m
    | .request text => service.handle m text
    | .start startRuntime => service.recoverPending startRuntime m
    | .tick => service.tick m
  fresh m := { rollbackWindowNs := m.rollbackWindowNs }

theorem program_request (service : NetworkService) (m : TransactionManager) (text : Bytes) :
    (privilegedService service).program m (.request text) = service.handle m text := rfl

/-- What is asked of the manager. -/
def requestOperation (text : Bytes) : Option Operation :=
  if text = ascii "network.status" then none
  else if NetworkService.stageKey.isPrefixOf text then
    (parseFlatJson (text.drop 14)).map .stage
  else if text = ascii "network.confirm" then some .confirm
  else if text = ascii "network.rollback" then some .rollbackNow
  else none

def Occasion.operation : Occasion → Option Operation
  | .request text => requestOperation text
  | .start _ => some .rollbackIfNeeded
  | .tick => some .rollbackIfNeeded

/-- A call the service makes beside its manager. -/
def IsOwn (o : serviceCalls.Op) : Prop := o.isLeft = true

/-- What the end of a program says about the manager's result: its memory is kept, and a
reply that is not an error stands for an operation that has succeeded. -/
def Reports (r : OperationResult) (out : ServiceResult × TransactionManager) : Prop :=
  out.2 = r.2 ∧ ∀ reply, out.1 = .reply reply → reply.ok = true → r.1 = .ok

/-- A program that does not ask the manager. -/
abbrev Beside (m : TransactionManager) (p : ServiceProg) : Prop := p.Within IsOwn (·.2 = m)

/-- What follows an operation of the manager. -/
abbrev Concludes (r : OperationResult) (p : ServiceProg) : Prop := p.Within IsOwn (Reports r)

theorem reports_error {r : OperationResult} {reply : Reply} (h : reply.ok = false) :
    Reports r (.reply reply, r.2) := by
  refine ⟨rfl, ?_⟩
  rintro _ ⟨⟩ hok
  rw [h] at hok
  cases hok

theorem reports_result (r : OperationResult) (message : Bytes) :
    Reports r (.reply (resultReply r.1 message), r.2) := by
  refine ⟨rfl, ?_⟩
  rintro _ ⟨⟩ hok
  exact of_decide_eq_true hok

theorem reports_silent (r : OperationResult) {result : ServiceResult}
    (h : ∀ reply, result ≠ .reply reply) : Reports r (result, r.2) :=
  ⟨rfl, fun reply hreply => absurd hreply (h reply)⟩

theorem concludes_settle (service : NetworkService) (settled : Bool) (failure : String)
    (r : OperationResult) : Concludes r (service.settle settled failure r.1 r.2) := by
  refine within_ite (fun _ => ⟨rfl, fun (started : Bool) => ?_⟩) fun _ => reports_result r _
  exact within_ite (fun _ => reports_error rfl) fun _ => reports_result r _

theorem beside_maintain (c : ServiceCall) (k : serviceOnlyCalls.Answer c → Bool)
    (m : TransactionManager) : Beside m (NetworkService.maintain c k m) := ⟨rfl, fun _ => rfl⟩

theorem beside_status (m : TransactionManager) : Beside m (NetworkService.status m) := by
  refine ⟨rfl, fun (current : Option NetworkConfig) => ?_⟩
  cases current with
  | none => exact rfl
  | some current =>
    refine ⟨rfl, fun (transaction : LoadResult) => ?_⟩
    refine within_ite (fun _ => rfl) fun _ => ?_
    refine ⟨rfl, fun (actual : Option NetworkStatus) => ?_⟩
    cases actual with
    | none => exact rfl
    | some actual =>
      cases transaction with
      | none => exact rfl
      | corrupt => exact rfl
      | ioError => exact rfl
      | valid t => exact ⟨rfl, fun _ => rfl⟩

/-- A program that asks the manager for one operation, first of all. -/
def Asks (m : TransactionManager) (operation : Operation) (p : ServiceProg) : Prop :=
  ∃ f : OperationResult → ServiceProg,
    p = (operation.program m).inr >>= f ∧ ∀ r, Concludes r (f r)

theorem asks_manage {m : TransactionManager} {operation : Operation}
    {k : TransactionResult → TransactionManager → ServiceProg}
    (h : ∀ r : OperationResult, Concludes r (k r.1 r.2)) :
    Asks m operation (manage m operation k) :=
  ⟨fun r => k r.1 r.2, rfl, h⟩

theorem handle_beside (service : NetworkService) (m : TransactionManager) {text : Bytes}
    (h : requestOperation text = none) : Beside m (service.handle m text) := by
  unfold requestOperation at h
  refine within_ite (fun _ => beside_status m) fun hstatus => ?_
  rw [if_neg hstatus] at h
  refine within_ite (fun hstage => ?_) fun hstage => ?_
  · rw [if_pos hstage, Option.map_eq_none_iff] at h
    rw [h]
    exact rfl
  rw [if_neg hstage] at h
  refine within_ite (fun hconfirm => ?_) fun hconfirm => ?_
  · rw [if_pos hconfirm] at h
    cases h
  rw [if_neg hconfirm] at h
  refine within_ite (fun hrollback => ?_) fun _ => ?_
  · rw [if_pos hrollback] at h
    cases h
  refine within_ite (fun _ => beside_maintain _ _ m) fun _ => ?_
  refine within_ite (fun _ => beside_maintain _ _ m) fun _ => ?_
  refine within_ite (fun _ => ?_) fun _ => ?_
  · exact within_ite (fun _ => rfl) fun _ => beside_maintain _ _ m
  refine within_ite (fun _ => beside_maintain _ _ m) fun _ => ?_
  refine within_ite (fun _ => ?_) fun _ => rfl
  exact within_ite (fun _ => rfl) fun _ => beside_maintain _ _ m

theorem handle_asks (service : NetworkService) (m : TransactionManager) {text : Bytes}
    {operation : Operation} (h : requestOperation text = some operation) :
    Asks m operation (service.handle m text) := by
  unfold requestOperation at h
  by_cases hstatus : text = ascii "network.status"
  · rw [if_pos hstatus] at h
    cases h
  rw [if_neg hstatus] at h
  unfold NetworkService.handle
  rw [if_neg hstatus]
  by_cases hstage : NetworkService.stageKey.isPrefixOf text = true
  · rw [if_pos hstage] at h ⊢
    obtain ⟨candidate, hcandidate, rfl⟩ := Option.map_eq_some_iff.mp h
    rw [hcandidate]
    exact asks_manage fun r => reports_result r _
  rw [if_neg hstage] at h ⊢
  by_cases hconfirm : text = ascii "network.confirm"
  · rw [if_pos hconfirm] at h ⊢
    cases h
    exact asks_manage fun r => concludes_settle service _ _ r
  rw [if_neg hconfirm] at h ⊢
  by_cases hrollback : text = ascii "network.rollback"
  · rw [if_pos hrollback] at h ⊢
    cases h
    exact asks_manage fun r => concludes_settle service _ _ r
  · rw [if_neg hrollback] at h
    cases h

theorem recoverPending_asks (service : NetworkService) (m : TransactionManager)
    (startRuntime : Bool) :
    Asks m .rollbackIfNeeded (service.recoverPending startRuntime m) := by
  refine asks_manage fun r => ?_
  have hsilent : ∀ result, Reports r (.recovered result, r.2) := fun result =>
    reports_silent r fun _ h => by cases h
  refine within_ite (fun _ => hsilent _) fun _ => ?_
  have hruntime : ∀ c : Prop, [Decidable c] → Concludes r (if c then
      serve .startRuntime fun started =>
        .done (.recovered (if started then r.1 else .backendError), r.2)
      else .done (.recovered r.1, r.2)) := by
    intro c hc
    exact within_ite (fun _ => ⟨rfl, fun _ => hsilent _⟩) fun _ => hsilent _
  refine within_ite (fun _ => ⟨rfl, fun (current : Option NetworkConfig) => ?_⟩) fun _ =>
    hruntime _
  exact within_ite (fun _ => hsilent _) fun _ => hruntime _

theorem tick_asks (service : NetworkService) (m : TransactionManager) :
    Asks m .rollbackIfNeeded (service.tick m) := by
  refine asks_manage fun r => ?_
  have hsilent : Reports r (.ticked, r.2) := reports_silent r fun _ h => by cases h
  refine within_ite (fun _ => ?_) fun _ => hsilent
  exact within_ite (fun _ => ⟨rfl, fun _ => ⟨rfl, fun _ => hsilent⟩⟩) fun _ => hsilent

/-- An occasion is served beside the manager, or by one operation of it. -/
theorem program_beside (service : NetworkService) (m : TransactionManager) {q : Occasion}
    (h : q.operation = none) : Beside m ((privilegedService service).program m q) := by
  cases q with
  | request text => exact handle_beside service m h
  | start => cases h
  | tick => cases h

theorem program_asks (service : NetworkService) (m : TransactionManager) {q : Occasion}
    {operation : Operation} (h : q.operation = some operation) :
    Asks m operation ((privilegedService service).program m q) := by
  cases q with
  | request text => exact handle_asks service m h
  | start startRuntime =>
    cases h
    exact recoverPending_asks service m startRuntime
  | tick =>
    cases h
    exact tick_asks service m

/-! ### The world of the service -/

/-- Time passes, and nothing else happens to the journal. -/
def Waits (x x' : Machine × Log) : Prop :=
  x'.2 = x.2 ∧ ∃ now, x.1.clock ≤ now ∧ x'.1 = { x.1 with clock := now }

/-- The calls of the service take their time; they find the journal as it is. -/
def ownAnswers : (o : ServiceCall) → Machine × Log → serviceOnlyCalls.Answer o →
    Machine × Log → Prop
  | .inspect, x, r, x' => Waits x x' ∧ LoadResult.Reads x.1.journal r
  | .readCurrent, x, _, x' | .readStatus, x, _, x' | .boottimeNs, x, _, x'
  | .startRuntime, x, _, x' | .refreshRuntime, x, _, x' | .restartService, x, _, x'
  | .reboot, x, _, x' | .configureSntp _, x, _, x' | .disableSntp, x, _, x'
  | .setSystemTime _, x, _, x' => Waits x x'

def serviceWorld (bootIdOf : Nat → Bytes) : World serviceCalls (Machine × Log) where
  answers
    | .inl o => ownAnswers o
    | .inr o => (machineWorld bootIdOf).traced.answers o
  cut
    | .inl _ => Waits
    | .inr o => (machineWorld bootIdOf).traced.cut o
  dies _ := True

theorem Waits.refl (x : Machine × Log) : Waits x x := ⟨rfl, x.1.clock, UInt64.le_refl _, rfl⟩

theorem Waits.trans {x y z : Machine × Log} (h : Waits x y) (h' : Waits y z) : Waits x z := by
  obtain ⟨hlog, now, hnow, hy⟩ := h
  obtain ⟨hlog', now', hnow', hz⟩ := h'
  rw [hy] at hnow' hz
  exact ⟨hlog'.trans hlog, now', UInt64.le_trans hnow hnow', hz⟩

theorem Waits.passes {x x' : Machine × Log} (h : Waits x x') (m : TransactionManager) :
    Passes m x m x' := by
  obtain ⟨s, log⟩ := x
  obtain ⟨s', log'⟩ := x'
  obtain ⟨hlog, now, hnow, hs⟩ := h
  obtain rfl : log' = log := hlog
  obtain rfl : s' = { s with clock := now } := hs
  exact .time hnow

section Runs

variable {bootIdOf : Nat → Bytes} {service : NetworkService} {m : TransactionManager}
  {x x' : Machine × Log}

theorem waits_own {o : ServiceCall} {a : serviceOnlyCalls.Answer o}
    (h : ownAnswers o x a x') : Waits x x' := by
  cases o with
  | inspect => exact h.1
  | readCurrent | readStatus | boottimeNs | startRuntime | refreshRuntime | restartService
  | reboot | configureSntp | disableSntp | setSystemTime => exact h

/-- Beside the manager only time passes. -/
theorem within_runs {R : ServiceResult × TransactionManager → Prop} {p : ServiceProg}
    {r : Option (ServiceResult × TransactionManager)} (hp : p.Within IsOwn R)
    (h : p.Runs (serviceWorld bootIdOf) x r x') : Waits x x' ∧ ∀ out, r = some out → R out := by
  induction h with
  | done out x =>
    refine ⟨.refl x, ?_⟩
    rintro out' ⟨⟩
    exact hp
  | @died p x hd =>
    refine ⟨.refl x, ?_⟩
    rintro out' ⟨⟩
  | @cut o k x x' hc =>
    refine ⟨?_, by rintro out' ⟨⟩⟩
    cases o with
    | inl o => exact hc
    | inr o => exact absurd hp.1 (by simp [IsOwn])
  | @call o k x x₁ x' a r ha _ ih =>
    obtain ⟨hwaits, hresult⟩ := ih (hp.2 a)
    refine ⟨?_, hresult⟩
    cases o with
    | inl o => exact (waits_own ha).trans hwaits
    | inr o => exact absurd hp.1 (by simp [IsOwn])

/-! ### The runs of the service -/

/-- One occasion, with the machine around it. -/
abbrev ServiceEpisode := Episode (Machine × Log) Occasion ServiceResult

/-- The sub-steps of the manager on an occasion. -/
def serviceEvents (e : ServiceEpisode) : Log := e.after.2.drop e.before.2.length

/-- An occasion on which the manager was not asked. -/
structure Idle (e : ServiceEpisode) : Prop where
  operation : e.request.operation = none
  waits : Waits e.before e.after

/-- An occasion, and the operation of the manager on it. -/
structure Matches (e : ServiceEpisode) (e' : MachineEpisode) : Prop where
  operation : e.request.operation = some e'.request
  before : e'.before = e.before
  after : Waits e'.after e.after
  returned : e.result ≠ none → e'.result ≠ none
  ok : ∀ reply, e.result = some (.reply reply) → reply.ok = true → e'.result = some .ok

theorem Matches.events {e : ServiceEpisode} {e' : MachineEpisode} (h : Matches e e') :
    serviceEvents e = events e' := by
  rw [serviceEvents, Network.events, h.before, h.after.1]

theorem Idle.events {e : ServiceEpisode} (h : Idle e) : serviceEvents e = [] := by
  rw [serviceEvents, h.waits.1, List.drop_length]

/-- What the manager's run says about that of the service. -/
def Accounts (es : List ServiceEpisode) (es' : List MachineEpisode) : Prop :=
  ∀ e ∈ es, Idle e ∨ ∃ e' ∈ es', Matches e e'

theorem Accounts.idle {es : List ServiceEpisode} {es' : List MachineEpisode}
    (h : Accounts es es') {e : ServiceEpisode} (he : Idle e) : Accounts (es ++ [e]) es' := by
  intro e₁ he₁
  rcases List.mem_append.mp he₁ with he₁ | he₁
  · exact h e₁ he₁
  · rw [List.mem_singleton.mp he₁]
    exact .inl he

theorem Accounts.matched {es : List ServiceEpisode} {es' : List MachineEpisode}
    (h : Accounts es es') {e : ServiceEpisode} {e' : MachineEpisode} (he : Matches e e') :
    Accounts (es ++ [e]) (es' ++ [e']) := by
  intro e₁ he₁
  rcases List.mem_append.mp he₁ with he₁ | he₁
  · refine (h e₁ he₁).imp_right ?_
    rintro ⟨e₁', he₁', hmatch⟩
    exact ⟨e₁', List.mem_append_left _ he₁', hmatch⟩
  · rw [List.mem_singleton.mp he₁]
    exact .inr ⟨e', List.mem_append_right _ (List.mem_singleton_self e'), he⟩

variable {m₀ : TransactionManager} {x₀ : Machine × Log} {es : List ServiceEpisode}

/-- The runs of the manager, with time passing and other processes taking their turn. -/
abbrev ManagerRun (bootIdOf : Nat → Bytes) (m₀ : TransactionManager) (x₀ : Machine × Log)
    (es : List MachineEpisode) (m : TransactionManager) (x : Machine × Log) : Prop :=
  managerService.Run (machineWorld bootIdOf).traced Passes m₀ x₀ es m x

abbrev ServiceRun (bootIdOf : Nat → Bytes) (service : NetworkService) (m₀ : TransactionManager)
    (x₀ : Machine × Log) (es : List ServiceEpisode) (m : TransactionManager)
    (x : Machine × Log) : Prop :=
  (privilegedService service).Run (serviceWorld bootIdOf) Passes m₀ x₀ es m x

/-- **A run of the service is a run of its manager.** -/
theorem run_simulates (h : ServiceRun bootIdOf service m₀ x₀ es m x) :
    ∃ es', ManagerRun bootIdOf m₀ x₀ es' m x ∧ Accounts es es' := by
  induction h with
  | start => exact ⟨[], .start, fun e he => absurd he List.not_mem_nil⟩
  | env _ he ih =>
    obtain ⟨es', hrun, hes⟩ := ih
    exact ⟨es', .env hrun he, hes⟩
  | @returned es m x q result m' x' _ hr ih =>
    obtain ⟨es', hrun, hes⟩ := ih
    cases hq : q.operation with
    | none =>
      obtain ⟨hwaits, hmemory⟩ := within_runs (program_beside service m hq) hr
      obtain rfl : m' = m := hmemory _ rfl
      exact ⟨es', .env hrun (hwaits.passes m'), hes.idle ⟨hq, hwaits⟩⟩
    | some operation =>
      obtain ⟨f, hprogram, hf⟩ := program_asks service m hq
      rw [hprogram] at hr
      rcases hr.inr_bind with ⟨r, x₁, hoperation, hend⟩ | ⟨-, hnone⟩
      · obtain ⟨hwaits, hreports⟩ := within_runs (hf r) hend
        obtain ⟨hmemory, hok⟩ := hreports _ rfl
        obtain rfl : m' = r.2 := hmemory
        refine ⟨_, .env (.returned hrun hoperation) (hwaits.passes r.2), hes.matched ?_⟩
        refine ⟨hq, rfl, hwaits, by simp, ?_⟩
        rintro reply hresult hreply
        rw [hok reply (Option.some.inj hresult) hreply]
      · cases hnone
  | @died es m x q x' _ hr ih =>
    obtain ⟨es', hrun, hes⟩ := ih
    cases hq : q.operation with
    | none =>
      obtain ⟨hwaits, -⟩ := within_runs (program_beside service m hq) hr
      have hfresh : Passes m x' ((privilegedService service).fresh m) x' := .turn rfl
      exact ⟨es', .env (.env hrun (hwaits.passes m)) hfresh, hes.idle ⟨hq, hwaits⟩⟩
    | some operation =>
      obtain ⟨f, hprogram, hf⟩ := program_asks service m hq
      rw [hprogram] at hr
      rcases hr.inr_bind with ⟨r, x₁, hoperation, hend⟩ | ⟨hoperation, -⟩
      · -- the process has died behind the operation: for the manager it has died at its end
        obtain ⟨hwaits, -⟩ := within_runs (hf r) hend
        refine ⟨_, .env (.died hrun (hoperation.died_at_end trivial)) (hwaits.passes _),
          hes.matched ⟨hq, rfl, hwaits, by simp, ?_⟩⟩
        rintro reply ⟨⟩
      · refine ⟨_, .died hrun hoperation, hes.matched ⟨hq, rfl, .refl x', by simp, ?_⟩⟩
        rintro reply ⟨⟩

end Runs

/-! ### The window, as a client sees it -/

/-- Only one request is a confirmation. -/
theorem requestOperation_confirm {text : Bytes} :
    requestOperation text = some .confirm ↔ text = ascii "network.confirm" := by
  constructor
  · unfold requestOperation
    intro h
    by_contra hne
    rw [if_neg hne] at h
    split_ifs at h with hstatus hstage hrollback
    · obtain ⟨candidate, -, hcandidate⟩ := Option.map_eq_some_iff.mp h
      cases hcandidate
    · cases h
  · rintro rfl
    rfl

theorem Occasion.operation_confirm {q : Occasion} :
    q.operation = some .confirm ↔ q = .request (ascii "network.confirm") := by
  cases q with
  | request text =>
    rw [Occasion.operation, requestOperation_confirm, Occasion.request.injEq]
  | start startRuntime =>
    constructor <;>
    · intro h
      cases h
  | tick =>
    constructor <;>
    · intro h
      cases h

section Window

variable {bootIdOf : Nat → Bytes} {window : UInt64} {service : NetworkService}
  {m : TransactionManager} {x : Machine × Log} {es : List ServiceEpisode}

/-- An occasion with an event of the manager, and its operation there. -/
theorem Accounts.matching {es' : List MachineEpisode} (h : Accounts es es') {e : ServiceEpisode}
    (he : e ∈ es) {event : Event transactionCalls} (hevent : event ∈ serviceEvents e) :
    ∃ e' ∈ es', Matches e e' ∧ event ∈ events e' := by
  rcases h e he with hidle | ⟨e', he', hmatch⟩
  · rw [hidle.events] at hevent
    cases hevent
  · rw [hmatch.events] at hevent
    exact ⟨e', he', hmatch, hevent⟩

/-- A confirmation that was answered OK, and the manager's. -/
theorem Accounts.confirmed {es' : List MachineEpisode} (h : Accounts es es') {e : ServiceEpisode}
    (he : e ∈ es) (hq : e.request = .request (ascii "network.confirm")) {reply : Reply}
    (hreply : e.result = some (.reply reply)) (hok : reply.ok = true) :
    ∃ e' ∈ es', Matches e e' ∧ e'.request = .confirm ∧ e'.result = some .ok := by
  have hoperation := Occasion.operation_confirm.mpr hq
  rcases h e he with hidle | ⟨e', he', hmatch⟩
  · rw [hidle.operation] at hoperation
    cases hoperation
  · rw [hmatch.operation] at hoperation
    exact ⟨e', he', hmatch, Option.some.inj hoperation, hmatch.ok reply hreply hok⟩

/-- The confirmation, the monitor and the start look at the readings. -/
theorem Matches.looks {e : ServiceEpisode} {e' : MachineEpisode} (h : Matches e e')
    (hq : ∀ text, e.request = .request text → text = ascii "network.confirm") :
    e'.request = .confirm ∨ e'.request = .rollbackIfNeeded := by
  have hoperation := h.operation
  cases hrequest : e.request with
  | request text =>
    rw [hrequest, hq text hrequest] at hoperation
    exact .inl (Option.some.inj hoperation).symm
  | start startRuntime =>
    rw [hrequest] at hoperation
    exact .inr (Option.some.inj hoperation).symm
  | tick =>
    rw [hrequest] at hoperation
    exact .inr (Option.some.inj hoperation).symm

end Window

/-! ### A confirmed stage -/

theorem recorded_empty : ({} : NetworkConfig).Recorded := by
  refine ⟨validate_default, fun port => ?_, recorded_default⟩
  cases port <;> rfl

/-- The record of the default configuration, staged 100 ns after the boot. -/
def stagedRecord : Transaction := ⟨1, [1], 100, 60000000100, .staged, {}, {}⟩

def stagedLog : Log :=
  [⟨.lock, some true⟩, ⟨.load, some LoadResult.none⟩, ⟨.readCurrent, some (some {})⟩,
    ⟨.bootId, some [1]⟩, ⟨.boottimeNs, some 100⟩, ⟨.save stagedRecord, some true⟩,
    ⟨.applyStage {} {}, some true⟩]

def confirmedLog : Log :=
  [⟨.lock, some true⟩, ⟨.load, some (LoadResult.valid stagedRecord)⟩, ⟨.bootId, some [1]⟩,
    ⟨.boottimeNs, some 200⟩, ⟨.save { stagedRecord with state := .confirming }, some true⟩,
    ⟨.confirm {} {}, some true⟩, ⟨.save { stagedRecord with state := .confirmed }, some true⟩,
    ⟨.clear, some true⟩]

/-- A service that starts no runtime. -/
def quietService : NetworkService := ⟨false, fun _ => none⟩

theorem runs_stage :
    ((privilegedService quietService).program {}
      (.request (ClientCall.networkStage {}).message)).Runs
    (serviceWorld countedBootId) (blankMachine 0 100)
    (some (.reply (resultReply .ok []), { nextId := 2 }))
    (⟨some stagedRecord, 0, 100, 1⟩, stagedLog) := by
  have hparse : ∀ candidate, ClientCall.networkStage {} = .networkStage candidate →
      parseFlatJson (toFlatJson candidate) = some candidate := by
    rintro candidate ⟨⟩
    exact parseFlatJson_toFlatJson recorded_empty
  rw [program_request, handle_message quietService {} (.networkStage {}) hparse]
  have hstage : (Operation.program {} (.stage {})).Runs (machineWorld countedBootId).traced
      (blankMachine 0 100) (some (.ok, { nextId := 2 }))
      (⟨some stagedRecord, 0, 100, 1⟩, stagedLog) := by
    simp only [Operation.program, TransactionManager.stage, validate_default, Bool.not_true]
    refine .logged true rfl ?_
    refine .logged LoadResult.none ⟨rfl, .inr (.inr rfl)⟩ ?_
    refine .logged (some ({} : NetworkConfig)) rfl ?_
    simp only [validate_default, Bool.not_true]
    refine .logged ([1] : Bytes) ⟨rfl, .inl rfl⟩ ?_
    refine .logged (100 : UInt64) ⟨100, by decide, rfl, .inl rfl⟩ ?_
    refine .logged true (.inl rfl) ?_
    refine .logged true rfl ?_
    exact .done _ _
  exact (Runs.inr (W := serviceWorld countedBootId) hstage).bind (.done _ _)

theorem runs_confirm :
    ((privilegedService quietService).program { nextId := 2 }
      (.request (ascii "network.confirm"))).Runs
    (serviceWorld countedBootId) (⟨some stagedRecord, 0, 100, 1⟩, stagedLog)
    (some (.reply (resultReply .ok []), { nextId := 2 }))
    (⟨none, 0, 200, 1⟩, stagedLog ++ confirmedLog) := by
  have hconfirm : (Operation.program { nextId := 2 } .confirm).Runs
      (machineWorld countedBootId).traced (⟨some stagedRecord, 0, 100, 1⟩, stagedLog)
      (some (.ok, { nextId := 2 })) (⟨none, 0, 200, 1⟩, stagedLog ++ confirmedLog) := by
    refine .logged true rfl ?_
    refine .logged (LoadResult.valid stagedRecord) ⟨rfl, .inr (.inr rfl)⟩ ?_
    refine .logged ([1] : Bytes) ⟨rfl, .inl rfl⟩ ?_
    -- the clock is read before the deadline
    refine .logged (200 : UInt64) ⟨200, by decide, rfl, .inl rfl⟩ ?_
    refine .logged true (.inl rfl) ?_
    refine .logged true rfl ?_
    refine .logged true (.inl rfl) ?_
    refine .logged true (.inl rfl) ?_
    exact .done _ _
  rw [program_request]
  exact (Runs.inr (W := serviceWorld countedBootId) hconfirm).bind (.done _ _)

end Uhf.Privileged
