/-
The poll loop and the log (`GatewayRuntime::run`).

The loop polls, and tells the logger when polling fails and when the communication alarm is raised,
and when either is over.  The other threads use the same logger in between.  The log says of the
history of the store what it should:

* `pollOnce_storeCall` — a poll is one call of the store;
* `Reported.poll_step`, `Reported.tell_step`, `Reported.log_step` — each action keeps the account;
* `outages_reported` — the log begins and ends an outage exactly where the history does.
-/
import Mathlib.Data.List.Induction
import UhfGateway.Acquisition.AllOrNothing
import UhfGateway.Acquisition.StoreHistory
import UhfGateway.Effects.Transition
import UhfGateway.Logging.Outages

namespace Uhf.App

open Acquisition Containers Domain Effects Logging

/-! ### What the loop says -/

/-- A call of `log` or of `recovered`, which read the clocks themselves. -/
inductive Report
  | log (level : Level) (component : Component) (eventCode message : Bytes) (fields : List Field)
  | recovered (component : Component) (eventCode message : Bytes)

/-- The call of `log_at` or of `recovered_at` that it becomes. -/
def Report.call (monotonicNow utcNow : Nanoseconds) : Report → Call
  | .log level component eventCode message fields =>
    .log level ⟨component, eventCode, message, fields, monotonicNow, utcNow⟩
  | .recovered component eventCode message =>
    .recovered ⟨component, eventCode, message, [], monotonicNow, utcNow⟩

/-- The variables of `run` that outlive a cycle. -/
structure PollLoop where
  previousCycleFailed : Bool := false
  communicationAlarmActive : Bool := false

/-- What is said after a poll. -/
def pollReports (previousCycleFailed success : Bool) (lastError : Bytes) : List Report :=
  if success then
    if previousCycleFailed then
      [.recovered .acquisition (ascii "poll.failed") (ascii "PD1000 polling recovered")]
    else []
  else [.log .error .acquisition (ascii "poll.failed") lastError []]

/-- What is said after a look at the status of the store. -/
def alarmReports (communicationAlarmActive : Bool) (status : AcquisitionStatus) : List Report :=
  if status.communicationAlarm && !communicationAlarmActive then
    [.log .error .acquisition (ascii "communication.alarm")
      (ascii "PD1000 communication alarm raised after three consecutive no-response cycles")
      [⟨ascii "consecutive_no_response", decimal status.consecutiveNoResponse.toNat⟩]]
  else if !status.communicationAlarm && communicationAlarmActive then
    [.recovered .acquisition (ascii "communication.alarm")
      (ascii "PD1000 communication recovered")]
  else []

/-! ### The loop among the other threads -/

def pollKey : Bytes := throttleKey .acquisition (ascii "poll.failed")
def alarmKey : Bytes := throttleKey .acquisition (ascii "communication.alarm")

/-- The keys of the events that the program logs as warnings or as worse. -/
def knownKeys : List Bytes :=
  [pollKey, alarmKey,
    throttleKey .iec61850 (ascii "model.load_failed"),
    throttleKey .modbusTcp (ascii "server.failed"),
    throttleKey .modbusRtu (ascii "server.failed"),
    throttleKey .modbusTcp (ascii "configuration.reload_failed"),
    throttleKey .iec61850 (ascii "configuration.reload_failed"),
    throttleKey .storage (ascii "cleanup.failed"),
    throttleKey .storage (ascii "event.dropped"),
    throttleKey .storage (ascii "event.save_failed"),
    throttleKey .storage (ascii "frame.dropped"),
    throttleKey .storage (ascii "frame.save_failed"),
    throttleKey .config (ascii "time.configuration_apply_failed"),
    throttleKey .config (ascii "web.endpoint_reload_failed")]

/-- The loop with what it works on.  No other thread polls, so that between two actions of the loop
only the logger changes. -/
structure Monitoring where
  store : SnapshotStore := {}
  loop : PollLoop := {}
  /-- What the loop is still to say about the last cycle. -/
  pending : List Report := []
  logger : Logger
  /-- The calls of the logger and of the store.  The source keeps no such lists. -/
  calls : List Call := []
  history : List StoreCall := []

/-- The call of the store that an act is. -/
def storeCall? : Act pollCalls → Option StoreCall
  | ⟨.publish payload startedAt completedAt, _⟩ => some (.publish payload startedAt completedAt)
  | ⟨.recordFailure attemptedAt error reason, _⟩ =>
    some (.recordFailure ⟨attemptedAt, error, reason⟩)
  | _ => none

namespace Monitoring

inductive Action
  /-- `poll_once` has returned, after these acts. -/
  | poll (trace : Trace pollCalls) (success : Bool) (lastError : Bytes)
  /-- The loop says the next thing. -/
  | tell (monotonicNow utcNow : Nanoseconds) (order : List Bytes)
  /-- Another thread calls the logger. -/
  | log (call : Call) (order : List Bytes)

def perform (s : Monitoring) (call : Call) (order : List Bytes) : Monitoring :=
  { s with
    logger := (s.logger.perform order call).2
    calls := s.calls ++ [call] }

/-- The part of an iteration that follows on `poll_once`. -/
def poll (s : Monitoring) (trace : Trace pollCalls) (success : Bool) (lastError : Bytes) :
    Monitoring :=
  let store := s.store.after trace
  let status := store.servingView.status
  { s with
    store := store
    loop := ⟨!success, status.communicationAlarm⟩
    pending := pollReports s.loop.previousCycleFailed success lastError ++
      alarmReports s.loop.communicationAlarmActive status
    history := s.history ++ trace.filterMap storeCall? }

def step (s : Monitoring) : Action → Option Monitoring
  | .poll trace success lastError =>
    if s.pending = [] then some (s.poll trace success lastError) else none
  | .tell monotonicNow utcNow order =>
    match s.pending with
    | [] => none
    | report :: rest =>
      some ({ s with pending := rest }.perform (report.call monotonicNow utcNow) order)
  | .log call order => some (s.perform call order)

theorem step_poll {s : Monitoring} (hpending : s.pending = []) (trace : Trace pollCalls)
    (success : Bool) (lastError : Bytes) :
    s.step (.poll trace success lastError) = some (s.poll trace success lastError) :=
  if_pos hpending

end Monitoring

/-! ### A poll is one call of the store -/

theorem AllOnLine.storeCalls {trace : Trace pollCalls} (h : AllOnLine trace) :
    trace.filterMap storeCall? = [] := by
  refine List.filterMap_eq_nil_iff.mpr fun act hact => ?_
  have hline := h act hact
  rw [storeCall?.eq_def]
  split
  · exact hline.elim
  · exact hline.elim
  · rfl

/-- A poll that has returned has called the store once, and has published if it says so. -/
theorem pollOnce_storeCall {options : AcquisitionOptions} {fuel : ℕ} {trace : Trace pollCalls}
    {success : Bool} {lastError : Bytes}
    (h : (pollOnce options fuel).Exec trace (.returned success lastError)) :
    ∃ call, trace.filterMap storeCall? = [call] ∧ call.isPublish = success ∧
      ∀ store : SnapshotStore, store.after trace = store.call call := by
  obtain ⟨startedAt, completedAt, responses, htrace, -, hresult⟩ |
    ⟨failure, ended, htrace, hresult⟩ := pollOnce_cases h
  · obtain ⟨rfl, rfl⟩ := PollResult.returned.inj hresult
    refine ⟨.publish (parsePd1000Registers (imageOf options responses)) startedAt completedAt, ?_,
      rfl, fun store => (htrace.effects store).2.2⟩
    obtain ⟨body, rfl, hbody, -⟩ := htrace
    rw [List.filterMap_cons_none rfl, List.filterMap_append, AllOnLine.storeCalls hbody]
    rfl
  · have hfailed : success = false := by
      rw [afterQuarantine] at hresult
      split_ifs at hresult
      · exact (PollResult.returned.inj hresult).1
    refine ⟨.recordFailure failure, ?_, hfailed.symm, fun store => (htrace.effects store).2.2⟩
    obtain ⟨body, entered, tail, rfl, hbody, htail, -⟩ := htrace
    have hrecorded : storeCall? (Did.recordFailure failure.attemptedAt failure.error
        failure.reason) = some (.recordFailure failure) := rfl
    rw [List.filterMap_append, AllOnLine.storeCalls hbody, List.filterMap_cons_none rfl,
      List.filterMap_cons_some hrecorded, List.filterMap_cons_none rfl,
      AllOnLine.storeCalls htail]
    rfl

/-! ### What the history says -/

/-- Whether each cycle has failed. -/
def failed (history : List StoreCall) : List Bool := history.map fun call => !call.isPublish

/-- Whether three cycles or more have been silent, after each cycle. -/
def alarms (history : List StoreCall) : List Bool :=
  (List.range history.length).map fun n => decide (3 ≤ silentEnd (history.take (n + 1)))

section History

variable {history : List StoreCall} {call : StoreCall}

theorem failed_concat : failed (history ++ [call]) = failed history ++ [!call.isPublish] :=
  List.map_append

theorem alarms_concat : alarms (history ++ [call]) =
    alarms history ++ [decide (3 ≤ silentEnd (history ++ [call]))] := by
  rw [alarms, List.length_append, List.length_singleton, List.range_succ, List.map_append]
  congr 1
  · refine List.map_congr_left fun n hn => ?_
    have hin := List.mem_range.mp hn
    rw [List.take_append_of_le_length (show n + 1 ≤ history.length by omega)]
  · have hall : (history ++ [call]).length ≤ history.length + 1 :=
      Nat.le_of_eq List.length_append
    rw [List.map_singleton, List.take_of_length_le hall]

/-- The alarm after the last cycle is that of the store. -/
theorem current_alarms :
    current false (alarms history) = (storeAfter history).status.communicationAlarm := by
  have halarm : (storeAfter history).status.communicationAlarm =
      decide (3 ≤ silentEnd history) :=
    Bool.eq_iff_iff.mpr (storeAfter_alarm.trans decide_eq_true_iff.symm)
  rw [halarm]
  cases history using List.reverseRecOn with
  | nil => rfl
  | append_singleton history call => rw [alarms_concat, current_concat]

/-- When the alarm is raised, exactly three cycles have been silent. -/
theorem raised_at_three (hbefore : (storeAfter history).status.communicationAlarm = false)
    (hafter : (storeAfter (history ++ [call])).status.communicationAlarm = true) :
    (storeAfter (history ++ [call])).status.consecutiveNoResponse.toNat = 3 := by
  rw [storeAfter_consecutive]
  have hthree := storeAfter_alarm.mp hafter
  have hless : ¬ 3 ≤ silentEnd history := fun h => by
    rw [storeAfter_alarm.mpr h] at hbefore
    cases hbefore
  rw [silentEnd_append] at hthree ⊢
  split_ifs at hthree ⊢
  · omega
  · omega

end History

/-! ### What has been said -/

/-- Whether a report begins an outage. -/
def Report.begins : Report → Bool
  | .log .. => true
  | .recovered .. => false

def Report.key : Report → Bytes
  | .log _ component eventCode _ _ => throttleKey component eventCode
  | .recovered component eventCode _ => throttleKey component eventCode

/-- What is still to be said about the event with this key. -/
def upcoming (key : Bytes) (pending : List Report) : List Bool :=
  (pending.filter fun report => report.key = key).map Report.begins

/-- What the loop has told the logger about the event, and what it is about to. -/
def Monitoring.said (s : Monitoring) (key : Bytes) : List Bool :=
  signal (callsOf key s.calls) ++ upcoming key s.pending

section Reports

variable {report : Report} {key : Bytes} {monotonicNow utcNow : Nanoseconds}

theorem Report.key_call : (report.call monotonicNow utcNow).key = report.key := by
  cases report <;> rfl

theorem Report.begins_call : (report.call monotonicNow utcNow).begins = report.begins := by
  cases report <;> rfl

theorem upcoming_append (key : Bytes) (first second : List Report) :
    upcoming key (first ++ second) = upcoming key first ++ upcoming key second := by
  rw [upcoming, List.filter_append, List.map_append]
  rfl

/-- It makes no difference to what is said that a report is passed on. -/
theorem said_report (calls : List Call) (report : Report) (rest : List Report) :
    signal (callsOf key (calls ++ [report.call monotonicNow utcNow])) ++ upcoming key rest =
      signal (callsOf key calls) ++ upcoming key (report :: rest) := by
  rw [callsOf_concat, Report.key_call, upcoming, upcoming, List.filter_cons]
  by_cases hkey : report.key = key
  · rw [if_pos hkey, if_pos (decide_eq_true hkey), signal_concat, Report.begins_call,
      List.map_cons, List.append_assoc]
    rfl
  · rw [if_neg hkey, if_neg (by rw [decide_eq_true_iff]; exact hkey)]

theorem alarmKey_ne_pollKey : alarmKey ≠ pollKey := by decide

/-- What is said after a poll is about polling. -/
theorem upcoming_pollReports (previousCycleFailed success : Bool) (lastError : Bytes) :
    upcoming pollKey (pollReports previousCycleFailed success lastError) =
        (if success ∧ !previousCycleFailed then [] else [!success]) ∧
      upcoming alarmKey (pollReports previousCycleFailed success lastError) = [] := by
  cases success with
  | false => exact ⟨rfl, rfl⟩
  | true => cases previousCycleFailed <;> exact ⟨rfl, rfl⟩

/-- What is said after a look at the status is about the alarm, and only where it has changed. -/
theorem upcoming_alarmReports (active : Bool) (status : AcquisitionStatus) :
    upcoming pollKey (alarmReports active status) = [] ∧
      upcoming alarmKey (alarmReports active status) =
        if status.communicationAlarm = active then [] else [status.communicationAlarm] := by
  rw [alarmReports]
  cases halarm : status.communicationAlarm <;> cases active <;> exact ⟨rfl, rfl⟩

end Reports

/-! ### The account -/

/-- What may be told to the logger, by whatever thread: throttled events are known, those of the
loop are errors, and an alarm is raised after three cycles. -/
structure Proper (call : Call) : Prop where
  poll : Foreseen knownKeys pollKey call
  alarm : Foreseen knownKeys alarmKey call
  three : call.key = alarmKey → call.begins = true →
    call.event.fields = [⟨ascii "consecutive_no_response", ascii "3"⟩]

/-- The loop polls as `poll_once` can end; the other threads leave its events alone and log no
unknown ones as warnings or worse. -/
def Monitoring.Allowed (s : Monitoring) : Monitoring.Action → Prop
  | .poll trace success lastError =>
    ∃ options fuel, (pollOnce options fuel).Exec trace (.returned success lastError)
  | .tell _ _ order => order.Perm s.logger.throttle.keys
  | .log call order => order.Perm s.logger.throttle.keys ∧ call.key ≠ pollKey ∧
      call.key ≠ alarmKey ∧ ∀ level event, call = .log level event →
        Level.warning.rank ≤ level.rank → call.key ∈ knownKeys

/-- What has been said and is about to be said agrees with the history. -/
structure Reported (options : Logging.Options) (s : Monitoring) : Prop where
  run : LoggerRun options (fun _ _ _ => Proper) s.calls s.logger
  pending : ∀ report ∈ s.pending, ∀ monotonicNow utcNow, Proper (report.call monotonicNow utcNow)
  store : s.store = storeAfter s.history
  failing : s.loop.previousCycleFailed = current false (failed s.history)
  active : s.loop.communicationAlarmActive = s.store.status.communicationAlarm
  poll : changes false (s.said pollKey) = changes false (failed s.history)
  alarm : s.said alarmKey = changes false (alarms s.history)

section Account

variable {options : Logging.Options} {s s' : Monitoring}

theorem Proper.recovered (event : Event) : Proper (.recovered event) where
  poll level event h := by cases h
  alarm level event h := by cases h
  three _ h := by cases h

theorem pollReports_proper {previousCycleFailed success : Bool} {lastError : Bytes} :
    ∀ report ∈ pollReports previousCycleFailed success lastError, ∀ monotonicNow utcNow,
      Proper (report.call monotonicNow utcNow) := by
  have hfailed : ∀ monotonicNow utcNow, Proper ((Report.log .error .acquisition
      (ascii "poll.failed") lastError []).call monotonicNow utcNow) := by
    intro monotonicNow utcNow
    refine ⟨?_, ?_, fun hkey => absurd hkey alarmKey_ne_pollKey.symm⟩
    · rintro level event ⟨⟩
      exact ⟨fun _ => List.mem_cons_self, fun _ => by decide⟩
    · rintro level event ⟨⟩
      exact ⟨fun _ => List.mem_cons_self, fun _ => by decide⟩
  intro report hreport
  rw [pollReports] at hreport
  split_ifs at hreport
  · rw [List.mem_singleton.mp hreport]
    exact fun _ _ => .recovered _
  · exact absurd hreport List.not_mem_nil
  · rw [List.mem_singleton.mp hreport]
    exact hfailed

theorem alarmReports_proper {active : Bool} {status : AcquisitionStatus}
    (hthree : status.communicationAlarm = true → active = false →
      status.consecutiveNoResponse.toNat = 3) :
    ∀ report ∈ alarmReports active status, ∀ monotonicNow utcNow,
      Proper (report.call monotonicNow utcNow) := by
  intro report hreport monotonicNow utcNow
  rw [alarmReports] at hreport
  split_ifs at hreport with hraised hover
  · rw [Bool.and_eq_true, Bool.not_eq_true'] at hraised
    rw [List.mem_singleton.mp hreport]
    refine ⟨?_, ?_, fun _ _ => ?_⟩
    · rintro level event ⟨⟩
      exact ⟨fun _ => List.mem_cons_of_mem _ List.mem_cons_self, fun _ => by decide⟩
    · rintro level event ⟨⟩
      exact ⟨fun _ => List.mem_cons_of_mem _ List.mem_cons_self, fun _ => by decide⟩
    · show [_] = _
      rw [hthree hraised.1 hraised.2]
      rfl
  · rw [List.mem_singleton.mp hreport]
    exact .recovered _
  · exact absurd hreport List.not_mem_nil

theorem Reported.logged (h : Reported options s) {call : Call} {order : List Bytes}
    (horder : order.Perm s.logger.throttle.keys) (hcall : Proper call) :
    LoggerRun options (fun _ _ _ => Proper) (s.perform call order).calls
      (s.perform call order).logger := .call call order h.run horder hcall

/-- A poll: what is about to be said is what has changed. -/
theorem Reported.poll_step (h : Reported options s) (hpending : s.pending = [])
    {acquisition : AcquisitionOptions} {fuel : ℕ} {trace : Trace pollCalls} {success : Bool}
    {lastError : Bytes}
    (hran : (pollOnce acquisition fuel).Exec trace (.returned success lastError)) :
    Reported options (s.poll trace success lastError) := by
  obtain ⟨call, hcalls, hpublish, hstore⟩ := pollOnce_storeCall hran
  have hafter : s.store.after trace = storeAfter (s.history ++ [call]) := by
    rw [hstore, h.store, storeAfter_append]
  have hhistory : (s.poll trace success lastError).history = s.history ++ [call] :=
    congrArg (s.history ++ ·) hcalls
  have hstatus : (s.poll trace success lastError).store = storeAfter (s.history ++ [call]) := hafter
  have hsaid : ∀ key, signal (callsOf key s.calls) = s.said key := by
    intro key
    rw [Monitoring.said, hpending]
    exact (List.append_nil _).symm
  have hupcoming : ∀ key, (s.poll trace success lastError).said key = s.said key ++
      (upcoming key (pollReports s.loop.previousCycleFailed success lastError) ++
        upcoming key
          (alarmReports s.loop.communicationAlarmActive (s.store.after trace).status)) := by
    intro key
    rw [← hsaid, ← upcoming_append]
    rfl
  refine ⟨h.run, ?_, ?_, ?_, rfl, ?_, ?_⟩
  · refine List.forall_mem_append.mpr ⟨pollReports_proper, alarmReports_proper ?_⟩
    intro hraised hquiet
    rw [h.active, h.store] at hquiet
    rw [hafter] at hraised ⊢
    exact raised_at_three hquiet hraised
  · rw [hhistory, hstatus]
  · rw [hhistory, failed_concat, current_concat, hpublish]
    rfl
  · have hcurrent : current false (s.said pollKey) = s.loop.previousCycleFailed := by
      rw [← current_changes, h.poll, current_changes, h.failing]
    rw [hupcoming, (upcoming_pollReports _ _ _).1, (upcoming_alarmReports _ _).1, List.append_nil,
      hhistory, failed_concat, hpublish, changes_concat, ← h.failing, ← h.poll]
    by_cases hnothing : success = true ∧ (!s.loop.previousCycleFailed) = true
    · -- polling goes on to succeed: nothing is said
      have hsame : (!success) = s.loop.previousCycleFailed := by
        rw [hnothing.1]
        exact (Bool.not_inj hnothing.2).symm
      rw [if_pos hnothing, if_pos hsame, List.append_nil]
    · rw [if_neg hnothing, changes_concat, hcurrent]
  · rw [hupcoming, (upcoming_pollReports _ _ _).2, (upcoming_alarmReports _ _).2, List.nil_append,
      hhistory, hafter, ← current_alarms, alarms_concat, current_concat, changes_concat, h.alarm,
      h.active, h.store, ← current_alarms]
    split_ifs
    · exact List.append_nil _
    · rfl

/-- A report that is passed on to the logger. -/
theorem Reported.tell_step (h : Reported options s) {report : Report} {rest : List Report}
    (hpending : s.pending = report :: rest) (monotonicNow utcNow : Nanoseconds)
    {order : List Bytes} (horder : order.Perm s.logger.throttle.keys) :
    Reported options
      ({ s with pending := rest }.perform (report.call monotonicNow utcNow) order) := by
  have hproper : ∀ report ∈ s.pending, ∀ monotonicNow utcNow,
      Proper (report.call monotonicNow utcNow) := h.pending
  rw [hpending, List.forall_mem_cons] at hproper
  have hsaid : ∀ key, ({ s with pending := rest }.perform (report.call monotonicNow utcNow)
      order).said key = s.said key := by
    intro key
    rw [Monitoring.said, Monitoring.said, hpending]
    exact said_report s.calls report rest
  refine ⟨h.logged horder (hproper.1 _ _), hproper.2, h.store, h.failing, h.active, ?_, ?_⟩
  · rw [hsaid]
    exact h.poll
  · rw [hsaid]
    exact h.alarm

/-- A call of another thread. -/
theorem Reported.log_step (h : Reported options s) {call : Call} {order : List Bytes}
    (hallowed : s.Allowed (.log call order)) : Reported options (s.perform call order) := by
  obtain ⟨horder, hpoll, halarm, hknown⟩ := hallowed
  have hsaid : ∀ key, call.key ≠ key → (s.perform call order).said key = s.said key := by
    intro key hkey
    show signal (callsOf key (s.calls ++ [call])) ++ _ = _
    rw [callsOf_concat, if_neg hkey]
    rfl
  have hproper : Proper call := by
    refine ⟨?_, ?_, fun h => absurd h halarm⟩
    · exact fun level event heq => ⟨hknown level event heq, fun h => absurd h hpoll⟩
    · exact fun level event heq => ⟨hknown level event heq, fun h => absurd h halarm⟩
  refine ⟨h.logged horder hproper, h.pending, h.store, h.failing, h.active, ?_, ?_⟩
  · rw [hsaid pollKey hpoll]
    exact h.poll
  · rw [hsaid alarmKey halarm]
    exact h.alarm

theorem Reported.step {a : Monitoring.Action} (h : Reported options s) (hallowed : s.Allowed a)
    (hstep : s.step a = some s') : Reported options s' := by
  cases a with
  | poll trace success lastError =>
    obtain ⟨acquisition, fuel, hran⟩ := hallowed
    obtain ⟨hpending, hpolled⟩ := Option.ite_none_right_eq_some.mp hstep
    obtain rfl := Option.some.inj hpolled
    exact h.poll_step hpending hran
  | tell monotonicNow utcNow order =>
    rw [Monitoring.step] at hstep
    split at hstep
    · cases hstep
    · next report rest hpending =>
      obtain rfl := Option.some.inj hstep
      exact h.tell_step hpending monotonicNow utcNow hallowed
  | log call order =>
    obtain rfl := Option.some.inj hstep
    exact h.log_step hallowed

theorem reported_start (options : Logging.Options) :
    Reported options { logger := { options := options } } :=
  ⟨.start, fun _ h => absurd h List.not_mem_nil, rfl, rfl, rfl, rfl, rfl⟩

theorem proper_calls {calls : List Call} {l : Logger}
    (h : LoggerRun options (fun _ _ _ => Proper) calls l) : ∀ call ∈ calls, Proper call := by
  induction h with
  | start => exact fun call h => absurd h List.not_mem_nil
  | call call order _ _ hcall ih =>
    exact List.forall_mem_append.mpr ⟨ih, List.forall_mem_singleton.mpr hcall⟩

/-- The logger of the program keeps a record for each of its events. -/
theorem attentive_default : Attentive {} knownKeys := ⟨by decide, by decide, by decide⟩

/-- **The log tells the outages.**  Whatever the cycles come to and whatever the other threads log
in between, with the reports that the loop is about to make: the entries about polling begin and end
with the failing cycles; an entry that the alarm is raised, and one that it is over, is there for
each time it is, and no other; and it is raised after three cycles, as the entry says. -/
theorem outages_reported (hroom : Attentive options knownKeys)
    (h : Steps Monitoring.step Monitoring.Allowed { logger := { options := options } } s) :
    s.store = storeAfter s.history ∧
      changes false (signal (callsOf pollKey s.logger.emittedCalls) ++ upcoming pollKey s.pending) =
        changes false (failed s.history) ∧
      signal (callsOf alarmKey s.logger.emittedCalls) ++ upcoming alarmKey s.pending =
        changes false (alarms s.history) ∧
      ∀ call ∈ s.logger.emittedCalls, call.key = alarmKey → call.begins = true →
        call.event.fields = [⟨ascii "consecutive_no_response", ascii "3"⟩] := by
  have hreported : Reported options s :=
    h.invariant (reported_start options) fun _ _ _ hinv hallowed hstep => hinv.step hallowed hstep
  have hpoll := outages_logged hroom (fun _ _ _ _ hproper => Proper.poll hproper) hreported.run
  have halarm := outages_logged hroom (fun _ _ _ _ hproper => Proper.alarm hproper) hreported.run
  refine ⟨hreported.store, ?_, ?_, ?_⟩
  · rw [← hreported.poll, Monitoring.said, changes_append, changes_append, hpoll.changes,
      hpoll.current]
  · -- the calls about the alarm all change what is said, so that none of them is without an entry
    have hsaid : changes false (s.said alarmKey) = s.said alarmKey := by
      rw [hreported.alarm, changes_changes]
    rw [← hreported.alarm, Monitoring.said,
      eq_of_sublist _ (changes_of_append hsaid) halarm.changes]
    exact (halarm.emitted.filter _).map _
  · intro call hcall
    exact (proper_calls hreported.run call (halarm.emitted.subset hcall)).three

end Account

/-- A port that cannot be written to. -/
def unplugged : Answers
  | n, .now => if n < 6 then 0 else milliseconds 6000
  | _, .writeAll _ => false
  | _, .readSome _ _ => ⟨true, [], Nat.zero_le _⟩
  | _, .sleepFor _ => ()
  | _, .publish _ _ _ => ()
  | _, .recordFailure _ _ _ => ()

theorem pollOnce_unplugged : (pollOnce {} 1).Exec
    ((pollOnce {} 1).traceIn (.replay unplugged) 0)
    (.returned false (ascii "unable to write Modbus request")) := by
  have hran := Prog.exec_evalIn (.replay unplugged) (pollOnce {} 1) 0
  have hplan : pd1000RequestPlan 1 = plannedRequest 1 0 :: planFrom 1 1 30 := by
    rw [pd1000RequestPlan_eq, kPd1000RequestCount, planFrom_succ]
  have hresult : ((pollOnce {} 1).evalIn (.replay unplugged) 0).1 =
      .returned false (ascii "unable to write Modbus request") := by
    rw [pollOnce, evalIn_readClock, Prog.evalIn_bind, hplan, pollBlocks, Prog.evalIn_bind]
    rfl
  rw [hresult] at hran
  exact hran

/-- The first cycle fails on such a port, and the loop says so. -/
theorem outages_reported_unplugged : ∃ s : Monitoring, failed s.history = [true] ∧
    s.calls.length = 1 ∧
    changes false (signal (callsOf pollKey s.logger.emittedCalls) ++ upcoming pollKey s.pending) =
      changes false (failed s.history) := by
  have hpolled : Steps Monitoring.step Monitoring.Allowed { logger := { options := {} } }
      (Monitoring.poll { logger := { options := {} } }
        ((pollOnce {} 1).traceIn (.replay unplugged) 0) false
        (ascii "unable to write Modbus request")) :=
    .next .start (show Monitoring.Allowed _ (.poll _ _ _) from ⟨{}, 1, pollOnce_unplugged⟩)
      (Monitoring.step_poll rfl _ _ _)
  have htold := Steps.next hpolled
    (show Monitoring.Allowed _ (.tell 0 0 []) from List.Perm.refl _) rfl
  obtain ⟨call, hcalls, hpublish, -⟩ := pollOnce_storeCall pollOnce_unplugged
  refine ⟨_, ?_, ?_, (outages_reported attentive_default htold).2.1⟩
  · show failed ([] ++ List.filterMap storeCall? _) = _
    rw [hcalls, failed, List.nil_append, List.map_singleton, hpublish]
    rfl
  · rfl

end Uhf.App
