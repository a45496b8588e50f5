/-
What the clients of the IEC 61850 server read.

The poller reports to the snapshot store, the update thread looks at it and writes the attributes
when they have changed, and the server is started, stopped and moved to another address, in any
order.  Between its look and its write the store may have moved on.

* `latest_append` — a snapshot with the same generation is the same snapshot;
* `alike_unchanged` — what the update loop does not write again would be written the same;
* `published_by_iterations` — at every moment at which clients can connect, the attributes are
  those of the last iteration's view, or invalid if there has been no iteration since the start.
-/
import UhfGateway.Acquisition.StoreHistory
import UhfGateway.Iec61850.Server

namespace Uhf.Iec61850

open Domain Acquisition Storage Storage.EventDetector Effects

/-! ### One snapshot a generation -/

section Generations

variable {history later : List StoreCall} {snapshot snapshot' : PublishedSnapshot}

/-- The newest snapshot is numbered by the publications so far. -/
theorem generation_latest (h : (storeAfter history).latest = some snapshot) :
    snapshot.generation = UInt64.ofNat (publishes history) := by
  have hsome : publishes history ≠ 0 := isSome_latest.mp (by rw [h]; rfl)
  obtain ⟨before, payload, startedAt, completedAt, hlast⟩ := exists_lastPublish hsome
  have hlatest := storeAfter_latest hlast
  obtain @⟨before, failures, payload, startedAt, completedAt, later⟩ := hlast
  have hcount : publishes (before ++ .publish payload startedAt completedAt :: failures) =
      publishes before + 1 := by
    rw [publishes, List.countP_append, List.countP_cons_of_pos rfl]
    rw [publishes] at later ⊢
    omega
  rw [h, Option.some.injEq] at hlatest
  rw [hlatest, hcount]

/-- Failures leave the snapshot as it is. -/
theorem latest_append_failures (h : publishes later = 0) :
    (storeAfter (history ++ later)).latest = (storeAfter history).latest := by
  induction later using List.reverseRecOn with
  | nil => rw [List.append_nil]
  | append_singleton later call ih =>
    rw [publishes_append] at h
    rw [← List.append_assoc, storeAfter_append]
    cases call with
    | publish payload startedAt completedAt => simp [StoreCall.isPublish] at h
    | recordFailure failure => exact ih (by omega)

theorem publishes_eq_add : publishes (history ++ later) = publishes history + publishes later :=
  List.countP_append

/-- A later snapshot that is not of a newer generation is the same one. -/
theorem latest_append (hfew : publishes (history ++ later) < 2 ^ 64)
    (h : (storeAfter history).latest = some snapshot)
    (h' : (storeAfter (history ++ later)).latest = some snapshot')
    (hold : ¬ snapshot.generation < snapshot'.generation) : snapshot' = snapshot := by
  have hnone : publishes later = 0 := by
    rw [generation_latest h, generation_latest h', UInt64.lt_iff_toNat_lt, UInt64.toNat_ofNat',
      UInt64.toNat_ofNat'] at hold
    rw [publishes_eq_add] at hfew hold
    rw [Nat.mod_eq_of_lt hfew, Nat.mod_eq_of_lt (by omega)] at hold
    omega
  rw [latest_append_failures hnone, h] at h'
  exact (Option.some.inj h').symm

end Generations

/-! ### Views that are written alike -/

/-- Two views that differ in nothing that is written. -/
structure Alike (view view' : ServingView) : Prop where
  snapshot : view'.snapshot = view.snapshot
  availability : view'.status.availability = view.status.availability
  communicationAlarm : view'.status.communicationAlarm = view.status.communicationAlarm

namespace Alike

variable {view view' : ServingView}

theorem publishView (h : Alike view view') (alarmActive : Bool) (timestampMs : UInt64) :
    publishView view' alarmActive timestampMs = publishView view alarmActive timestampMs := by
  unfold Iec61850.publishView
  rw [h.snapshot]
  cases view.snapshot with
  | none => rw [h.communicationAlarm]
  | some snapshot => simp only [publishSnapshot, h.availability, h.communicationAlarm]

theorem peakAlarm (h : Alike view view') : peakAlarm view' = peakAlarm view := by
  rw [Iec61850.peakAlarm, Iec61850.peakAlarm, h.snapshot]

theorem written (h : Alike view view') : UpdateLoop.written view' = .written view := by
  simp only [UpdateLoop.written, h.snapshot, h.availability, h.communicationAlarm]

end Alike

/-- **What the update loop does not write again is as it was written**: the store has moved on
from one view to the other, and the loop takes them for the same. -/
theorem alike_unchanged {history later : List StoreCall}
    (hfew : publishes (history ++ later) < 2 ^ 64)
    (h : (UpdateLoop.written (storeAfter history).servingView).changed
      (storeAfter (history ++ later)).servingView = false) :
    Alike (storeAfter history).servingView (storeAfter (history ++ later)).servingView := by
  simp only [UpdateLoop.changed, UpdateLoop.written, Bool.or_eq_false_iff] at h
  obtain ⟨⟨⟨hstatus, hpresence⟩, hgeneration⟩, hraised⟩ := h
  have havailability := Option.some.inj (not_not.mp (of_decide_eq_false hstatus))
  have halarm := not_not.mp (of_decide_eq_false hraised)
  refine ⟨?_, havailability.symm, halarm⟩
  show (storeAfter (history ++ later)).latest = (storeAfter history).latest
  have hhas : (storeAfter (history ++ later)).latest.isSome =
      (storeAfter history).latest.isSome := not_not.mp (of_decide_eq_false hpresence)
  cases hlatest : (storeAfter history).latest with
  | none =>
    rw [hlatest, Option.isSome_none, Option.isSome_eq_false_iff, Option.isNone_iff_eq_none] at hhas
    exact hhas
  | some snapshot =>
    rw [hlatest, Option.isSome_some] at hhas
    obtain ⟨snapshot', hlatest'⟩ := Option.isSome_iff_exists.mp hhas
    replace hgeneration : ((storeAfter (history ++ later)).latest.any fun snapshot' =>
        (((storeAfter history).latest.map PublishedSnapshot.generation).getD 0) <
          snapshot'.generation) = false := hgeneration
    rw [hlatest, hlatest'] at hgeneration
    rw [hlatest', latest_append hfew hlatest hlatest' (of_decide_eq_false hgeneration)]

/-! ### The server and its surroundings -/

/-- The calls that take the server's lifecycle mutex. -/
inductive LifecycleCall
  | start
  | stop
  | updateEndpoint (bindAddress : Bytes) (port : UInt16)

/-- The call ends the update thread and waits for it. -/
def LifecycleCall.joins (server : Server) : LifecycleCall → Bool
  | start => false
  | stop => true
  | updateEndpoint bindAddress port =>
    server.running && !decide (server.bindAddress = bindAddress ∧ server.port = port)

def LifecycleCall.run (server : Server) (launch relaunch : Launch) : LifecycleCall → Server
  | start => (server.startLocked launch).1
  | stop => server.stopLocked
  | updateEndpoint bindAddress port =>
    (server.updateEndpoint bindAddress port launch relaunch).1

structure Publication where
  /-- The calls of the poller so far. -/
  history : List StoreCall := []
  server : Server
  /-- The view of the update thread's present iteration. -/
  updateView : Option ServingView := none
  /-- The call that holds the lifecycle mutex. -/
  pending : Option LifecycleCall := none
  /-- How much of the history the present iteration has seen. -/
  lookedAt : ℕ := 0
  /-- How much of it the last finished iteration had seen, since the last start. -/
  seen : Option ℕ := none

inductive PublicationAction
  | store (call : StoreCall)
  | updateLook
  | updateWrite (alarmActive : Bool) (timestampMs : UInt64)
  | request (call : LifecycleCall)
  | finish (launch relaunch : Launch)

namespace Publication

/-- The rest of an iteration; the alarm provider is asked if there is one. -/
def updateWrite (s : Publication) (view : ServingView) (alarmActive : Bool)
    (timestampMs : UInt64) : Publication :=
  let loop := s.server.updateLoop.getD {}
  let active := if s.server.hasAlarmProvider then alarmActive else peakAlarm view
  { s with
    updateView := none
    seen := some s.lookedAt
    server :=
      if loop.changed view then
        { s.server with
          updateLoop := some (.written view)
          attributes := some (publishView view active timestampMs) }
      else s.server }

def finish (s : Publication) (call : LifecycleCall) (launch relaunch : Launch) : Publication :=
  { s with
    pending := none
    server := call.run s.server launch relaunch
    seen := if call.joins s.server || !s.server.running then none else s.seen }

/-- What an action does, if it is its turn: an iteration only begins while no stop is requested,
and a call that joins the update thread waits for the end of the iteration. -/
def step (s : Publication) : PublicationAction → Option Publication
  | .store call => some { s with history := s.history ++ [call] }
  | .updateLook =>
    if s.server.updateLoop.isSome ∧ s.updateView.isNone ∧ s.server.stopRequested = false then
      some { s with
        updateView := some (storeAfter s.history).servingView
        lookedAt := s.history.length }
    else none
  | .updateWrite alarmActive timestampMs =>
    s.updateView.map fun view => s.updateWrite view alarmActive timestampMs
  | .request call =>
    if s.pending.isSome then none
    else
      some { s with
        pending := some call
        server :=
          if call.joins s.server then { s.server with stopRequested := true } else s.server }
  | .finish launch relaunch =>
    s.pending.bind fun call =>
      if call.joins s.server ∧ s.updateView.isSome then none
      else some (s.finish call launch relaunch)

/-- What the store served after the first `n` calls. -/
def viewAt (s : Publication) (n : ℕ) : ServingView := (storeAfter (s.history.take n)).servingView

/-- The attributes are those of the view after the first `n` calls, and the loop knows it. -/
structure Shows (s : Publication) (n : ℕ) : Prop where
  loop : s.server.updateLoop = some (.written (s.viewAt n))
  attributes : ∃ alarmActive timestampMs,
    s.server.attributes = some (publishView (s.viewAt n) alarmActive timestampMs) ∧
      (s.server.hasAlarmProvider = false → alarmActive = peakAlarm (s.viewAt n))

/-- No iteration has come to its end since the start. -/
structure Unwritten (s : Publication) : Prop where
  loop : s.server.updateLoop = some {}
  attributes : ∃ timestampMs, s.server.attributes = some (publishInvalidValues false timestampMs)

structure Consistent (s : Publication) : Prop where
  whole : s.server.Whole
  looked : ∀ view, s.updateView = some view → s.server.running = true ∧
    s.lookedAt ≤ s.history.length ∧ view = s.viewAt s.lookedAt ∧
      ∀ n, s.seen = some n → n ≤ s.lookedAt
  seen : ∀ n, s.seen = some n → n ≤ s.history.length
  shown : s.server.running = true → (s.seen = none → s.Unwritten) ∧
    ∀ n, s.seen = some n → s.Shows n

variable {s s' : Publication}

/-- A further call leaves what has been seen. -/
theorem viewAt_store {n : ℕ} (h : n ≤ s.history.length) (call : StoreCall) :
    viewAt { s with history := s.history ++ [call] } n = s.viewAt n := by
  rw [viewAt, viewAt, List.take_append_of_le_length h]

theorem Consistent.store (h : s.Consistent) (call : StoreCall) :
    Consistent { s with history := s.history ++ [call] } := by
  refine ⟨h.whole, ?_, ?_, ?_⟩
  · intro view hview
    obtain ⟨hrunning, hlooked, heq, hseen⟩ := h.looked view hview
    refine ⟨hrunning, ?_, ?_, hseen⟩
    · rw [List.length_append]
      exact Nat.le_add_right_of_le hlooked
    · rw [viewAt_store hlooked]
      exact heq
  · intro n hn
    rw [List.length_append]
    exact Nat.le_add_right_of_le (h.seen n hn)
  · intro hrunning
    obtain ⟨hnone, hsome⟩ := h.shown hrunning
    refine ⟨fun hseen => ⟨(hnone hseen).loop, (hnone hseen).attributes⟩, ?_⟩
    intro n hn
    have hview := viewAt_store (h.seen n hn) call
    obtain ⟨hloop, hattributes⟩ := hsome n hn
    rw [← hview] at hloop hattributes
    exact ⟨hloop, hattributes⟩

theorem Consistent.look (h : s.Consistent) (hworker : s.server.updateLoop.isSome = true) :
    Consistent { s with
      updateView := some (storeAfter s.history).servingView
      lookedAt := s.history.length } := by
  refine ⟨h.whole, ?_, h.seen, ?_⟩
  · rintro view ⟨⟩
    refine ⟨h.whole.updateLoop ▸ hworker, Nat.le_refl _, ?_, h.seen⟩
    rw [viewAt, List.take_length]
  · intro hrunning
    obtain ⟨hnone, hsome⟩ := h.shown hrunning
    exact ⟨fun hseen => ⟨(hnone hseen).loop, (hnone hseen).attributes⟩,
      fun n hn => ⟨(hsome n hn).loop, (hsome n hn).attributes⟩⟩

/-- **One iteration**: whether it writes or not, the attributes are then those of its view. -/
theorem Consistent.updateWrite (h : s.Consistent) {view : ServingView}
    (hview : s.updateView = some view) (hfew : publishes s.history < 2 ^ 64) (alarmActive : Bool)
    (timestampMs : UInt64) : (s.updateWrite view alarmActive timestampMs).Consistent := by
  obtain ⟨hrunning, hlooked, rfl, hseen⟩ := h.looked view hview
  obtain ⟨hnone, hsome⟩ := h.shown hrunning
  rw [Publication.updateWrite]
  by_cases hchanged : (s.server.updateLoop.getD {}).changed (s.viewAt s.lookedAt) = true
  · rw [if_pos hchanged]
    refine ⟨⟨h.whole.listening, hrunning.symm⟩, ?_, ?_, ?_⟩
    · rintro view ⟨⟩
    · rintro n ⟨⟩
      exact hlooked
    · intro _
      refine ⟨by rintro ⟨⟩, ?_⟩
      rintro n ⟨⟩
      refine ⟨rfl, _, _, rfl, ?_⟩
      intro hprovider
      replace hprovider : s.server.hasAlarmProvider = false := hprovider
      rw [if_neg (by rw [hprovider]; exact Bool.false_ne_true)]
      rfl
  · rw [if_neg hchanged]
    rw [Bool.not_eq_true] at hchanged
    -- an iteration that writes nothing has had one before it
    obtain ⟨n, hn⟩ : ∃ n, s.seen = some n := by
      cases hseen : s.seen with
      | some n => exact ⟨n, rfl⟩
      | none =>
        rw [(hnone hseen).loop] at hchanged
        simp [UpdateLoop.changed] at hchanged
    obtain ⟨hloop, active, writtenMs, hattributes, hpeak⟩ := hsome n hn
    have hn' := hseen n hn
    -- and the store has moved on from the one view to the other without a new snapshot
    obtain ⟨later, hlater⟩ : ∃ later, s.history.take s.lookedAt = s.history.take n ++ later := by
      refine ⟨(s.history.take s.lookedAt).drop n, ?_⟩
      have hsplit := List.take_append_drop n (s.history.take s.lookedAt)
      rw [List.take_take, Nat.min_eq_left hn'] at hsplit
      exact hsplit.symm
    have halike : Alike (s.viewAt n) (s.viewAt s.lookedAt) := by
      rw [hloop] at hchanged
      unfold viewAt at hchanged ⊢
      rw [hlater] at hchanged ⊢
      refine alike_unchanged ?_ hchanged
      rw [← hlater]
      exact Nat.lt_of_le_of_lt (List.Sublist.countP_le (List.take_sublist _ _)) hfew
    refine ⟨h.whole, ?_, ?_, ?_⟩
    · rintro view ⟨⟩
    · rintro n ⟨⟩
      exact hlooked
    · intro _
      refine ⟨by rintro ⟨⟩, ?_⟩
      rintro n ⟨⟩
      refine ⟨hloop.trans (congrArg some halike.written.symm), active, writtenMs, ?_, ?_⟩
      · exact hattributes.trans (congrArg some (halike.publishView active writtenMs).symm)
      · intro hprovider
        exact (hpeak hprovider).trans halike.peakAlarm.symm

/-- A server that has just been started. -/
structure Started (server : Server) : Prop where
  running : server.running = true
  loop : server.updateLoop = some {}
  attributes : ∃ timestampMs, server.attributes = some (publishInvalidValues false timestampMs)

theorem startLocked_idle {server : Server} (h : server.running = false) (launch : Launch) :
    (server.startLocked launch).1.running = false ∨ Started (server.startLocked launch).1 := by
  cases hbound : launch.bound with
  | true =>
    rw [Server.startLocked_bound h hbound]
    exact .inr ⟨rfl, rfl, _, rfl⟩
  | false =>
    rw [Server.startLocked_unbound h hbound]
    exact .inl h

/-- A call of the lifecycle leaves the server that was there, or it first sees to it that there
is none running any more, and then starts one or none. -/
theorem run_cases (call : LifecycleCall) (server : Server) (launch relaunch : Launch) :
    (call.run server launch relaunch = server ∧ call.joins server = false) ∨
      ((call.joins server = true ∨ server.running = false) ∧
        ((call.run server launch relaunch).running = false ∨
          Started (call.run server launch relaunch))) := by
  cases call with
  | start =>
    cases hrunning : server.running with
    | true => exact .inl ⟨congrArg Prod.fst (Server.startLocked_running hrunning launch), rfl⟩
    | false => exact .inr ⟨.inr rfl, startLocked_idle hrunning launch⟩
  | stop => exact .inr ⟨.inl rfl, .inl rfl⟩
  | updateEndpoint bindAddress port =>
    have hrun : (LifecycleCall.updateEndpoint bindAddress port).run server launch relaunch =
        (server.updateEndpoint bindAddress port launch relaunch).1 := rfl
    rw [hrun]
    by_cases hsame : server.bindAddress = bindAddress ∧ server.port = port
    · rw [Server.updateEndpoint_same hsame]
      refine .inl ⟨rfl, ?_⟩
      rw [LifecycleCall.joins, decide_eq_true hsame, Bool.not_true, Bool.and_false]
    cases hrunning : server.running with
    | false =>
      rw [Server.updateEndpoint_idle hsame hrunning]
      exact .inr ⟨.inr rfl, .inl hrunning⟩
    | true =>
      have hjoins : (LifecycleCall.updateEndpoint bindAddress port).joins server = true := by
        rw [LifecycleCall.joins, hrunning, decide_eq_false hsame]
        rfl
      rw [Server.updateEndpoint_running hsame hrunning]
      refine .inr ⟨.inl hjoins, ?_⟩
      split_ifs with hbound
      · have hmoved : ({ server.stopLocked with
          bindAddress := bindAddress, port := port } : Server).running = false := rfl
        exact startLocked_idle hmoved launch
      · have hstopped : server.stopLocked.running = false := rfl
        exact startLocked_idle hstopped relaunch

theorem whole_run {server : Server} (h : server.Whole) (call : LifecycleCall)
    (launch relaunch : Launch) : (call.run server launch relaunch).Whole := by
  cases call with
  | start => exact h.startLocked launch
  | stop => exact Server.whole_stopLocked server
  | updateEndpoint bindAddress port => exact h.updateEndpoint bindAddress port launch relaunch

theorem Consistent.request (h : s.Consistent) (call : LifecycleCall) (stopRequested : Bool) :
    Consistent { s with
      pending := some call
      server := { s.server with stopRequested := stopRequested } } := by
  refine ⟨⟨h.whole.listening, h.whole.updateLoop⟩, h.looked, h.seen, ?_⟩
  intro hrunning
  obtain ⟨hnone, hsome⟩ := h.shown hrunning
  exact ⟨fun hseen => ⟨(hnone hseen).loop, (hnone hseen).attributes⟩,
    fun n hn => ⟨(hsome n hn).loop, (hsome n hn).attributes⟩⟩

theorem Consistent.finish (h : s.Consistent) {call : LifecycleCall}
    (hjoined : ¬ (call.joins s.server ∧ s.updateView.isSome)) (launch relaunch : Launch) :
    (s.finish call launch relaunch).Consistent := by
  have hwhole := whole_run h.whole call launch relaunch
  rw [Publication.finish]
  -- a call that waits for the update thread, or finds none, finds no view either
  have hview : call.joins s.server = true ∨ s.server.running = false → s.updateView = none := by
    intro hover
    cases hview : s.updateView with
    | none => rfl
    | some view =>
      rcases hover with hjoins | hstopped
      · exact absurd ⟨hjoins, by rw [hview]; rfl⟩ hjoined
      · rw [(h.looked view hview).1] at hstopped
        cases hstopped
  rcases run_cases call s.server launch relaunch with ⟨hsame, hjoins⟩ | ⟨hover, hnew⟩
  · rw [hsame, hjoins, Bool.false_or]
    cases hrunning : s.server.running with
    | true =>
      obtain ⟨hnone, hsome⟩ := h.shown hrunning
      exact ⟨h.whole, h.looked, h.seen,
        fun _ => ⟨fun hseen => ⟨(hnone hseen).loop, (hnone hseen).attributes⟩,
          fun n hn => ⟨(hsome n hn).loop, (hsome n hn).attributes⟩⟩⟩
    | false =>
      refine ⟨h.whole, ?_, by rintro n ⟨⟩, ?_⟩
      · intro view hview'
        rw [hview (.inr hrunning)] at hview'
        cases hview'
      · intro hrunning'
        rw [show s.server.running = true from hrunning'] at hrunning
        cases hrunning
  · have hseen : (call.joins s.server || !s.server.running) = true := by
      rcases hover with hjoins | hstopped
      · rw [hjoins, Bool.true_or]
      · rw [hstopped, Bool.not_false, Bool.or_true]
    rw [if_pos hseen]
    refine ⟨hwhole, ?_, by rintro n ⟨⟩, ?_⟩
    · intro view hview'
      rw [hview hover] at hview'
      cases hview'
    · intro hrunning
      rcases hnew with hstopped | hstarted
      · rw [show (call.run s.server launch relaunch).running = true from hrunning] at hstopped
        cases hstopped
      · exact ⟨fun _ => ⟨hstarted.loop, hstarted.attributes⟩, by rintro n ⟨⟩⟩

/-- One action of any of the parties. -/
theorem Consistent.step (h : s.Consistent) {action : PublicationAction}
    (hs : s.step action = some s') (hfew : publishes s'.history < 2 ^ 64) : s'.Consistent := by
  cases action with
  | store call =>
    cases hs
    exact h.store call
  | updateLook =>
    obtain ⟨hturn, heq⟩ := Option.ite_none_right_eq_some.mp hs
    cases heq
    exact h.look hturn.1
  | updateWrite alarmActive timestampMs =>
    obtain ⟨view, hview, rfl⟩ := Option.map_eq_some_iff.mp hs
    exact h.updateWrite hview hfew alarmActive timestampMs
  | request call =>
    obtain ⟨-, heq⟩ := Option.ite_none_left_eq_some.mp hs
    cases heq
    split_ifs with hjoins
    · exact h.request call true
    · exact h.request call s.server.stopRequested
  | finish launch relaunch =>
    obtain ⟨call, -, hs⟩ := Option.bind_eq_some_iff.mp hs
    obtain ⟨hjoined, heq⟩ := Option.ite_none_left_eq_some.mp hs
    cases heq
    exact h.finish hjoined launch relaunch

/-- The history only grows. -/
theorem publishes_step {action : PublicationAction} (hs : s.step action = some s') :
    publishes s.history ≤ publishes s'.history := by
  cases action with
  | store call =>
    cases hs
    rw [publishes_append]
    exact Nat.le_add_right _ _
  | updateLook =>
    obtain ⟨-, heq⟩ := Option.ite_none_right_eq_some.mp hs
    cases heq
    exact Nat.le_refl _
  | updateWrite alarmActive timestampMs =>
    obtain ⟨view, -, rfl⟩ := Option.map_eq_some_iff.mp hs
    exact Nat.le_refl _
  | request call =>
    obtain ⟨-, heq⟩ := Option.ite_none_left_eq_some.mp hs
    cases heq
    exact Nat.le_refl _
  | finish launch relaunch =>
    obtain ⟨call, -, hs⟩ := Option.bind_eq_some_iff.mp hs
    obtain ⟨-, heq⟩ := Option.ite_none_left_eq_some.mp hs
    cases heq
    exact Nat.le_refl _

/-- A server that has not been started, and a store without history. -/
theorem consistent_start {server : Server} (hwhole : server.Whole)
    (hstopped : server.running = false) : Consistent { server := server } := by
  refine ⟨hwhole, by rintro view ⟨⟩, by rintro n ⟨⟩, ?_⟩
  intro hrunning
  rw [show server.running = true from hrunning] at hstopped
  cases hstopped

/-- The states of the server and its surroundings. -/
abbrev Reached (server : Server) (s : Publication) : Prop :=
  Steps Publication.step (fun _ _ => True) { server := server } s

theorem Reached.consistent {server : Server} (hwhole : server.Whole)
    (hstopped : server.running = false) (h : Reached server s)
    (hfew : publishes s.history < 2 ^ 64) : s.Consistent := by
  have hstart : publishes [] < 2 ^ 64 → Consistent { server := server } :=
    fun _ => consistent_start hwhole hstopped
  have hkept : ∀ s action s', (publishes s.history < 2 ^ 64 → Consistent s) → True →
      step s action = some s' → publishes s'.history < 2 ^ 64 → Consistent s' := by
    intro s action s' ih _ hstep hfew
    exact (ih (Nat.lt_of_le_of_lt (publishes_step hstep) hfew)).step hstep hfew
  exact Steps.invariant hstart hkept h hfew

/-- A server that has not been started yet. -/
def freshServer : Server where
  bindAddress := ascii "127.0.0.1"
  port := 102
  modelDefinition := {}
  hasAlarmProvider := false

end Publication

end Uhf.Iec61850
