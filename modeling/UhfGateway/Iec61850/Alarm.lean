/-
The alarm of the IEC 61850 server (`iec61850/server`, `storage/persistence_runtime`).

Three threads share a snapshot store.  The poller publishes snapshots and records
failures; the persistence worker shows every new snapshot to the event detector and
stores whether the detector is disarmed; `Server::update_loop` writes the attributes of
the model when the view of the store has changed, and asks the worker for the alarm.

* `alarm_follows_detector` — if the alarm is only asked for once the worker has seen the
  snapshot, the attribute shows what the detector says;
* `alarm_missed` — otherwise a changed alarm may never be written.
-/
import UhfGateway.Effects.Transition
import UhfGateway.Storage.DetectedBundles

namespace Uhf.Iec61850

open Domain Acquisition Storage Storage.EventDetector Effects

/-! ### The update loop -/

/-- The local variables of `update_loop`. -/
structure UpdateLoop where
  lastGeneration : UInt64 := 0
  lastAvailability : Option Availability := none
  lastHasSnapshot : Bool := false
  lastCommunicationAlarm : Bool := false

namespace UpdateLoop

/-- The view differs from the one written last. -/
def changed (loop : UpdateLoop) (view : ServingView) : Bool :=
  let statusChanged := decide (loop.lastAvailability ≠ some view.status.availability)
  let generationChanged := view.snapshot.any fun snapshot => loop.lastGeneration < snapshot.generation
  let communicationAlarmChanged :=
    decide (view.status.communicationAlarm ≠ loop.lastCommunicationAlarm)
  statusChanged || decide (view.snapshot.isSome ≠ loop.lastHasSnapshot) || generationChanged ||
    communicationAlarmChanged

/-- The view that has just been written. -/
def written (view : ServingView) : UpdateLoop where
  lastGeneration := (view.snapshot.map PublishedSnapshot.generation).getD 0
  lastAvailability := some view.status.availability
  lastHasSnapshot := view.snapshot.isSome
  lastCommunicationAlarm := view.status.communicationAlarm

end UpdateLoop

/-- The quality of the alarm is good. -/
def alarmValid (availability : Availability) (snapshot : PublishedSnapshot) : Bool :=
  availability ≠ .invalid && (peakMeasurement snapshot).valid &&
    snapshot.payload.payloadStatus ≠ .notRefreshed

/-- The worker is asked for the alarm. -/
def consulted (availability : Availability) (snapshot : PublishedSnapshot) : Bool :=
  availability = .fresh && alarmValid availability snapshot

/-- The value `publish_snapshot` writes to the alarm, and `publish_invalid_values` without a
snapshot. -/
def alarmValue (view : ServingView) (alarmActive : Bool) : Bool :=
  view.snapshot.any fun snapshot => consulted view.status.availability snapshot && alarmActive

/-! ### The threads -/

structure AlarmPath where
  store : SnapshotStore := {}
  detector : EventDetector := {}
  /-- `last_generation` of the worker. -/
  workerGeneration : UInt64 := 0
  /-- The view of the worker's present iteration. -/
  workerView : Option ServingView := none
  alarmActive : Bool := false
  updateLoop : UpdateLoop := {}
  /-- The view of the update loop's present iteration. -/
  updateView : Option ServingView := none
  paDschAlm : Bool := false

inductive Action
  | publish (payload : ParsedSnapshot) (startedAt completedAt : Nanoseconds)
  | recordFailure (attemptedAt : Nanoseconds) (error : Bytes) (reason : FailureReason)
  | updateOptions (options : EventOptions)
  | workerLook
  | workerObserve (now nowUtc : Nanoseconds)
  | updateLook
  | updateWrite

namespace AlarmPath

/-- The rest of a worker's iteration: a new generation is observed before the alarm is
stored, and completed events are taken in any case. -/
def workerObserve (s : AlarmPath) (view : ServingView) (now nowUtc : Nanoseconds) : AlarmPath :=
  let s := { s with workerView := none }
  let s := match view.snapshot with
    | some snapshot =>
      if snapshot.generation ≠ 0 ∧ s.workerGeneration < snapshot.generation then
        let detector := s.detector.observe snapshot now (view.status.availability = Availability.fresh)
          nowUtc
        { s with
          workerGeneration := snapshot.generation
          detector := detector
          alarmActive := !detector.strongArmed }
      else s
    | none => s
  { s with detector := (s.detector.advance now).1 }

/-- The rest of an iteration of the update loop. -/
def updateWrite (s : AlarmPath) (view : ServingView) : AlarmPath :=
  if s.updateLoop.changed view then
    { s with
      updateView := none
      updateLoop := .written view
      paDschAlm := alarmValue view s.alarmActive }
  else { s with updateView := none }

/-- What an action of one of the threads does, if it is its turn. -/
def step (s : AlarmPath) : Action → Option AlarmPath
  | .publish payload startedAt completedAt =>
    some { s with store := s.store.publish payload startedAt completedAt }
  | .recordFailure attemptedAt error reason =>
    some { s with store := s.store.recordFailure attemptedAt error reason }
  | .updateOptions options =>
    if s.workerView.isNone then some { s with detector := s.detector.updateOptions options } else none
  | .workerLook =>
    if s.workerView.isNone then some { s with workerView := some s.store.servingView } else none
  | .workerObserve now nowUtc => s.workerView.map fun view => s.workerObserve view now nowUtc
  | .updateLook =>
    if s.updateView.isNone then some { s with updateView := some s.store.servingView } else none
  | .updateWrite => s.updateView.map s.updateWrite

/-- The poller does nothing. -/
def Quiet (_ : AlarmPath) : Action → Prop
  | .publish .. => False
  | .recordFailure .. => False
  | _ => True

/-- The worker is asked for the alarm of a snapshot only after it has seen it; and the
generations do not start again. -/
def Orderly (s : AlarmPath) : Action → Prop
  | .publish .. => s.store.nextGeneration ≠ 0
  | .updateWrite => ∀ view snapshot, s.updateView = some view → s.updateLoop.changed view = true →
      view.snapshot = some snapshot → consulted view.status.availability snapshot = true →
        snapshot.generation ≤ s.workerGeneration
  | _ => True

/-! ### What the threads know of each other -/

/-- The newest generation, zero before the first. -/
def latestGeneration (store : SnapshotStore) : UInt64 :=
  (store.latest.map PublishedSnapshot.generation).getD 0

/-- A view of an earlier state of the store: its snapshot is the newest one, or older. -/
def Past (store : SnapshotStore) (view : ServingView) : Prop :=
  ∀ snapshot, view.snapshot = some snapshot → ∃ latest, store.latest = some latest ∧
    (snapshot = latest ∨ snapshot.generation < latest.generation)

structure Consistent (s : AlarmPath) : Prop where
  next : s.store.nextGeneration = latestGeneration s.store + 1
  worker : s.workerGeneration ≤ latestGeneration s.store
  loop : s.updateLoop.lastGeneration ≤ latestGeneration s.store
  held : ∀ view, s.workerView = some view ∨ s.updateView = some view → Past s.store view
  armed : s.alarmActive = !s.detector.strongArmed
  /-- While the newest snapshot is the one written last, the attribute shows the alarm. -/
  shown : ∀ latest, s.store.latest = some latest → s.updateLoop.lastHasSnapshot = true →
    s.updateLoop.lastGeneration = latest.generation →
      ∃ availability, s.updateLoop.lastAvailability = some availability ∧
        s.paDschAlm = (consulted availability latest && s.alarmActive) ∧
        (consulted availability latest = true → s.workerGeneration = latest.generation)

variable {s s' : AlarmPath}

theorem latestGeneration_some {store : SnapshotStore} {latest : PublishedSnapshot}
    (h : store.latest = some latest) : latestGeneration store = latest.generation := by
  rw [latestGeneration, h]
  rfl

theorem lt_add_one {generation : UInt64} (h : generation + 1 ≠ 0) : generation < generation + 1 := by
  have hlast : generation.toNat + 1 ≠ 2 ^ 64 := by
    intro hlast
    apply h
    rw [← UInt64.toNat_inj, UInt64.toNat_add, UInt64.toNat_one, hlast]
    rfl
  have hless := generation.toNat_lt
  rw [UInt64.lt_iff_toNat_lt, UInt64.toNat_add, UInt64.toNat_one, Nat.mod_eq_of_lt (by omega)]
  exact Nat.lt_succ_self _

theorem past_servingView (store : SnapshotStore) : Past store store.servingView :=
  fun snapshot hsnapshot => ⟨snapshot, hsnapshot, .inl rfl⟩

theorem Past.generation_le {store : SnapshotStore} {view : ServingView} {snapshot : PublishedSnapshot}
    (h : Past store view) (hsnapshot : view.snapshot = some snapshot) :
    snapshot.generation ≤ latestGeneration store := by
  obtain ⟨latest, hlatest, rfl | hless⟩ := h snapshot hsnapshot
  · rw [latestGeneration_some hlatest]
    exact UInt64.le_refl _
  · rw [latestGeneration_some hlatest]
    exact UInt64.le_of_lt hless

theorem Consistent.publish (h : Consistent s) (payload : ParsedSnapshot)
    (startedAt completedAt : Nanoseconds) (hnext : s.store.nextGeneration ≠ 0) :
    Consistent { s with store := s.store.publish payload startedAt completedAt } := by
  have hlatest : latestGeneration (s.store.publish payload startedAt completedAt) =
      s.store.nextGeneration := rfl
  have hless : latestGeneration s.store < s.store.nextGeneration := by
    rw [h.next]
    exact lt_add_one (h.next ▸ hnext)
  refine ⟨rfl, ?_, ?_, ?_, h.armed, ?_⟩
  · exact UInt64.le_of_lt (UInt64.lt_of_le_of_lt h.worker hless)
  · exact UInt64.le_of_lt (UInt64.lt_of_le_of_lt h.loop hless)
  · intro view hview snapshot hsnapshot
    refine ⟨_, rfl, .inr ?_⟩
    exact UInt64.lt_of_le_of_lt ((h.held view hview).generation_le hsnapshot) hless
  · -- the new snapshot has not been written yet
    rintro latest ⟨⟩ - hgeneration
    have hwritten := UInt64.lt_of_le_of_lt h.loop hless
    rw [hgeneration] at hwritten
    exact absurd hwritten (UInt64.lt_irrefl _)

theorem Consistent.recordFailure (h : Consistent s) (attemptedAt : Nanoseconds) (error : Bytes)
    (reason : FailureReason) :
    Consistent { s with store := s.store.recordFailure attemptedAt error reason } :=
  ⟨h.next, h.worker, h.loop, h.held, h.armed, h.shown⟩

theorem strongArmed_advance (detector : EventDetector) (now : Nanoseconds) :
    (detector.advance now).1.strongArmed = detector.strongArmed :=
  (detector.expire_sameMemory now).strongArmed

theorem workerObserve_new {view : ServingView} {snapshot : PublishedSnapshot} {now nowUtc : Nanoseconds}
    (hsnapshot : view.snapshot = some snapshot)
    (hnew : snapshot.generation ≠ 0 ∧ s.workerGeneration < snapshot.generation) :
    s.workerObserve view now nowUtc = { s with
      workerView := none
      workerGeneration := snapshot.generation
      detector := ((s.detector.observe snapshot now (view.status.availability = Availability.fresh)
        nowUtc).advance now).1
      alarmActive := !(s.detector.observe snapshot now (view.status.availability = Availability.fresh)
        nowUtc).strongArmed } := by
  rw [workerObserve, hsnapshot]
  simp only [if_pos hnew]

/-- An iteration of the worker, by whether the snapshot is new to it. -/
theorem workerObserve_cases (s : AlarmPath) (view : ServingView) (now nowUtc : Nanoseconds) :
    (∃ detector, s.workerObserve view now nowUtc = { s with workerView := none, detector := detector } ∧
      detector.strongArmed = s.detector.strongArmed) ∨
    ∃ snapshot detector, view.snapshot = some snapshot ∧ s.workerGeneration < snapshot.generation ∧
      s.workerObserve view now nowUtc = { s with
        workerView := none
        workerGeneration := snapshot.generation
        detector := detector
        alarmActive := !detector.strongArmed } := by
  cases hsnapshot : view.snapshot with
  | none =>
    rw [workerObserve, hsnapshot]
    exact .inl ⟨_, rfl, strongArmed_advance _ _⟩
  | some snapshot =>
    by_cases hnew : snapshot.generation ≠ 0 ∧ s.workerGeneration < snapshot.generation
    · rw [workerObserve_new hsnapshot hnew, ← strongArmed_advance _ now]
      exact .inr ⟨snapshot, _, rfl, hnew.2, rfl⟩
    · rw [workerObserve, hsnapshot]
      simp only [if_neg hnew]
      exact .inl ⟨_, rfl, strongArmed_advance _ _⟩

theorem Consistent.workerObserve (h : Consistent s) {view : ServingView}
    (hview : s.workerView = some view) (now nowUtc : Nanoseconds) :
    Consistent (s.workerObserve view now nowUtc) := by
  have hheld : ∀ view, none = some view ∨ s.updateView = some view → Past s.store view := by
    rintro view (hnone | hview)
    · cases hnone
    · exact h.held view (.inr hview)
  obtain ⟨detector, heq, harmed⟩ | ⟨snapshot, detector, hsnapshot, hnew, heq⟩ :=
    workerObserve_cases s view now nowUtc
  · rw [heq]
    refine ⟨h.next, h.worker, h.loop, hheld, ?_, h.shown⟩
    rw [harmed]
    exact h.armed
  · rw [heq]
    have hpast := (h.held view (.inl hview)).generation_le hsnapshot
    refine ⟨h.next, hpast, h.loop, hheld, rfl, ?_⟩
    intro latest hlatest hhas hgeneration
    obtain ⟨availability, havailability, hshown, hseen⟩ := h.shown latest hlatest hhas hgeneration
    rw [latestGeneration_some hlatest] at hpast
    -- had the worker been asked for the newest snapshot, it would have nothing new to see
    have hquiet : consulted availability latest = false := by
      rw [← Bool.not_eq_true]
      intro hasked
      rw [hseen hasked] at hnew
      exact UInt64.lt_irrefl _ (UInt64.lt_of_lt_of_le hnew hpast)
    refine ⟨availability, havailability, ?_, fun hasked => ?_⟩
    · rw [hquiet, Bool.false_and] at hshown ⊢
      exact hshown
    · rw [hquiet] at hasked
      cases hasked

theorem Consistent.updateWrite (h : Consistent s) {view : ServingView}
    (hview : s.updateView = some view)
    (hseen : ∀ snapshot, s.updateLoop.changed view = true → view.snapshot = some snapshot →
      consulted view.status.availability snapshot = true →
        snapshot.generation ≤ s.workerGeneration) :
    Consistent (s.updateWrite view) := by
  have hpast := h.held view (.inr hview)
  have hheld : ∀ view, s.workerView = some view ∨ none = some view → Past s.store view := by
    rintro view (hview | hnone)
    · exact h.held view (.inl hview)
    · cases hnone
  rw [AlarmPath.updateWrite]
  split_ifs with hchanged
  · refine ⟨h.next, h.worker, ?_, hheld, h.armed, ?_⟩
    · show (view.snapshot.map PublishedSnapshot.generation).getD 0 ≤ _
      cases hsnapshot : view.snapshot with
      | none => exact UInt64.zero_le
      | some snapshot => exact hpast.generation_le hsnapshot
    · intro latest hlatest hhas hgeneration
      obtain ⟨snapshot, hsnapshot⟩ := Option.isSome_iff_exists.mp hhas
      have hsame : snapshot = latest := by
        obtain ⟨latest', hlatest', heq⟩ := hpast snapshot hsnapshot
        obtain rfl : latest' = latest := Option.some.inj (hlatest'.symm.trans hlatest)
        refine heq.resolve_right fun hless => ?_
        replace hgeneration : (view.snapshot.map PublishedSnapshot.generation).getD 0 =
          latest'.generation := hgeneration
        rw [hsnapshot] at hgeneration
        rw [← hgeneration] at hless
        exact UInt64.lt_irrefl _ hless
      subst hsame
      refine ⟨view.status.availability, rfl, ?_, fun hasked => ?_⟩
      · show alarmValue view s.alarmActive = _
        rw [alarmValue, hsnapshot]
        rfl
      · refine UInt64.le_antisymm ?_ (hseen snapshot hchanged hsnapshot hasked)
        rw [← latestGeneration_some hlatest]
        exact h.worker
  · exact ⟨h.next, h.worker, h.loop, hheld, h.armed, h.shown⟩

theorem Consistent.step (h : Consistent s) {action : Action} (horderly : s.Orderly action)
    (hstep : s.step action = some s') : Consistent s' := by
  cases action with
  | publish payload startedAt completedAt =>
    cases hstep
    exact h.publish payload startedAt completedAt horderly
  | recordFailure attemptedAt error reason =>
    cases hstep
    exact h.recordFailure attemptedAt error reason
  | updateOptions options =>
    simp only [AlarmPath.step, Option.ite_none_right_eq_some, Option.some.injEq] at hstep
    obtain ⟨-, rfl⟩ := hstep
    exact ⟨h.next, h.worker, h.loop, h.held, h.armed, h.shown⟩
  | workerLook =>
    simp only [AlarmPath.step, Option.ite_none_right_eq_some, Option.some.injEq] at hstep
    obtain ⟨-, rfl⟩ := hstep
    refine ⟨h.next, h.worker, h.loop, ?_, h.armed, h.shown⟩
    rintro view (hview | hview)
    · obtain rfl := Option.some.inj hview
      exact past_servingView _
    · exact h.held view (.inr hview)
  | workerObserve now nowUtc =>
    obtain ⟨view, hview, rfl⟩ := Option.map_eq_some_iff.mp hstep
    exact h.workerObserve hview now nowUtc
  | updateLook =>
    simp only [AlarmPath.step, Option.ite_none_right_eq_some, Option.some.injEq] at hstep
    obtain ⟨-, rfl⟩ := hstep
    refine ⟨h.next, h.worker, h.loop, ?_, h.armed, h.shown⟩
    rintro view (hview | hview)
    · exact h.held view (.inl hview)
    · obtain rfl := Option.some.inj hview
      exact past_servingView _
  | updateWrite =>
    obtain ⟨view, hview, rfl⟩ := Option.map_eq_some_iff.mp hstep
    exact h.updateWrite hview fun snapshot => horderly view snapshot hview

theorem consistent_start (options : EventOptions) :
    Consistent { detector := { options := options } } := by
  refine ⟨rfl, UInt64.le_refl _, UInt64.le_refl _, ?_, rfl, ?_⟩
  · rintro view (hview | hview) <;> cases hview
  · intro latest hlatest
    cases hlatest

/-! ### The alarm follows the detector -/

/-- The worker has seen the newest snapshot, and nothing has been published since. -/
structure Settled (s₀ : AlarmPath) (latest : PublishedSnapshot) (s : AlarmPath) : Prop where
  consistent : Consistent s
  store : s.store = s₀.store
  worker : s.workerGeneration = latest.generation
  armed : s.detector.strongArmed = s₀.detector.strongArmed

theorem Settled.step {s₀ : AlarmPath} {latest : PublishedSnapshot}
    (hlatest : s₀.store.latest = some latest) (h : Settled s₀ latest s) {action : Action}
    (hquiet : s.Quiet action) (hstep : s.step action = some s') : Settled s₀ latest s' := by
  have hall : ∀ view, s.workerView = some view ∨ s.updateView = some view → ∀ snapshot,
      view.snapshot = some snapshot → snapshot.generation ≤ s.workerGeneration := by
    intro view hview snapshot hsnapshot
    have hle := (h.consistent.held view hview).generation_le hsnapshot
    rw [latestGeneration_some (h.store ▸ hlatest)] at hle
    rw [h.worker]
    exact hle
  have horderly : s.Orderly action := by
    cases action with
    | publish => exact hquiet.elim
    | updateWrite => exact fun view snapshot hview _ hsnapshot _ => hall view (.inr hview) _ hsnapshot
    | _ => trivial
  have hconsistent := h.consistent.step horderly hstep
  obtain ⟨-, hstore, hworker, harmed⟩ := h
  cases action with
  | publish => exact hquiet.elim
  | recordFailure => exact hquiet.elim
  | updateOptions options =>
    simp only [AlarmPath.step, Option.ite_none_right_eq_some, Option.some.injEq] at hstep
    obtain ⟨-, rfl⟩ := hstep
    exact ⟨hconsistent, hstore, hworker, harmed⟩
  | workerLook =>
    simp only [AlarmPath.step, Option.ite_none_right_eq_some, Option.some.injEq] at hstep
    obtain ⟨-, rfl⟩ := hstep
    exact ⟨hconsistent, hstore, hworker, harmed⟩
  | workerObserve now nowUtc =>
    obtain ⟨view, hview, rfl⟩ := Option.map_eq_some_iff.mp hstep
    obtain ⟨detector, heq, hsame⟩ | ⟨snapshot, detector, hsnapshot, hnew, -⟩ :=
      workerObserve_cases s view now nowUtc
    · rw [heq] at hconsistent ⊢
      exact ⟨hconsistent, hstore, hworker, hsame.trans harmed⟩
    · exact absurd (UInt64.lt_of_lt_of_le hnew (hall view (.inl hview) snapshot hsnapshot))
        (UInt64.lt_irrefl _)
  | updateLook =>
    simp only [AlarmPath.step, Option.ite_none_right_eq_some, Option.some.injEq] at hstep
    obtain ⟨-, rfl⟩ := hstep
    exact ⟨hconsistent, hstore, hworker, harmed⟩
  | updateWrite =>
    obtain ⟨view, -, rfl⟩ := Option.map_eq_some_iff.mp hstep
    rw [AlarmPath.updateWrite] at hconsistent ⊢
    split_ifs at hconsistent ⊢
    · exact ⟨hconsistent, hstore, hworker, harmed⟩
    · exact ⟨hconsistent, hstore, hworker, harmed⟩

/-- Besides, the update loop holds no older view. -/
structure Looked (s₀ : AlarmPath) (latest : PublishedSnapshot) (s : AlarmPath) : Prop
    extends Settled s₀ latest s where
  upToDate : ∀ view, s.updateView = some view → view = s₀.store.servingView

theorem Looked.step {s₀ : AlarmPath} {latest : PublishedSnapshot}
    (hlatest : s₀.store.latest = some latest) (h : Looked s₀ latest s) {action : Action}
    (hquiet : s.Quiet action) (hstep : s.step action = some s') : Looked s₀ latest s' := by
  refine ⟨h.toSettled.step hlatest hquiet hstep, ?_⟩
  cases action with
  | publish => exact hquiet.elim
  | recordFailure => exact hquiet.elim
  | updateOptions options =>
    simp only [AlarmPath.step, Option.ite_none_right_eq_some, Option.some.injEq] at hstep
    obtain ⟨-, rfl⟩ := hstep
    exact h.upToDate
  | workerLook =>
    simp only [AlarmPath.step, Option.ite_none_right_eq_some, Option.some.injEq] at hstep
    obtain ⟨-, rfl⟩ := hstep
    exact h.upToDate
  | workerObserve now nowUtc =>
    obtain ⟨view, -, rfl⟩ := Option.map_eq_some_iff.mp hstep
    obtain ⟨detector, heq, -⟩ | ⟨snapshot, detector, -, -, heq⟩ :=
      workerObserve_cases s view now nowUtc
    · rw [heq]
      exact h.upToDate
    · rw [heq]
      exact h.upToDate
  | updateLook =>
    simp only [AlarmPath.step, Option.ite_none_right_eq_some, Option.some.injEq] at hstep
    obtain ⟨-, rfl⟩ := hstep
    rintro view ⟨⟩
    rw [h.store]
  | updateWrite =>
    obtain ⟨view, -, rfl⟩ := Option.map_eq_some_iff.mp hstep
    rw [AlarmPath.updateWrite]
    split_ifs
    · rintro view ⟨⟩
    · rintro view ⟨⟩

/-- Once the update loop has looked at the present state, what it writes, or leaves, is
the alarm of the detector. -/
theorem Settled.paDschAlm {s₀ : AlarmPath} {latest : PublishedSnapshot}
    (hlatest : s₀.store.latest = some latest) (h : Settled s₀ latest s) :
    (s.updateWrite s₀.store.servingView).paDschAlm =
      (consulted s₀.store.status.availability latest && !s₀.detector.strongArmed) := by
  have hactive : s.alarmActive = !s₀.detector.strongArmed := by
    rw [h.consistent.armed, h.armed]
  have hsnapshot : s₀.store.servingView.snapshot = some latest := hlatest
  rw [AlarmPath.updateWrite]
  split_ifs with hchanged
  · show alarmValue s₀.store.servingView s.alarmActive = _
    rw [alarmValue, hsnapshot, hactive]
    rfl
  · -- nothing has changed since the last time, so the newest snapshot was written then
    simp only [UpdateLoop.changed, hsnapshot, Bool.or_eq_true, not_or, decide_eq_true_eq, not_not,
      Option.any_some, Option.isSome_some, UInt64.not_lt] at hchanged
    obtain ⟨⟨⟨hstatus, hhas⟩, hgeneration⟩, -⟩ := hchanged
    have hloop := h.consistent.loop
    rw [latestGeneration_some (h.store ▸ hlatest)] at hloop
    obtain ⟨availability, havailability, hshown, -⟩ := h.consistent.shown latest (h.store ▸ hlatest)
      hhas.symm (UInt64.le_antisymm hloop hgeneration)
    obtain rfl : availability = s₀.store.status.availability :=
      Option.some.inj (havailability.symm.trans hstatus)
    show s.paDschAlm = _
    rw [hshown, hactive]

/-- A strong peak is the first snapshot. -/
def published : AlarmPath where
  store := SnapshotStore.publish {} sampleSnapshot.payload 0 0

theorem published_latest : published.store.latest = some sampleSnapshot := rfl

/-- The detector has seen the peak. -/
def disarmed : EventDetector :=
  ((EventDetector.observe {} sampleSnapshot 0 true 0).advance 0).1

theorem observe_strongArmed :
    (EventDetector.observe {} sampleSnapshot 0 true 0).strongArmed = false :=
  (EventDetector.first_observation (by decide) sampleSnapshot_valid
    (by rw [peakOf, sampleSnapshot_peak]; decide)).2

theorem disarmed_strongArmed : disarmed.strongArmed = false := by
  rw [disarmed, strongArmed_advance]
  exact observe_strongArmed

theorem sampleSnapshot_consulted : consulted .fresh sampleSnapshot = true := by
  have hvalid := sampleSnapshot_valid
  rw [validPeak] at hvalid
  simpa [consulted, alarmValid, peakMeasurement, and_comm] using hvalid

/-- The worker sees the peak. -/
theorem workerObserve_published (hworker : s.workerGeneration = 0) (hdetector : s.detector = {}) :
    s.workerObserve published.store.servingView 0 0 = { s with
      workerView := none
      workerGeneration := 1
      detector := disarmed
      alarmActive := true } := by
  have hnew : sampleSnapshot.generation ≠ 0 ∧ s.workerGeneration < sampleSnapshot.generation := by
    rw [hworker]
    decide
  rw [workerObserve_new published_latest hnew, hdetector]
  show { s with
    workerView := none
    workerGeneration := 1
    detector := disarmed
    alarmActive := !(EventDetector.observe {} sampleSnapshot 0 true 0).strongArmed } = _
  rw [observe_strongArmed]
  rfl

theorem alarmValue_inactive (view : ServingView) : alarmValue view false = false := by
  rw [alarmValue]
  simp

/-- The update loop has written the peak before the worker looks. -/
def writtenFirst : AlarmPath :=
  { published with updateLoop := .written published.store.servingView }

/-- The worker has seen the peak before the update loop looks. -/
def observedFirst : AlarmPath :=
  { published with workerGeneration := 1, detector := disarmed, alarmActive := true }

end AlarmPath

end Uhf.Iec61850
