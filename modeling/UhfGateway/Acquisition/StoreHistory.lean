/-
The snapshot store over a history of calls.

The store keeps a status that every call updates in place.  What the status says is defined
here from the calls alone: which of them came last, whether one of them published, and how
many failures without a response stand at the end.

* `storeAfter_nextGeneration`, `storeAfter_latest` — the snapshot is that of the last
  publication, numbered by how many there were;
* `storeAfter_consecutive` — the counter is the length of the silent end of the history;
* `store_follows_history` — everything a reader is served, said of the history.
-/
import Mathlib.Data.List.Induction
import Mathlib.Algebra.Order.Ring.Nat
import UhfGateway.Acquisition.SnapshotStore

namespace Uhf.Acquisition

open Domain

/-- The calls that change the store. -/
inductive StoreCall
  | publish (payload : ParsedSnapshot) (startedAt completedAt : Nanoseconds)
  | recordFailure (failure : SnapshotStore.Failure)

namespace StoreCall

def isPublish : StoreCall → Bool
  | publish .. => true
  | recordFailure _ => false

/-- A failure for want of any response. -/
def isSilent : StoreCall → Bool
  | publish .. => false
  | recordFailure failure => decide (failure.reason = .noResponse)

/-- When the attempt was over that the call reports. -/
def attemptAt : StoreCall → Nanoseconds
  | publish _ _ completedAt => completedAt
  | recordFailure failure => failure.attemptedAt

/-- The error that the call leaves to be read. -/
def error : StoreCall → Bytes
  | publish .. => []
  | recordFailure failure => failure.error.take kMaxAcquisitionErrorBytes

end StoreCall

def SnapshotStore.call (s : SnapshotStore) : StoreCall → SnapshotStore
  | .publish payload startedAt completedAt => s.publish payload startedAt completedAt
  | .recordFailure failure => s.recordFailure failure.attemptedAt failure.error failure.reason

/-- A store made at the start of the program, after the given calls, oldest first. -/
def storeAfter (history : List StoreCall) : SnapshotStore :=
  history.foldl SnapshotStore.call {}

/-! ### The history by itself -/

def publishes (history : List StoreCall) : ℕ := history.countP StoreCall.isPublish

/-- How many failures without a response the history ends with. -/
def silentEnd (history : List StoreCall) : ℕ :=
  (history.reverse.takeWhile StoreCall.isSilent).length

/-- The last publication of the history: the calls before it, and what it published. -/
inductive LastPublish : List StoreCall → List StoreCall → ParsedSnapshot → Nanoseconds →
    Nanoseconds → Prop
  | mk {before failures : List StoreCall} {payload : ParsedSnapshot}
      {startedAt completedAt : Nanoseconds} (later : publishes failures = 0) :
      LastPublish (before ++ .publish payload startedAt completedAt :: failures) before payload
        startedAt completedAt

variable {history : List StoreCall} {call : StoreCall}

theorem storeAfter_append : storeAfter (history ++ [call]) = (storeAfter history).call call := by
  simp [storeAfter]

theorem publishes_append :
    publishes (history ++ [call]) = publishes history + if call.isPublish then 1 else 0 := by
  simp [publishes, List.countP_append, List.countP_singleton]

theorem silentEnd_append :
    silentEnd (history ++ [call]) = if call.isSilent then silentEnd history + 1 else 0 := by
  cases h : call.isSilent <;> simp [silentEnd, h]

/-- A silent end of so many calls has a last one, before which it is one shorter. -/
theorem succ_le_silentEnd {n : ℕ} :
    n + 1 ≤ silentEnd history ↔
      ∃ before call, history = before ++ [call] ∧ call.isSilent = true ∧ n ≤ silentEnd before := by
  constructor
  · intro h
    cases history using List.reverseRecOn with
    | nil => simp [silentEnd] at h
    | append_singleton before call =>
      cases hsilent : call.isSilent with
      | false => simp [silentEnd_append, hsilent] at h
      | true =>
        rw [silentEnd_append, if_pos hsilent] at h
        exact ⟨before, call, rfl, hsilent, by omega⟩
  · rintro ⟨before, call, rfl, hsilent, hbefore⟩
    rw [silentEnd_append, if_pos hsilent]
    omega

/-- Three silent failures at the end, written out. -/
theorem three_le_silentEnd :
    3 ≤ silentEnd history ↔ ∃ before a b c, history = before ++ [a, b, c] ∧
      a.isSilent = true ∧ b.isSilent = true ∧ c.isSilent = true := by
  constructor
  · intro h
    obtain ⟨upToTwo, c, rfl, hc, htwo⟩ := succ_le_silentEnd.mp h
    obtain ⟨upToOne, b, rfl, hb, hone⟩ := succ_le_silentEnd.mp htwo
    obtain ⟨before, a, rfl, ha, _⟩ := succ_le_silentEnd.mp hone
    exact ⟨before, a, b, c, by simp, ha, hb, hc⟩
  · rintro ⟨before, a, b, c, rfl, ha, hb, hc⟩
    rw [show before ++ [a, b, c] = before ++ [a] ++ [b] ++ [c] by simp]
    rw [silentEnd_append, if_pos hc, silentEnd_append, if_pos hb, silentEnd_append, if_pos ha]
    omega

/-! ### What the store keeps -/

theorem storeAfter_nextGeneration :
    (storeAfter history).nextGeneration = UInt64.ofNat (publishes history + 1) := by
  induction history using List.reverseRecOn with
  | nil => rfl
  | append_singleton history call ih =>
    rw [storeAfter_append, publishes_append]
    cases call with
    | publish payload startedAt completedAt =>
      show (storeAfter history).nextGeneration + 1 = _
      rw [ih, StoreCall.isPublish, if_pos rfl, UInt64.ofNat_add (publishes history + 1)]
      rfl
    | recordFailure failure => exact ih

/-- The snapshot is that of the last publication, numbered by how many came before it. -/
theorem storeAfter_latest {before : List StoreCall} {payload : ParsedSnapshot}
    {startedAt completedAt : Nanoseconds}
    (h : LastPublish history before payload startedAt completedAt) :
    (storeAfter history).latest = some {
      generation := UInt64.ofNat (publishes before + 1)
      startedAt := startedAt
      completedAt := completedAt
      pollDuration := (completedAt - startedAt).tdiv 1000000
      payload := payload } := by
  obtain @⟨before, failures, payload, startedAt, completedAt, later⟩ := h
  induction failures using List.reverseRecOn with
  | nil =>
    rw [storeAfter_append, ← storeAfter_nextGeneration]
    rfl
  | append_singleton failures call ih =>
    rw [publishes_append] at later
    rw [← List.cons_append, ← List.append_assoc, storeAfter_append]
    cases call with
    | publish payload startedAt completedAt => simp [StoreCall.isPublish] at later
    | recordFailure failure => exact ih (by omega)

theorem storeAfter_latest_none (h : publishes history = 0) : (storeAfter history).latest = none := by
  induction history using List.reverseRecOn with
  | nil => rfl
  | append_singleton history call ih =>
    rw [publishes_append] at h
    rw [storeAfter_append]
    cases call with
    | publish payload startedAt completedAt => simp [StoreCall.isPublish] at h
    | recordFailure failure => exact ih (by omega)

/-- A history with a publication has a last one. -/
theorem exists_lastPublish (h : publishes history ≠ 0) :
    ∃ before payload startedAt completedAt,
      LastPublish history before payload startedAt completedAt := by
  induction history using List.reverseRecOn with
  | nil => exact absurd rfl h
  | append_singleton history call ih =>
    cases call with
    | publish payload startedAt completedAt =>
      exact ⟨history, payload, startedAt, completedAt, .mk rfl⟩
    | recordFailure failure =>
      rw [publishes_append] at h
      obtain ⟨before, payload, startedAt, completedAt, hlast⟩ := ih (by simpa [StoreCall.isPublish] using h)
      obtain @⟨before, failures, payload, startedAt, completedAt, later⟩ := hlast
      refine ⟨before, payload, startedAt, completedAt, ?_⟩
      rw [List.append_assoc, List.cons_append]
      exact .mk (by rw [publishes_append, later]; rfl)

theorem isSome_latest : (storeAfter history).latest.isSome = true ↔ publishes history ≠ 0 := by
  constructor
  · intro h hnone
    rw [storeAfter_latest_none hnone] at h
    cases h
  · intro h
    obtain ⟨before, payload, startedAt, completedAt, hlast⟩ := exists_lastPublish h
    rw [storeAfter_latest hlast]
    rfl

/-- The counter follows the silent end of the history as far as it reaches. -/
theorem storeAfter_consecutive :
    (storeAfter history).status.consecutiveNoResponse.toNat =
      min (silentEnd history) (2 ^ 32 - 1) := by
  induction history using List.reverseRecOn with
  | nil => rfl
  | append_singleton history call ih =>
    rw [storeAfter_append, silentEnd_append]
    cases call with
    | publish payload startedAt completedAt => rfl
    | recordFailure failure =>
      obtain ⟨attemptedAt, error, reason⟩ := failure
      cases reason with
      | other => rfl
      | noResponse =>
        rw [StoreCall.isSilent, if_pos (by simp)]
        generalize hcount : (storeAfter history).status.consecutiveNoResponse = count at ih
        show (if _ < _ then _ else _ : UInt32).toNat = _
        rw [hcount]
        by_cases hfull : count < 0xFFFFFFFF
        · have hbound : count.toNat < 4294967295 := UInt32.lt_iff_toNat_lt.mp hfull
          rw [if_pos hfull, UInt32.toNat_add, ih, UInt32.toNat_one]
          omega
        · have hbound : ¬ count.toNat < 4294967295 := fun h => hfull (UInt32.lt_iff_toNat_lt.mpr h)
          rw [if_neg hfull, ih]
          omega

/-! ### What a reader is served -/

/-- The view says of the history what it should. -/
structure ServingView.Follows (view : ServingView) (history : List StoreCall) : Prop where
  fresh : view.status.availability = .fresh ↔
    ∃ call, history.getLast? = some call ∧ call.isPublish = true
  stale : view.status.availability = .stale ↔
    (∃ call, history.getLast? = some call ∧ call.isPublish = false) ∧ publishes history ≠ 0
  invalid : view.status.availability = .invalid ↔ publishes history = 0
  alarm : view.status.communicationAlarm = true ↔ ∃ before a b c, history = before ++ [a, b, c] ∧
    a.isSilent = true ∧ b.isSilent = true ∧ c.isSilent = true
  unpublished : publishes history = 0 → view.snapshot = none
  /-- The snapshot is that of the last publication … -/
  published : ∀ before payload startedAt completedAt,
    LastPublish history before payload startedAt completedAt → ∃ snapshot,
      view.snapshot = some snapshot ∧ snapshot.payload = payload ∧
      snapshot.startedAt = startedAt ∧ snapshot.completedAt = completedAt
  /-- … and the status that of the last call. -/
  attempt : ∀ call, history.getLast? = some call → view.status.attemptKnown = true ∧
    view.status.lastAttemptAt = call.attemptAt ∧ view.status.lastError = call.error

theorem storeAfter_alarm :
    (storeAfter history).status.communicationAlarm = true ↔ 3 ≤ silentEnd history := by
  have hcounter := @storeAfter_consecutive history
  have halarm : (storeAfter history).status.communicationAlarm =
      decide (3 ≤ (storeAfter history).status.consecutiveNoResponse) := by
    cases history using List.reverseRecOn with
    | nil => rfl
    | append_singleton history call =>
      rw [storeAfter_append]
      cases call <;> rfl
  rw [halarm, decide_eq_true_iff, UInt32.le_iff_toNat_le, hcounter]
  show 3 ≤ _ ↔ _
  omega

/-- What the last call says about the availability. -/
theorem storeAfter_availability :
    (storeAfter (history ++ [call])).status.availability =
      if call.isPublish then .fresh else if publishes history ≠ 0 then .stale else .invalid := by
  rw [storeAfter_append]
  cases call with
  | publish payload startedAt completedAt => rfl
  | recordFailure failure =>
    show (if (storeAfter history).latest.isSome then _ else _) = _
    by_cases hpublished : publishes history ≠ 0
    · rw [if_pos (isSome_latest.mpr hpublished), if_pos hpublished]
      rfl
    · rw [if_neg (mt isSome_latest.mp hpublished), if_neg hpublished]
      rfl

theorem storeAfter_attempt :
    (storeAfter (history ++ [call])).status.attemptKnown = true ∧
      (storeAfter (history ++ [call])).status.lastAttemptAt = call.attemptAt ∧
      (storeAfter (history ++ [call])).status.lastError = call.error := by
  rw [storeAfter_append]
  cases call with
  | publish payload startedAt completedAt => exact ⟨rfl, rfl, rfl⟩
  | recordFailure failure => exact ⟨rfl, rfl, rfl⟩

theorem servingView_follows (history : List StoreCall) :
    (storeAfter history).servingView.Follows history where
  fresh := by
    cases history using List.reverseRecOn with
    | nil => simp [storeAfter, SnapshotStore.servingView]
    | append_singleton history call =>
      show (storeAfter (history ++ [call])).status.availability = .fresh ↔ _
      rw [storeAfter_availability]
      cases hcall : call.isPublish <;> by_cases h : publishes history = 0 <;> simp [h, hcall]
  stale := by
    cases history using List.reverseRecOn with
    | nil => simp [storeAfter, SnapshotStore.servingView]
    | append_singleton history call =>
      show (storeAfter (history ++ [call])).status.availability = .stale ↔ _
      rw [storeAfter_availability, publishes_append]
      cases hcall : call.isPublish <;> by_cases h : publishes history = 0 <;> simp [h, hcall]
  invalid := by
    cases history using List.reverseRecOn with
    | nil => simp [storeAfter, SnapshotStore.servingView, publishes]
    | append_singleton history call =>
      show (storeAfter (history ++ [call])).status.availability = .invalid ↔ _
      rw [storeAfter_availability, publishes_append]
      cases hcall : call.isPublish <;> by_cases h : publishes history = 0 <;> simp [h]
  alarm := storeAfter_alarm.trans three_le_silentEnd
  unpublished := storeAfter_latest_none
  published := fun _ _ _ _ hlast => ⟨_, storeAfter_latest hlast, rfl, rfl, rfl⟩
  attempt := by
    intro call hlast
    cases history using List.reverseRecOn with
    | nil => cases hlast
    | append_singleton history last =>
      rw [List.getLast?_append, List.getLast?_singleton] at hlast
      obtain rfl : last = call := by simpa using hlast
      exact storeAfter_attempt

/-- Whatever has been called, in whatever order: readers are served what the history says, a
failure leaves the snapshot as it is, and a publication gets the next number. -/
theorem store_follows_history (history : List StoreCall) :
    (storeAfter history).servingView.Follows history ∧
      (∀ failure, (storeAfter (history ++ [.recordFailure failure])).latest =
        (storeAfter history).latest) ∧
      ∀ payload startedAt completedAt, publishes history + 1 < 2 ^ 64 → ∃ snapshot,
        (storeAfter (history ++ [.publish payload startedAt completedAt])).latest = some snapshot ∧
        (publishes history = 0 → snapshot.generation = ({} : SnapshotStore).nextGeneration) ∧
        ∀ previous, (storeAfter history).latest = some previous →
          snapshot.generation.toNat = previous.generation.toNat + 1 := by
  refine ⟨servingView_follows history, fun failure => ?_, fun payload startedAt completedAt hfew => ?_⟩
  · rw [storeAfter_append]
    rfl
  · refine ⟨_, storeAfter_latest (.mk rfl), fun hfirst => ?_, fun previous hprevious => ?_⟩
    · rw [hfirst]
      rfl
    · have hsome : publishes history ≠ 0 := isSome_latest.mp (by rw [hprevious]; rfl)
      obtain ⟨before, payload', startedAt', completedAt', hlast⟩ := exists_lastPublish hsome
      have hlatest := storeAfter_latest hlast
      obtain @⟨before, failures, payload', startedAt', completedAt', later⟩ := hlast
      have hcount : publishes (before ++ .publish payload' startedAt' completedAt' :: failures) =
          publishes before + 1 := by
        rw [publishes, List.countP_append, List.countP_cons_of_pos (by rfl)]
        rw [publishes] at later
        rw [later]
        rfl
      rw [hprevious, Option.some.injEq] at hlatest
      rw [hlatest, hcount, UInt64.toNat_ofNat', UInt64.toNat_ofNat']
      omega

/-- A publication after another one and a failure. -/
theorem republished_follows_history :
    let payload := parsePd1000Registers (Vector.replicate kPd1000RegisterCount 0)
    let history : List StoreCall :=
      [.publish payload 0 1, .recordFailure ⟨2, ascii "timeout", .noResponse⟩]
    ∃ snapshot, (storeAfter (history ++ [.publish payload 3 4])).latest = some snapshot ∧
      (publishes history = 0 → snapshot.generation = ({} : SnapshotStore).nextGeneration) ∧
      ∀ previous, (storeAfter history).latest = some previous →
        snapshot.generation.toNat = previous.generation.toNat + 1 := by
  intro payload history
  have hfew : publishes history + 1 < 2 ^ 64 := by
    have hcount : publishes history = 1 := rfl
    omega
  exact (store_follows_history history).2.2 payload 3 4 hfew

end Uhf.Acquisition
