/-
The store between the poller and its readers (`SnapshotStore`).

A point in time is its distance to the clock's epoch in nanoseconds.  Every
method runs under the store's mutex, so a reader sees the state between two of
them.

* `SnapshotStore.recordFailures_latest` — failures never touch the snapshot.
-/
import UhfGateway.Domain.Snapshot

namespace Uhf.Acquisition

open Domain

/-- A point of the steady clock, or a distance of two, in nanoseconds. -/
abbrev Nanoseconds := Int

def milliseconds (n : Int) : Nanoseconds := n * 1000000
def microseconds (n : Int) : Nanoseconds := n * 1000

structure PublishedSnapshot where
  generation : UInt64
  startedAt : Nanoseconds
  completedAt : Nanoseconds
  /-- In milliseconds. -/
  pollDuration : Int
  payload : ParsedSnapshot
  deriving DecidableEq

inductive Availability
  | fresh
  | stale
  | invalid
  deriving DecidableEq, Repr

inductive FailureReason
  | other
  | noResponse
  deriving DecidableEq, Repr

structure AcquisitionStatus where
  availability : Availability := .invalid
  attemptKnown : Bool := false
  lastAttemptAt : Nanoseconds := 0
  lastError : Bytes := []
  consecutiveNoResponse : UInt32 := 0
  communicationAlarm : Bool := false
  deriving DecidableEq, Repr

structure ServingView where
  snapshot : Option PublishedSnapshot
  status : AcquisitionStatus

structure SnapshotStore where
  latest : Option PublishedSnapshot := none
  status : AcquisitionStatus := {}
  nextGeneration : UInt64 := 1

def kMaxAcquisitionErrorBytes : Nat := 256

namespace SnapshotStore

def publish (s : SnapshotStore) (payload : ParsedSnapshot) (startedAt completedAt : Nanoseconds) :
    SnapshotStore :=
  { latest := some {
      generation := s.nextGeneration
      startedAt := startedAt
      completedAt := completedAt
      pollDuration := (completedAt - startedAt).tdiv 1000000
      payload := payload }
    status := {
      availability := .fresh
      attemptKnown := true
      lastAttemptAt := completedAt
      lastError := []
      consecutiveNoResponse := 0
      communicationAlarm := false }
    nextGeneration := s.nextGeneration + 1 }

def recordFailure (s : SnapshotStore) (attemptedAt : Nanoseconds) (error : Bytes)
    (reason : FailureReason) : SnapshotStore :=
  let consecutive : UInt32 :=
    match reason with
    | .noResponse =>
      if s.status.consecutiveNoResponse < 0xFFFFFFFF then s.status.consecutiveNoResponse + 1
      else s.status.consecutiveNoResponse
    | .other => 0
  { s with
    status := {
      availability := if s.latest.isSome then .stale else .invalid
      attemptKnown := true
      lastAttemptAt := attemptedAt
      lastError := error.take kMaxAcquisitionErrorBytes
      consecutiveNoResponse := consecutive
      communicationAlarm := decide (3 ≤ consecutive) } }

def servingView (s : SnapshotStore) : ServingView := ⟨s.latest, s.status⟩

/-- A failure to record: when, what and why. -/
structure Failure where
  attemptedAt : Nanoseconds
  error : Bytes
  reason : FailureReason

/-- A row of failures. -/
def recordFailures (s : SnapshotStore) (failures : List Failure) : SnapshotStore :=
  failures.foldl (fun s f => s.recordFailure f.attemptedAt f.error f.reason) s

theorem recordFailures_latest (s : SnapshotStore) (failures : List Failure) :
    (s.recordFailures failures).latest = s.latest := by
  induction failures generalizing s with
  | nil => rfl
  | cons f fs ih =>
    rw [recordFailures, List.foldl_cons]
    exact ih _

end SnapshotStore

end Uhf.Acquisition
