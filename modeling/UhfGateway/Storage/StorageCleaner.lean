/-
The cleaner of the data directory (`storage/storage_cleaner`).

A run looks at the free space, and if there is too little of it, lists the closed files and
removes some of them.  Everything outside of the cleaner is behind its calls: the space probe,
the directories, the removals.  A point of the system clock is its distance to the epoch in
nanoseconds, a signed number of 64 bits that wraps around.

`directory_iterator` reports an error when it is opened through its argument, which the loop
over no entries never looks at, and an error on the way by throwing: then the whole run has no
result and the cleaner is left as it was.

* `lowThreshold_le_recoveryThreshold` — the thresholds of a run are in order.
-/
import Mathlib.Data.List.Sort
import UhfGateway.Acquisition.SnapshotStore
import UhfGateway.Domain.Decimal
import UhfGateway.Effects.Trace
import UhfGateway.Storage.EventStore

namespace Uhf.Storage

open Acquisition Effects

structure DiskSpace where
  totalBytes : UInt64 := 0
  availableBytes : UInt64 := 0
  deriving DecidableEq, Repr

structure CleanerOptions where
  /-- In seconds. -/
  retention : Int := 24 * 3600
  minFreeBytes : UInt64 := 512 * 1024 * 1024
  lowWatermarkPercent : UInt8 := 10
  recoveryPercent : UInt8 := 15
  recoveryExtraBytes : UInt64 := 256 * 1024 * 1024
  deriving DecidableEq, Repr

structure CleanupResult where
  lowWatermarkActive : Bool := false
  writesPaused : Bool := false
  deletionFailed : Bool := false
  removedFiles : ℕ := 0
  availableBytes : UInt64 := 0
  lowThresholdBytes : UInt64 := 0
  recoveryThresholdBytes : UInt64 := 0
  deriving DecidableEq, Repr

structure StorageCleaner where
  dataRoot : Bytes
  options : CleanerOptions := {}
  writesPaused : Bool := false

inductive DataDirectory
  | frames
  | events
  deriving DecidableEq, Repr

def DataDirectory.name : DataDirectory → Bytes
  | frames => ascii "frames"
  | events => ascii "events"

/-- `StorageCleaner::Candidate`; the path is empty once the file has been removed. -/
structure Candidate where
  path : Bytes
  timestamp : Nanoseconds
  frame : Bool
  deriving DecidableEq, Repr

/-! ### Calls -/

/-- What the space probe returns, and what it leaves in its argument. -/
structure ProbeAnswer where
  ok : Bool
  space : DiskSpace
  deriving DecidableEq, Repr

/-- The entries a directory iterator has come to, and whether it has reached the end. -/
structure Listing where
  names : List Bytes
  complete : Bool

inductive CleanerCall
  | probe
  | present (directory : DataDirectory)
  | isDirectory (directory : DataDirectory)
  | listDirectory (directory : DataDirectory)
  | isRegularFile (directory : DataDirectory) (name : Bytes)
  | remove (path : Bytes)

/-- What each call reports; `none` is an error. -/
@[reducible] def cleanerCalls : Interface where
  Op := CleanerCall
  Answer
    | .probe => ProbeAnswer
    | .listDirectory _ => Option Listing
    | _ => Option Bool

/-- `query_space`. -/
def querySpace {α : Type} (k : ProbeAnswer → Prog cleanerCalls α) : Prog cleanerCalls α :=
  .call (I := cleanerCalls) .probe k

def removeFile {α : Type} (path : Bytes) (k : Option Bool → Prog cleanerCalls α) :
    Prog cleanerCalls α := .call (I := cleanerCalls) (.remove path) k

/-! ### Candidates -/

/-- `operator/` of two paths, the second one relative. -/
def joinPath (base name : Bytes) : Bytes :=
  if base = [] ∨ base.getLast? = some '/'.toUInt8 then base ++ name
  else base ++ '/'.toUInt8 :: name

/-- The path of an entry, as the iterator makes it up. -/
def entryPath (root : Bytes) (directory : DataDirectory) (name : Bytes) : Bytes :=
  joinPath (joinPath root directory.name) name

/-- What the clock's 64 bits hold of a number of nanoseconds. -/
def clockTicks (n : Int) : Nanoseconds := n.bmod 18446744073709551616

def filenameTimestamp (name : Bytes) : Option Nanoseconds :=
  if (ascii "frame-").isPrefixOf name || (ascii "event-").isPrefixOf name then
    let number := (name.drop 6).takeWhile (· ≠ '-'.toUInt8)
    -- without a second hyphen the number has no end
    if number.length = (name.drop 6).length then none
    else
      match fromChars number with
      | none => none
      | some count => if 9223372036854775807 < count then none
        else some (clockTicks (milliseconds count))
  else none

/-- The order of `scan_candidates`: by time, then by path. -/
def Candidate.before (first second : Candidate) : Bool :=
  if first.timestamp ≠ second.timestamp then decide (first.timestamp < second.timestamp)
  else decide (first.path < second.path)

/-- `std::sort` by this order. -/
def sortCandidates (candidates : List Candidate) : List Candidate :=
  candidates.insertionSort fun first second => second.before first = false

inductive Scan
  | found (candidates : List Candidate)
  | failed
  | thrown

/-- The candidate an entry is, if its name is that of a closed file. -/
def candidateOf (root : Bytes) (directory : DataDirectory) (name : Bytes) : Option Candidate :=
  (filenameTimestamp name).map fun timestamp =>
    { path := entryPath root directory name, timestamp, frame := decide (directory = .frames) }

/-- The loop over the entries of a directory. -/
def scanEntries (root : Bytes) (directory : DataDirectory) :
    List Bytes → List Candidate → Prog cleanerCalls Scan
  | [], candidates => .done (.found candidates)
  | name :: names, candidates =>
      if extension name ≠ ascii ".bin" then scanEntries root directory names candidates
      else .call (I := cleanerCalls) (.isRegularFile directory name) fun (regular : Option Bool) =>
        match regular with
        | none => .done .failed
        | some false => scanEntries root directory names candidates
        | some true =>
          scanEntries root directory names (candidates ++ (candidateOf root directory name).toList)

def scanDirectory (root : Bytes) (directory : DataDirectory) (candidates : List Candidate) :
    Prog cleanerCalls Scan :=
  .call (I := cleanerCalls) (.present directory) fun (present : Option Bool) =>
    match present with
    | none => .done .failed
    | some false => .done (.found candidates)
    | some true =>
      .call (I := cleanerCalls) (.isDirectory directory) fun (isDirectory : Option Bool) =>
        if isDirectory ≠ some true then .done .failed
        else
          .call (I := cleanerCalls) (.listDirectory directory) fun (listing : Option Listing) =>
            match listing with
            | none => .done (.found candidates)
            | some listing =>
              scanEntries root directory listing.names candidates >>= fun
                | .found candidates =>
                  .done (if listing.complete then .found candidates else .thrown)
                | other => .done other

def scanCandidates (root : Bytes) : Prog cleanerCalls Scan :=
  scanDirectory root .frames [] >>= fun
    | .found frames =>
      scanDirectory root .events frames >>= fun
        | .found candidates => .done (.found (sortCandidates candidates))
        | other => .done other
    | other => .done other

/-! ### Thresholds -/

def percentOf (totalBytes : UInt64) (percent : UInt8) : UInt64 :=
  let bounded : UInt64 := if 100 < percent then 100 else percent.toUInt64
  totalBytes / 100 * bounded + totalBytes % 100 * bounded / 100

def saturatingAdd (first second : UInt64) : UInt64 :=
  if 0xFFFFFFFFFFFFFFFF - first < second then 0xFFFFFFFFFFFFFFFF else first + second

def CleanerOptions.lowThreshold (options : CleanerOptions) (space : DiskSpace) : UInt64 :=
  max options.minFreeBytes (percentOf space.totalBytes options.lowWatermarkPercent)

def CleanerOptions.recoveryThreshold (options : CleanerOptions) (space : DiskSpace) : UInt64 :=
  max (saturatingAdd (options.lowThreshold space) options.recoveryExtraBytes)
    (percentOf space.totalBytes options.recoveryPercent)

theorem le_saturatingAdd (first second : UInt64) : first ≤ saturatingAdd first second := by
  have hfirst := first.toNat_lt
  have hsecond := second.toNat_lt
  rw [saturatingAdd, UInt64.le_iff_toNat_le]
  split
  · simp only [UInt64.reduceToNat]
    omega
  · next h =>
    rw [UInt64.not_lt, UInt64.le_iff_toNat_le] at h
    have hle : first ≤ 0xFFFFFFFFFFFFFFFF := by
      rw [UInt64.le_iff_toNat_le]
      simp only [UInt64.reduceToNat]
      omega
    rw [UInt64.toNat_sub_of_le _ _ hle] at h
    simp only [UInt64.reduceToNat] at h
    rw [UInt64.toNat_add]
    omega

theorem uint64_le_max_left (first second : UInt64) : first ≤ max first second := by
  change first ≤ if first ≤ second then second else first
  split
  · assumption
  · exact UInt64.le_refl first

theorem lowThreshold_le_recoveryThreshold (options : CleanerOptions) (space : DiskSpace) :
    options.lowThreshold space ≤ options.recoveryThreshold space :=
  UInt64.le_trans (le_saturatingAdd _ _) (uint64_le_max_left _ _)

/-! ### A run -/

/-- The loop that looks for the newest frame, with what it has found so far. -/
def newestFrame : List Candidate → Option Candidate → Option Candidate
  | [], newest => newest
  | candidate :: candidates, newest =>
      if candidate.frame && newest.all (fun newest => newest.timestamp < candidate.timestamp) then
        newestFrame candidates (some candidate)
      else newestFrame candidates newest

/-- The local variables of `run` that the deletions change. -/
structure Cleaning where
  space : DiskSpace
  result : CleanupResult

/-- `remove_candidate`: whether to go on, and the candidate with its path cleared if the file
is gone. -/
def removeCandidate (candidate : Candidate) (s : Cleaning) :
    Prog cleanerCalls (Bool × Candidate × Cleaning) :=
  if candidate.path = [] then .done (true, candidate, s)
  else
    removeFile candidate.path fun removed =>
      if removed ≠ some true then
        .done (false, candidate, { s with result := { s.result with deletionFailed := true } })
      else
        querySpace fun answer =>
          let result := { s.result with removedFiles := s.result.removedFiles + 1 }
          let candidate := { candidate with path := [] }
          if !answer.ok then
            .done (false, candidate,
              { space := answer.space, result := { result with deletionFailed := true } })
          else
            .done (true, candidate,
              { space := answer.space
                result := { result with availableBytes := answer.space.availableBytes } })

/-- A loop over the candidates that removes those it is told to, until there is enough space
or a removal fails. -/
def sweep (recovery : UInt64) (due : Candidate → Bool) :
    List Candidate → Cleaning → Prog cleanerCalls (List Candidate × Cleaning)
  | [], s => .done ([], s)
  | candidate :: candidates, s =>
      if recovery ≤ s.space.availableBytes then .done (candidate :: candidates, s)
      else if due candidate then
        removeCandidate candidate s >>= fun (goOn, candidate, s) =>
          if !goOn then .done (candidate :: candidates, s)
          else
            sweep recovery due candidates s >>= fun (candidates, s) =>
              .done (candidate :: candidates, s)
      else
        sweep recovery due candidates s >>= fun (candidates, s) =>
          .done (candidate :: candidates, s)

/-- The candidate is not the one to be kept. -/
def unprotected (newest : Option Candidate) (candidate : Candidate) : Bool :=
  newest.all fun newest => decide (candidate.path ≠ newest.path)

def firstPass (recovery : UInt64) (cutoff : Nanoseconds) (newest : Option Candidate) :
    List Candidate → Cleaning → Prog cleanerCalls (List Candidate × Cleaning) :=
  sweep recovery fun candidate =>
    decide (candidate.timestamp < cutoff) && unprotected newest candidate

def secondPass (recovery : UInt64) (newest : Option Candidate) :
    List Candidate → Cleaning → Prog cleanerCalls (List Candidate × Cleaning) :=
  sweep recovery fun candidate => decide (candidate.path ≠ []) && unprotected newest candidate

/-- The deletions, and how the run ends. -/
def clean (cleaner : StorageCleaner) (now : Nanoseconds) (candidates : List Candidate)
    (s : Cleaning) : Prog cleanerCalls (CleanupResult × StorageCleaner) :=
  let recovery := s.result.recoveryThresholdBytes
  let newest := newestFrame candidates none
  let cutoff := clockTicks (now - clockTicks (milliseconds (cleaner.options.retention * 1000)))
  firstPass recovery cutoff newest candidates s >>= fun (candidates, s) =>
    (if !s.result.deletionFailed && decide (s.space.availableBytes < recovery) then
        secondPass recovery newest candidates s
      else .done (candidates, s)) >>= fun (_, s) =>
      let paused := s.result.deletionFailed || decide (s.space.availableBytes < recovery)
      .done ({ s.result with
          lowWatermarkActive := decide (s.space.availableBytes < s.result.lowThresholdBytes)
          writesPaused := paused },
        { cleaner with writesPaused := paused })

/-- `run`; no result if an exception leaves it. -/
def StorageCleaner.run (cleaner : StorageCleaner) (now : Nanoseconds) :
    Prog cleanerCalls (Option CleanupResult × StorageCleaner) :=
  querySpace fun answer =>
    let space := answer.space
    if !answer.ok then
      .done (some { writesPaused := true, deletionFailed := true },
        { cleaner with writesPaused := true })
    else
      let low := cleaner.options.lowThreshold space
      let recovery := cleaner.options.recoveryThreshold space
      let result : CleanupResult :=
        { availableBytes := space.availableBytes
          lowThresholdBytes := low
          recoveryThresholdBytes := recovery }
      if cleaner.writesPaused && decide (recovery ≤ space.availableBytes) then
        .done (some result, { cleaner with writesPaused := false })
      else if !cleaner.writesPaused && decide (low ≤ space.availableBytes) then
        .done (some result, cleaner)
      else
        scanCandidates cleaner.dataRoot >>= fun
          | .thrown => .done (none, cleaner)
          | .failed =>
            .done (some { result with
                lowWatermarkActive := true, writesPaused := true, deletionFailed := true },
              { cleaner with writesPaused := true })
          | .found candidates =>
            clean cleaner now candidates { space, result } >>= fun (result, cleaner) =>
              .done (some result, cleaner)

def StorageCleaner.updateOptions (cleaner : StorageCleaner) (options : CleanerOptions) :
    StorageCleaner := { cleaner with options }

def StorageCleaner.acceptingWrites (cleaner : StorageCleaner) : Bool := !cleaner.writesPaused

end Uhf.Storage
