/-
When a run leaves no expired file behind (`StorageCleaner::run`).

The expired files are the first ones of those that may go, so all of them go just if the run
does not stop before: it must be short of space at first and stay so until the last expired
file is gone.

* `DataTree.removable_split` — the expired files come first;
* `retention_kept_iff` — when no expired file is left.
-/
import UhfGateway.Storage.OldestFirst

namespace Uhf.Storage

open Acquisition Effects Containers

/-- The file is older than the retention allows. -/
def StorageCleaner.expired (cleaner : StorageCleaner) (now : Nanoseconds) (candidate : Candidate) :
    Bool := decide (candidate.timestamp < now - milliseconds (cleaner.options.retention * 1000))

/-- The expired files that a run may remove, oldest first. -/
def DataTree.expired (tree : DataTree) (cleaner : StorageCleaner) (now : Nanoseconds) :
    List Candidate := (tree.removable cleaner.dataRoot).filter (cleaner.expired now)

section

variable {tree : DataTree} {cleaner : StorageCleaner} {now : Nanoseconds} {spaces : ℕ → DiskSpace}

theorem DataTree.removable_split (tree : DataTree) (now : Nanoseconds) :
    tree.removable cleaner.dataRoot = tree.expired cleaner now ++
      (tree.removable cleaner.dataRoot).filter fun c => !cleaner.expired now c := by
  refine (filter_append_filter_not ?_).symm
  refine ((sortCandidates_pairwise _).filter _).imp fun {first second} hle hsecond => ?_
  rw [StorageCleaner.expired, decide_eq_true_eq] at hsecond ⊢
  exact lt_of_le_of_lt (Candidate.timestamp_le hle) hsecond

theorem candidate_path {root : Bytes} {directory : DataDirectory} {entry : DirectoryEntry}
    {candidate : Candidate} (h : entry.candidate root directory = some candidate) :
    candidate.path = entryPath root directory entry.name := by
  rw [DirectoryEntry.candidate] at h
  split at h
  · simp only [candidateOf, Option.map_eq_some_iff] at h
    obtain ⟨_, -, rfl⟩ := h
    rfl
  · cases h

theorem DataTree.candidates_paths (tree : DataTree) (root : Bytes) :
    (tree.candidates root).Pairwise fun first second => first.path ≠ second.path := by
  have hone : ∀ directory, ((tree.entries directory).filterMap
      (DirectoryEntry.candidate root directory)).Pairwise fun first second =>
        first.path ≠ second.path := by
    intro directory
    refine (List.pairwise_map.mp (tree.distinct directory)).filterMap _ ?_
    intro entry entry' hnames candidate hcandidate candidate' hcandidate' hpaths
    rw [candidate_path hcandidate, candidate_path hcandidate'] at hpaths
    exact hnames (entryPath_inj hpaths).2
  simp only [candidates, List.flatMap_cons, List.flatMap_nil, List.append_nil]
  refine List.pairwise_append.mpr ⟨hone _, hone _, ?_⟩
  intro frame hframe event hevent hpaths
  obtain ⟨entry, -, hframe⟩ := List.mem_filterMap.mp hframe
  obtain ⟨entry', -, hevent⟩ := List.mem_filterMap.mp hevent
  rw [candidate_path hframe, candidate_path hevent] at hpaths
  cases (entryPath_inj hpaths).1

theorem DataTree.removable_paths (tree : DataTree) (root : Bytes) :
    (tree.removable root).Pairwise fun first second => first.path ≠ second.path := by
  refine List.Pairwise.filter _ ?_
  exact (tree.candidates_paths root).perm (sortCandidates_perm _).symm fun h => h.symm

theorem DataTree.mem_removable {root : Bytes} {candidate : Candidate} :
    candidate ∈ tree.removable root ↔ candidate ∈ tree.candidates root ∧
      isNewestFrame (tree.candidates root) candidate = false := by
  rw [removable, List.mem_filter, (sortCandidates_perm _).mem_iff, Bool.not_eq_true']

/-- A run that removes the first `n` files leaves no expired one just if there are no more
than `n` of them. -/
theorem DataTree.expired_gone_iff {n : ℕ} :
    (∀ c ∈ tree.candidates cleaner.dataRoot,
        c.path ∉ ((tree.removable cleaner.dataRoot).take n).map Candidate.path →
        isNewestFrame (tree.candidates cleaner.dataRoot) c = false →
        cleaner.expired now c = false) ↔
      (tree.expired cleaner now).length ≤ n := by
  constructor
  · intro hgone
    by_contra hmore
    rw [Nat.not_le] at hmore
    obtain ⟨c, hc⟩ : ∃ c, c = (tree.expired cleaner now)[n] := ⟨_, rfl⟩
    have hexpired : c ∈ tree.expired cleaner now := by
      rw [hc]
      exact List.getElem_mem hmore
    have hlate : c ∈ (tree.removable cleaner.dataRoot).drop n := by
      rw [tree.removable_split now, List.drop_append_of_le_length (by omega), hc]
      exact List.mem_append_left _ (List.mem_drop_iff_getElem.mpr ⟨0, by simpa using hmore, by simp⟩)
    obtain ⟨hremovable, hold⟩ := List.mem_filter.mp hexpired
    obtain ⟨hcandidate, hnotNewest⟩ := DataTree.mem_removable.mp hremovable
    have hleft : c.path ∉ ((tree.removable cleaner.dataRoot).take n).map Candidate.path := by
      intro hmem
      obtain ⟨c', hc', hpath⟩ := List.mem_map.mp hmem
      have hpaths := tree.removable_paths cleaner.dataRoot
      rw [← List.take_append_drop n (tree.removable cleaner.dataRoot)] at hpaths
      exact (List.pairwise_append.mp hpaths).2.2 c' hc' c hlate hpath
    rw [hgone c hcandidate hleft hnotNewest] at hold
    cases hold
  · intro hle c hcandidate hleft hnotNewest
    rw [Bool.eq_false_iff]
    intro hold
    refine hleft (List.mem_map_of_mem ?_)
    rw [tree.removable_split now, List.take_append]
    refine List.mem_append_left _ ?_
    rw [List.take_of_length_le hle]
    exact List.mem_filter.mpr ⟨DataTree.mem_removable.mpr ⟨hcandidate, hnotNewest⟩, hold⟩

/-- A run in which nothing fails leaves no expired file but the newest frame just if there was
none, or if it was short of space at first and still was after each expired file but the last. -/
theorem retention_kept_iff {trace : Trace cleanerCalls}
    {r : Option CleanupResult × StorageCleaner} (h : (cleaner.run now).Exec trace r)
    (hanswers : ∀ act ∈ trace, tree.Answers act)
    (hspaces : ∀ i space, (probes trace)[i]? = some space → space = spaces i) :
    (∀ c ∈ tree.candidates cleaner.dataRoot, c.path ∉ removals trace →
        isNewestFrame (tree.candidates cleaner.dataRoot) c = false →
        cleaner.expired now c = false) ↔
      tree.expired cleaner now = [] ∨
        (spaces 0).availableBytes < cleaner.threshold (spaces 0) ∧
          ∀ k < (tree.expired cleaner now).length,
            (spaces k).availableBytes < cleaner.options.recoveryThreshold (spaces 0) := by
  rw [(run_removes h hanswers hspaces).1]
  have hlength : (tree.expired cleaner now).length ≤ (tree.removable cleaner.dataRoot).length :=
    List.length_filter_le _ _
  by_cases hcontent : cleaner.threshold (spaces 0) ≤ (spaces 0).availableBytes
  · have hnothing : tree.removed cleaner spaces = (tree.removable cleaner.dataRoot).take 0 := by
      rw [DataTree.removed, if_pos hcontent, List.take_zero]
    rw [hnothing, DataTree.expired_gone_iff, Nat.le_zero, List.length_eq_zero_iff, ← UInt64.not_le]
    simp [hcontent]
  · rw [DataTree.removed, if_neg hcontent, DataTree.expired_gone_iff,
      le_firstEnough_iff hlength, ← UInt64.not_le]
    simp only [hcontent, not_false_eq_true, true_and, enoughSpace_eq_false]
    constructor
    · exact .inr
    · rintro (hnone | hshort)
      · simp [hnone]
      · exact hshort

end

/-- Two days after the epoch, and a day after the files of `threeFiles` have expired. -/
def secondDay : Nanoseconds := 172800000000000

theorem smallCleaner_keeps_retention :
    threeFiles.expired smallCleaner secondDay ≠ [] ∧
      ∀ c ∈ threeFiles.candidates (ascii "d"),
        c.path ∉ removals ((smallCleaner.run secondDay).traceIn (threeFiles.env growingSpace) 0) →
        isNewestFrame (threeFiles.candidates (ascii "d")) c = false →
        smallCleaner.expired secondDay c = false := by
  refine ⟨by decide, (retention_kept_iff
    (Prog.exec_evalIn (threeFiles.env growingSpace) (smallCleaner.run secondDay) 0)
    (threeFiles.env_answers growingSpace _ 0) (threeFiles.env_spaces growingSpace _)).mpr
    (.inr ⟨?_, ?_⟩)⟩
  · decide
  · decide

/-- With a hundred bytes free the same run removes nothing. -/
theorem enough_space_keeps_expired :
    ¬ ∀ c ∈ threeFiles.candidates (ascii "d"),
      c.path ∉ removals
        ((smallCleaner.run secondDay).traceIn (threeFiles.env fun _ => ⟨100, 100⟩) 0) →
      isNewestFrame (threeFiles.candidates (ascii "d")) c = false →
      smallCleaner.expired secondDay c = false := by
  intro h
  have hold := h ⟨ascii "d/frames/frame-5-1.bin", milliseconds 5, true⟩
    (by decide) (by decide) (by decide)
  exact absurd hold (by decide)

end Uhf.Storage
