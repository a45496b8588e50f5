/-
What the cleaner removes (`StorageCleaner::run`, `StorageCleaner::scan_candidates`).

A `DataTree` holds the entries of both directories while a run looks at them.  In a run in
which nothing fails, the files that go are the oldest ones, and their number is given by the
answers of the space probe: neither the order of the listings nor the retention matters.

* `scan_found` — the scan finds the candidates of the tree, in order;
* `deletable_eq` — all but the newest frame may go;
* `run_removes` — the removals of a run.
-/
import UhfGateway.Storage.CleanerRuns

namespace Uhf.Storage

open Acquisition Effects Containers

structure DirectoryEntry where
  name : Bytes
  regular : Bool
  deriving DecidableEq, Repr

structure DataTree where
  entries : DataDirectory → List DirectoryEntry
  distinct : ∀ directory, ((entries directory).map DirectoryEntry.name).Nodup

/-- The closed file an entry is, if it is one. -/
def DirectoryEntry.candidate (root : Bytes) (directory : DataDirectory) (entry : DirectoryEntry) :
    Option Candidate :=
  if extension entry.name = ascii ".bin" ∧ entry.regular = true then
    candidateOf root directory entry.name
  else none

namespace DataTree

def candidates (tree : DataTree) (root : Bytes) : List Candidate :=
  [DataDirectory.frames, DataDirectory.events].flatMap fun directory =>
    (tree.entries directory).filterMap (DirectoryEntry.candidate root directory)

def isRegular (tree : DataTree) (directory : DataDirectory) (name : Bytes) : Bool :=
  (tree.entries directory).any fun entry => decide (entry.name = name) && entry.regular

/-- The act went well, with the tree as it is; the listings may come in any order. -/
def Answers (tree : DataTree) : Act cleanerCalls → Prop
  | ⟨.probe, answer⟩ => answer.ok = true
  | ⟨.present directory, answer⟩ =>
      answer = some true ∨ answer = some false ∧ tree.entries directory = []
  | ⟨.isDirectory _, answer⟩ => answer = some true
  | ⟨.listDirectory directory, answer⟩ =>
      ∃ entries : List DirectoryEntry, entries.Perm (tree.entries directory) ∧
        answer = some ⟨entries.map DirectoryEntry.name, true⟩
  | ⟨.isRegularFile directory name, answer⟩ => answer = some (tree.isRegular directory name)
  | ⟨.remove _, answer⟩ => answer = some true

end DataTree

/-- The first frame in order among those with the greatest timestamp. -/
def isNewestFrame (candidates : List Candidate) (candidate : Candidate) : Bool :=
  candidate.frame && candidates.all fun other =>
    !other.frame || decide (other.timestamp < candidate.timestamp) ||
      (decide (other.timestamp = candidate.timestamp) && !other.before candidate)

namespace DataTree

/-- What a run may remove, oldest first. -/
def removable (tree : DataTree) (root : Bytes) : List Candidate :=
  (sortCandidates (tree.candidates root)).filter fun candidate =>
    !isNewestFrame (tree.candidates root) candidate

/-- What a run removes if the space probe answers `spaces 0`, `spaces 1`, …: nothing if there
is enough space at first, otherwise as many files as it takes, or all. -/
def removed (tree : DataTree) (cleaner : StorageCleaner) (spaces : ℕ → DiskSpace) :
    List Candidate :=
  let files := tree.removable cleaner.dataRoot
  if cleaner.threshold (spaces 0) ≤ (spaces 0).availableBytes then []
  else
    files.take (firstEnough (enoughSpace (cleaner.options.recoveryThreshold (spaces 0))) spaces
      files.length)

/-- What the run reports then. -/
def report (tree : DataTree) (cleaner : StorageCleaner) (spaces : ℕ → DiskSpace) : CleanupResult :=
  let files := (tree.removed cleaner spaces).length
  if cleaner.threshold (spaces 0) ≤ (spaces 0).availableBytes then cleaner.firstResult (spaces 0)
  else (cleaner.firstResult (spaces 0)).removed files (spaces files)

end DataTree

/-! ### Scanning the tree -/

section Scan

variable {tree : DataTree} {root : Bytes} {directory : DataDirectory}

theorem DataTree.isRegular_eq {entry : DirectoryEntry} (h : entry ∈ tree.entries directory) :
    tree.isRegular directory entry.name = entry.regular := by
  have hsame : ∀ other ∈ tree.entries directory, other.name = entry.name → other = entry :=
    fun other hother hname => List.inj_on_of_nodup_map (tree.distinct directory) hother h hname
  rw [isRegular, Bool.eq_iff_iff, List.any_eq_true]
  constructor
  · rintro ⟨other, hother, hfound⟩
    simp only [Bool.and_eq_true, decide_eq_true_eq] at hfound
    rw [← hsame other hother hfound.1]
    exact hfound.2
  · intro hregular
    exact ⟨entry, h, by simp [hregular]⟩

theorem DataTree.Answers.not_failing {act : Act cleanerCalls} (h : tree.Answers act) :
    ¬ Failing act := by
  obtain ⟨op, answer⟩ := act
  cases op with
  | present directory =>
    rintro rfl
    obtain h | h := h
    · cases h
    · cases h.1
  | listDirectory directory => exact id
  | probe => simp_all [Failing, Answers]
  | isDirectory directory => simp_all [Failing, Answers]
  | isRegularFile directory name => simp_all [Failing, Answers]
  | remove path => simp_all [Failing, Answers]

theorem scanEntries_found {entries : List DirectoryEntry} {candidates : List Candidate}
    {trace : Trace cleanerCalls} {scan : Scan}
    (hentries : ∀ entry ∈ entries, entry ∈ tree.entries directory)
    (hanswers : ∀ act ∈ trace, tree.Answers act)
    (h : (scanEntries root directory (entries.map DirectoryEntry.name) candidates).Exec trace scan) :
    scan = .found (candidates ++
      entries.filterMap (DirectoryEntry.candidate root directory)) := by
  induction entries generalizing candidates trace with
  | nil =>
    obtain ⟨rfl, rfl⟩ := Prog.exec_done.mp h
    simp
  | cons entry entries ih =>
    obtain ⟨hentry, hrest⟩ := List.forall_mem_cons.mp hentries
    rw [List.map_cons, scanEntries] at h
    refine h.of_ite (fun hextension h => ?_) (fun hextension h => ?_)
    · rw [ih hrest hanswers h, List.filterMap_cons_none (by simp [DirectoryEntry.candidate, hextension])]
    · rw [not_not] at hextension
      obtain ⟨regular, rest, rfl, hcall⟩ := Prog.exec_call.mp h
      obtain ⟨hregular, hlater⟩ := List.forall_mem_cons.mp hanswers
      obtain rfl : regular = some (tree.isRegular directory entry.name) := hregular
      rw [DataTree.isRegular_eq hentry] at hcall
      cases hkind : entry.regular with
      | false =>
        rw [hkind] at hcall
        rw [ih hrest hlater hcall,
          List.filterMap_cons_none (by simp [DirectoryEntry.candidate, hkind])]
      | true =>
        rw [hkind] at hcall
        rw [ih hrest hlater hcall, List.filterMap_cons, DirectoryEntry.candidate,
          if_pos ⟨hextension, hkind⟩]
        cases candidateOf root directory entry.name with
        | none => simp
        | some candidate => simp

theorem scanDirectory_found {candidates : List Candidate} {trace : Trace cleanerCalls} {scan : Scan}
    (hanswers : ∀ act ∈ trace, tree.Answers act)
    (h : (scanDirectory root directory candidates).Exec trace scan) :
    ∃ found, scan = .found (candidates ++ found) ∧
      found.Perm ((tree.entries directory).filterMap (DirectoryEntry.candidate root directory)) := by
  rw [scanDirectory] at h
  obtain ⟨present, rest, rfl, hpresent⟩ := Prog.exec_call.mp h
  obtain ⟨hthere, hlater⟩ := List.forall_mem_cons.mp hanswers
  obtain rfl | ⟨rfl, hempty⟩ := hthere
  · obtain ⟨isDirectory, rest, rfl, hdirectory⟩ := Prog.exec_call.mp hpresent
    obtain ⟨his, hlater⟩ := List.forall_mem_cons.mp hlater
    refine hdirectory.of_ite (fun hnot _ => absurd his hnot) (fun _ h => ?_)
    obtain ⟨listing, rest, rfl, hlisting⟩ := Prog.exec_call.mp h
    obtain ⟨⟨entries, hperm, rfl⟩, hscanned⟩ := List.forall_mem_cons.mp hlater
    obtain ⟨first, last, scanned, rfl, hscan, hend⟩ := Prog.exec_bind.mp hlisting
    obtain rfl := scanEntries_found (fun entry hentry => hperm.mem_iff.mp hentry)
      (List.forall_mem_append.mp hscanned).1 hscan
    obtain ⟨rfl, rfl⟩ := Prog.exec_done.mp hend
    exact ⟨_, rfl, hperm.filterMap _⟩
  · obtain ⟨rfl, rfl⟩ := Prog.exec_done.mp hpresent
    exact ⟨[], by rw [List.append_nil], by rw [hempty]; exact .nil⟩

/-- The candidates of a tree are known by their paths. -/
theorem DataTree.candidates_inj {first second : Candidate} (hfirst : first ∈ tree.candidates root)
    (hsecond : second ∈ tree.candidates root) (h : first.path = second.path) : first = second := by
  have hentry : ∀ {candidate}, candidate ∈ tree.candidates root →
      ∃ directory name, candidateOf root directory name = some candidate := by
    intro candidate hmem
    simp only [candidates, List.mem_flatMap, List.mem_filterMap] at hmem
    obtain ⟨directory, -, entry, -, hcandidate⟩ := hmem
    rw [DirectoryEntry.candidate] at hcandidate
    split at hcandidate
    · exact ⟨directory, entry.name, hcandidate⟩
    · cases hcandidate
  obtain ⟨directory, name, hname⟩ := hentry hfirst
  obtain ⟨directory', name', hname'⟩ := hentry hsecond
  have hpaths : entryPath root directory name = entryPath root directory' name' := by
    simp only [candidateOf, Option.map_eq_some_iff] at hname hname'
    obtain ⟨_, -, rfl⟩ := hname
    obtain ⟨_, -, rfl⟩ := hname'
    exact h
  obtain ⟨rfl, rfl⟩ := entryPath_inj hpaths
  exact Option.some.inj (hname.symm.trans hname')

/-- There is only one way to sort the candidates. -/
theorem sortCandidates_congr {first second : List Candidate} (h : first.Perm second)
    (hinj : ∀ c ∈ first, ∀ c' ∈ first, c.path = c'.path → c = c') :
    sortCandidates first = sortCandidates second := by
  refine List.Perm.eq_of_pairwise ?_ (sortCandidates_pairwise first)
    (sortCandidates_pairwise second)
    ((sortCandidates_perm first).trans (h.trans (sortCandidates_perm second).symm))
  intro c c' hc hc' hle hge
  refine hinj c ((sortCandidates_perm first).mem_iff.mp hc) c'
    (h.mem_iff.mpr ((sortCandidates_perm second).mem_iff.mp hc')) ?_
  rcases Candidate.le_iff.mp hle with hlt | ⟨-, hpath⟩
  · exact absurd (Candidate.timestamp_le hge) (not_le_of_gt hlt)
  · rcases Candidate.le_iff.mp hge with hlt | ⟨-, hpath'⟩
    · exact absurd (Candidate.timestamp_le hle) (not_le_of_gt hlt)
    · exact List.le_antisymm hpath hpath'

theorem scan_found {trace : Trace cleanerCalls} {scan : Scan}
    (hanswers : ∀ act ∈ trace, tree.Answers act) (h : (scanCandidates root).Exec trace scan) :
    scan = .found (sortCandidates (tree.candidates root)) := by
  obtain ⟨first, rest, scanned, rfl, hframes, hrest⟩ := Prog.exec_bind.mp h
  obtain ⟨hfirst, hanswers⟩ := List.forall_mem_append.mp hanswers
  obtain ⟨frames, rfl, hframesPerm⟩ := scanDirectory_found hfirst hframes
  obtain ⟨second, last, scanned, rfl, hevents, hend⟩ := Prog.exec_bind.mp hrest
  obtain ⟨events, rfl, heventsPerm⟩ :=
    scanDirectory_found (List.forall_mem_append.mp hanswers).1 hevents
  obtain ⟨-, rfl⟩ := Prog.exec_done.mp hend
  have hperm : (frames ++ events).Perm (tree.candidates root) := by
    simpa [DataTree.candidates] using hframesPerm.append heventsPerm
  rw [List.nil_append, sortCandidates_congr hperm]
  intro c hc c' hc'
  exact DataTree.candidates_inj (hperm.mem_iff.mp hc) (hperm.mem_iff.mp hc')

end Scan

/-! ### The newest frame -/

theorem isNewestFrame_iff {candidates : List Candidate} {candidate : Candidate} :
    isNewestFrame candidates candidate = true ↔ candidate.frame = true ∧
      ∀ other ∈ candidates, other.frame = true → other.timestamp < candidate.timestamp ∨
        other.timestamp = candidate.timestamp ∧ candidate.le other := by
  simp only [isNewestFrame, Candidate.le, Bool.and_eq_true, List.all_eq_true, Bool.or_eq_true,
    Bool.not_eq_true', decide_eq_true_eq]
  refine and_congr_right fun _ => forall₂_congr fun other _ => ?_
  cases other.frame <;> simp

/-- The newest frame of some candidates, or that there is none. -/
def IsNewest (candidates : List Candidate) : Option Candidate → Prop
  | none => ∀ c ∈ candidates, c.frame = false
  | some n => n ∈ candidates ∧ isNewestFrame candidates n = true

/-- The loop over sorted candidates keeps the newest frame of those it has seen. -/
theorem newestFrame_isNewest {seen rest : List Candidate} {newest : Option Candidate}
    (hsorted : (seen ++ rest).Pairwise Candidate.le) (hseen : IsNewest seen newest) :
    IsNewest (seen ++ rest) (newestFrame rest newest) := by
  induction rest generalizing seen newest with
  | nil =>
    rw [List.append_nil]
    exact hseen
  | cons candidate rest ih =>
    have hbefore : ∀ c ∈ seen, c.le candidate := fun c hc =>
      (List.pairwise_append.mp hsorted).2.2 c hc candidate List.mem_cons_self
    rw [List.append_cons] at hsorted ⊢
    rw [newestFrame]
    split
    · next htaken =>
      simp only [Bool.and_eq_true] at htaken
      refine ih hsorted ⟨by simp, isNewestFrame_iff.mpr ⟨htaken.1, ?_⟩⟩
      intro other hother hframe
      obtain hother | hother := List.mem_append.mp hother
      · cases newest with
        | none => exact absurd hframe (by simp [hseen other hother])
        | some n =>
          have hnewer : n.timestamp < candidate.timestamp := by simpa using htaken.2
          obtain hlt | ⟨heq, -⟩ := (isNewestFrame_iff.mp hseen.2).2 other hother hframe
          · exact .inl (hlt.trans hnewer)
          · exact .inl (heq ▸ hnewer)
      · obtain rfl := List.mem_singleton.mp hother
        exact .inr ⟨rfl, (Candidate.le_total other other).elim id id⟩
    · next hskipped =>
      refine ih hsorted ?_
      cases newest with
      | none =>
        intro c hc
        obtain hc | hc := List.mem_append.mp hc
        · exact hseen c hc
        · obtain rfl := List.mem_singleton.mp hc
          simpa using hskipped
      | some n =>
        refine ⟨List.mem_append_left _ hseen.1, isNewestFrame_iff.mpr ?_⟩
        obtain ⟨hframe, hnewest⟩ := isNewestFrame_iff.mp hseen.2
        refine ⟨hframe, fun other hother hotherFrame => ?_⟩
        obtain hother | hother := List.mem_append.mp hother
        · exact hnewest other hother hotherFrame
        · obtain rfl := List.mem_singleton.mp hother
          have hle := hbefore n hseen.1
          have hnotNewer : other.timestamp ≤ n.timestamp := by simpa [hotherFrame] using hskipped
          exact .inr ⟨le_antisymm hnotNewer (Candidate.timestamp_le hle), hle⟩

/-- What is not protected in sorted candidates with paths of their own is all but the newest
frame. -/
theorem deletable_eq {candidates : List Candidate} (hsorted : candidates.Pairwise Candidate.le)
    (hinj : ∀ c ∈ candidates, ∀ c' ∈ candidates, c.path = c'.path → c = c') :
    deletable candidates = candidates.filter fun c => !isNewestFrame candidates c := by
  have hnewest : IsNewest ([] ++ candidates) (newestFrame candidates none) :=
    newestFrame_isNewest hsorted (by simp [IsNewest])
  rw [List.nil_append] at hnewest
  rw [deletable]
  refine List.filter_congr fun c hc => ?_
  cases hfound : newestFrame candidates none with
  | none =>
    rw [hfound] at hnewest
    simp [unprotected, isNewestFrame, hnewest c hc]
  | some n =>
    rw [hfound] at hnewest
    obtain ⟨hmem, hn⟩ := hnewest
    rw [unprotected, Option.all_some]
    by_cases hpath : c.path = n.path
    · obtain rfl := hinj c hc n hmem hpath
      simp [hn]
    · -- two newest frames would have one path
      have hother : isNewestFrame candidates c = false := by
        rw [Bool.eq_false_iff]
        intro hcNewest
        obtain ⟨hcFrame, hcOthers⟩ := isNewestFrame_iff.mp hcNewest
        obtain ⟨hnFrame, hnOthers⟩ := isNewestFrame_iff.mp hn
        obtain hlt | ⟨heq, hcn⟩ := hcOthers n hmem hnFrame
        · obtain hlt' | ⟨heq, -⟩ := hnOthers c hc hcFrame
          · exact lt_asymm hlt hlt'
          · exact hlt.ne' heq
        · obtain hlt' | ⟨-, hnc⟩ := hnOthers c hc hcFrame
          · exact hlt'.ne' heq
          · have hle := Candidate.le_iff.mp hcn
            have hge := Candidate.le_iff.mp hnc
            simp only [heq, lt_self_iff_false, true_and, false_or] at hle hge
            exact hpath (List.le_antisymm hle hge)
      simp [hpath, hother]

theorem DataTree.deletable_sorted (tree : DataTree) (root : Bytes) :
    deletable (sortCandidates (tree.candidates root)) = tree.removable root := by
  have hmem : ∀ {c}, c ∈ sortCandidates (tree.candidates root) ↔ c ∈ tree.candidates root :=
    (sortCandidates_perm _).mem_iff
  rw [deletable_eq (sortCandidates_pairwise _)
    (fun c hc c' hc' => DataTree.candidates_inj (hmem.mp hc) (hmem.mp hc')), removable]
  refine List.filter_congr fun c _ => congrArg (! ·) ?_
  rw [Bool.eq_iff_iff, isNewestFrame_iff, isNewestFrame_iff]
  simp only [hmem]

/-! ### A tree as an environment -/

/-- The calls answered from the tree, the space probe by the spaces in turn. -/
def DataTree.env (tree : DataTree) (spaces : ℕ → DiskSpace) : Env cleanerCalls ℕ where
  answer shown
    | .probe => (⟨true, spaces shown⟩, shown + 1)
    | .present _ => (some true, shown)
    | .isDirectory _ => (some true, shown)
    | .listDirectory directory =>
        (some ⟨(tree.entries directory).map DirectoryEntry.name, true⟩, shown)
    | .isRegularFile directory name => (some (tree.isRegular directory name), shown)
    | .remove _ => (some true, shown)

theorem DataTree.env_answers (tree : DataTree) (spaces : ℕ → DiskSpace) {α : Type}
    (p : Prog cleanerCalls α) (shown : ℕ) :
    ∀ act ∈ p.traceIn (tree.env spaces) shown, tree.Answers act := by
  refine Prog.traceIn_forall (fun shown op => ?_) p shown
  cases op with
  | listDirectory directory => exact ⟨_, .refl _, rfl⟩
  | present directory => exact .inl rfl
  | _ => rfl

theorem DataTree.env_spaces_add (tree : DataTree) (spaces : ℕ → DiskSpace) {α : Type}
    (p : Prog cleanerCalls α) (shown : ℕ) :
    ∀ i space, (probes (p.traceIn (tree.env spaces) shown))[i]? = some space →
      space = spaces (shown + i) := by
  induction p generalizing shown with
  | done a => simp [Prog.traceIn, probes]
  | call op k ih =>
    intro i space hi
    cases op with
    | probe =>
      cases i with
      | zero => exact (Option.some.inj hi).symm
      | succ i =>
        rw [← Nat.succ_add_eq_add_succ]
        exact ih _ _ i space hi
    | _ => exact ih _ _ i space hi

theorem DataTree.env_spaces (tree : DataTree) (spaces : ℕ → DiskSpace) {α : Type}
    (p : Prog cleanerCalls α) :
    ∀ i space, (probes (p.traceIn (tree.env spaces) 0))[i]? = some space → space = spaces i := by
  intro i space hi
  rw [tree.env_spaces_add spaces p 0 i space hi, Nat.zero_add]

/-! ### Runs -/

section Run

variable {tree : DataTree} {cleaner : StorageCleaner} {now : Nanoseconds} {spaces : ℕ → DiskSpace}
  {trace : Trace cleanerCalls} {r : Option CleanupResult × StorageCleaner}

/-- A run in which nothing fails removes the oldest files, as many as it takes. -/
theorem run_removes (h : (cleaner.run now).Exec trace r)
    (hanswers : ∀ act ∈ trace, tree.Answers act)
    (hspaces : ∀ i space, (probes trace)[i]? = some space → space = spaces i) :
    removals trace = (tree.removed cleaner spaces).map Candidate.path ∧
      r = (some (tree.report cleaner spaces),
        { cleaner with writesPaused := (tree.report cleaner spaces).writesPaused }) := by
  have hrun := run_cases h
  obtain ⟨result, cleaner'⟩ := r
  cases hrun with
  | failed hfailed =>
    obtain ⟨act, hact, hfailing⟩ := hfailed
    exact absurd hfailing (hanswers act hact).not_failing
  | @content space hcontent =>
    obtain rfl : space = spaces 0 := hspaces 0 space rfl
    rw [DataTree.report, DataTree.removed, if_pos hcontent, if_pos hcontent]
    exact ⟨rfl, rfl⟩
  | @thrown space scanned scan =>
    obtain ⟨-, hscanned⟩ := List.forall_mem_cons.mp hanswers
    cases scan_found hscanned scan
  | @cleaned space last scanned candidates done hshort scan drains =>
    obtain ⟨-, hrest⟩ := List.forall_mem_cons.mp hanswers
    cases scan_found (List.forall_mem_append.mp hrest).1 scan
    obtain ⟨hnoRemoval, hnoProbe⟩ := scan_quiet scan
    obtain rfl : space = spaces 0 := hspaces 0 space rfl
    have hnotContent := UInt64.not_le.mpr hshort
    have hprobes : probes (⟨.probe, ⟨true, spaces 0⟩⟩ :: (scanned ++ removalActs done)) =
        spaces 0 :: done.map Prod.snd := by
      rw [← List.singleton_append, probes_append, probes_append, hnoProbe, probes_removalActs]
      rfl
    have hlevels : ∀ i after, (done.map Prod.snd)[i]? = some after → after = spaces (i + 1) :=
      fun i after hi => hspaces (i + 1) after (by rw [hprobes]; exact hi)
    have hpaths : done.map Prod.fst = (tree.removed cleaner spaces).map Candidate.path := by
      rw [DataTree.removed, if_neg hnotContent, List.map_take]
      rw [DataTree.deletable_sorted] at drains
      have hitems := drains.items hlevels
      rwa [List.length_map] at hitems
    have hlength : done.length = (tree.removed cleaner spaces).length := by
      simpa using congrArg List.length hpaths
    have hlast : last = spaces done.length := drains.last_eq hlevels
    constructor
    · rw [← hpaths, ← List.singleton_append, removals_append, removals_append, hnoRemoval,
        removals_removalActs]
      rfl
    · rw [DataTree.report, if_neg hnotContent, ← hlength, ← hlast]
      rfl

/-- A run in which nothing fails removes the oldest candidates but the newest frame: none if
there is enough space at first, otherwise as few as the space probe asks for, or all of them.
What it removes and reports has nothing to do with the order of the listings. -/
theorem deletes_oldest_first (h : (cleaner.run now).Exec trace r)
    (hanswers : ∀ act ∈ trace, tree.Answers act)
    (hspaces : ∀ i space, (probes trace)[i]? = some space → space = spaces i) :
    removals trace = (tree.removed cleaner spaces).map Candidate.path ∧
      (∀ c ∈ tree.candidates cleaner.dataRoot,
        isNewestFrame (tree.candidates cleaner.dataRoot) c = true → c.path ∉ removals trace) ∧
      (∀ path ∈ removals trace, ∃ c ∈ tree.candidates cleaner.dataRoot, c.path = path) ∧
      r = (some (tree.report cleaner spaces),
        { cleaner with writesPaused := (tree.report cleaner spaces).writesPaused }) := by
  obtain ⟨hremovals, hr⟩ := run_removes h hanswers hspaces
  have hremoved : ∀ c ∈ tree.removed cleaner spaces,
      c ∈ tree.candidates cleaner.dataRoot ∧
        isNewestFrame (tree.candidates cleaner.dataRoot) c = false := by
    intro c hc
    rw [DataTree.removed] at hc
    split at hc
    · cases hc
    · have hmem := List.mem_filter.mp (List.mem_of_mem_take hc)
      exact ⟨(sortCandidates_perm _).mem_iff.mp hmem.1, by simpa using hmem.2⟩
  refine ⟨hremovals, ?_, ?_, hr⟩
  · intro c hc hnewest hmem
    rw [hremovals, List.mem_map] at hmem
    obtain ⟨c', hc', hpath⟩ := hmem
    obtain ⟨hcandidate, hnot⟩ := hremoved c' hc'
    obtain rfl := DataTree.candidates_inj hcandidate hc hpath
    rw [hnewest] at hnot
    cases hnot
  · intro path hpath
    rw [hremovals, List.mem_map] at hpath
    obtain ⟨c, hc, rfl⟩ := hpath
    exact ⟨c, (hremoved c hc).1, rfl⟩

end Run

/-- Two frames and one event; the older frame and the event have the same age. -/
def threeFiles : DataTree where
  entries
    | .frames => [⟨ascii "frame-9-2.bin", true⟩, ⟨ascii "frame-5-1.bin", true⟩,
        ⟨ascii "frame-3-0.tmp", true⟩]
    | .events => [⟨ascii "event-5-0.bin", true⟩]
  distinct directory := by cases directory <;> decide

/-- Space that grows by one byte with each look at it. -/
def growingSpace (shown : ℕ) : DiskSpace := ⟨0, UInt64.ofNat shown⟩

/-- A cleaner that asks for one byte, and for two once it has begun to remove files. -/
def smallCleaner : StorageCleaner :=
  { dataRoot := ascii "d"
    options := { minFreeBytes := 1, recoveryExtraBytes := 1 } }

theorem smallCleaner_deletes_oldest_first :
    removals ((smallCleaner.run 0).traceIn (threeFiles.env growingSpace) 0) =
        [ascii "d/events/event-5-0.bin", ascii "d/frames/frame-5-1.bin"] ∧
      threeFiles.report smallCleaner growingSpace =
        { availableBytes := 2, removedFiles := 2, lowThresholdBytes := 1
          recoveryThresholdBytes := 2 } := by
  have hdeletes := deletes_oldest_first
    (Prog.exec_evalIn (threeFiles.env growingSpace) (smallCleaner.run 0) 0)
    (threeFiles.env_answers growingSpace _ 0) (threeFiles.env_spaces growingSpace _)
  have hremoved : (threeFiles.removed smallCleaner growingSpace).map Candidate.path =
      [ascii "d/events/event-5-0.bin", ascii "d/frames/frame-5-1.bin"] := by decide
  exact ⟨hdeletes.1.trans hremoved, by decide⟩

end Uhf.Storage
