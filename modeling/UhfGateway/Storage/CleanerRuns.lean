/-
What a run of the cleaner can do (`StorageCleaner::run`).

The two loops of a run work off one queue: the expired files that may go, then the others,
and as the candidates are sorted by time these are the files that may go in their order.

* `sweep_cases` — one loop over the candidates;
* `clean_cases` — both loops;
* `run_cases` — the runs of the cleaner, by how far they get (`CleanerRun`).
-/
import UhfGateway.Containers.Drain
import UhfGateway.Storage.StorageCleaner

namespace Uhf.Storage

open Acquisition Effects Containers

/-! ### Acts -/

/-- The act is a failure, as the cleaner sees it.  A directory that cannot be opened is not
one: the scan takes it for an empty directory. -/
def Failing : Act cleanerCalls → Prop
  | ⟨.probe, answer⟩ => answer.ok = false
  | ⟨.present _, answer⟩ => answer = none
  | ⟨.isDirectory _, answer⟩ => answer ≠ some true
  | ⟨.listDirectory _, _⟩ => False
  | ⟨.isRegularFile _ _, answer⟩ => answer = none
  | ⟨.remove _, answer⟩ => answer ≠ some true

/-- The files that were to be removed, oldest act first. -/
def removals (trace : Trace cleanerCalls) : List Bytes :=
  trace.filterMap fun act =>
    match act.op with
    | .remove path => some path
    | _ => none

/-- What the space probe has shown. -/
def probes (trace : Trace cleanerCalls) : List DiskSpace :=
  trace.filterMap fun act =>
    match act with
    | ⟨.probe, answer⟩ => some answer.space
    | _ => none

/-- Files removed one after the other, with the space that the probe shows after each. -/
def removalActs (done : List (Bytes × DiskSpace)) : Trace cleanerCalls :=
  done.flatMap fun step => [⟨.remove step.1, some true⟩, ⟨.probe, ⟨true, step.2⟩⟩]

@[simp] theorem removals_append (first second : Trace cleanerCalls) :
    removals (first ++ second) = removals first ++ removals second := List.filterMap_append

@[simp] theorem probes_append (first second : Trace cleanerCalls) :
    probes (first ++ second) = probes first ++ probes second := List.filterMap_append

@[simp] theorem removals_removalActs (done : List (Bytes × DiskSpace)) :
    removals (removalActs done) = done.map Prod.fst := by
  induction done with
  | nil => rfl
  | cons step done ih =>
    rw [removalActs, List.flatMap_cons, removals_append, List.map_cons]
    exact congrArg (step.1 :: ·) ih

@[simp] theorem probes_removalActs (done : List (Bytes × DiskSpace)) :
    probes (removalActs done) = done.map Prod.snd := by
  induction done with
  | nil => rfl
  | cons step done ih =>
    rw [removalActs, List.flatMap_cons, probes_append, List.map_cons]
    exact congrArg (step.2 :: ·) ih

theorem removalActs_append (first second : List (Bytes × DiskSpace)) :
    removalActs (first ++ second) = removalActs first ++ removalActs second := List.flatMap_append

theorem not_failing_removalActs (done : List (Bytes × DiskSpace)) :
    ∀ act ∈ removalActs done, ¬ Failing act := by
  intro act hact
  rw [removalActs, List.mem_flatMap] at hact
  obtain ⟨step, -, hact⟩ := hact
  simp only [List.mem_cons, List.not_mem_nil, or_false] at hact
  obtain rfl | rfl := hact
  · simp [Failing]
  · simp [Failing]

def enoughSpace (recovery : UInt64) (space : DiskSpace) : Bool :=
  decide (recovery ≤ space.availableBytes)

theorem enoughSpace_eq_false {recovery : UInt64} {space : DiskSpace} :
    enoughSpace recovery space = false ↔ space.availableBytes < recovery := by
  rw [enoughSpace, decide_eq_false_iff_not, UInt64.not_le]

theorem not_enoughSpace (recovery : UInt64) (space : DiskSpace) :
    (!enoughSpace recovery space) = decide (space.availableBytes < recovery) := by
  cases h : enoughSpace recovery space with
  | true =>
    rw [enoughSpace, decide_eq_true_eq, ← UInt64.not_lt] at h
    simp [h]
  | false => simp [enoughSpace_eq_false.mp h]

/-! ### One loop -/

/-- The candidate once its file has been removed. -/
def Candidate.cleared (candidate : Candidate) : Candidate := { candidate with path := [] }

theorem removeCandidate_cases {candidate candidate' : Candidate} {s s' : Cleaning} {goOn : Bool}
    {trace : Trace cleanerCalls} (hpath : candidate.path ≠ [])
    (h : (removeCandidate candidate s).Exec trace (goOn, candidate', s')) :
    (goOn = false ∧ s'.result.deletionFailed = true ∧ ∃ act ∈ trace, Failing act) ∨
      ∃ space, goOn = true ∧ trace = removalActs [(candidate.path, space)] ∧
        candidate' = candidate.cleared ∧ s'.space = space ∧
        s'.result = { s.result with
          removedFiles := s.result.removedFiles + 1, availableBytes := space.availableBytes } := by
  rw [removeCandidate, if_neg hpath, removeFile] at h
  obtain ⟨removed, rest, rfl, hdone⟩ := Prog.exec_call.mp h
  refine hdone.of_ite (fun hremoved h => ?_) (fun hremoved h => ?_)
  · obtain ⟨rfl, hr⟩ := Prog.exec_done.mp h
    simp only [Prod.mk.injEq] at hr
    obtain ⟨rfl, rfl, rfl⟩ := hr
    exact .inl ⟨rfl, rfl, _, List.mem_cons_self, hremoved⟩
  · rw [not_not] at hremoved
    rw [querySpace] at h
    obtain ⟨answer, rest, rfl, hshown⟩ := Prog.exec_call.mp h
    refine hshown.of_ite (fun hok h => ?_) (fun hok h => ?_)
    · obtain ⟨rfl, hr⟩ := Prog.exec_done.mp h
      simp only [Prod.mk.injEq] at hr
      obtain ⟨rfl, rfl, rfl⟩ := hr
      have hfailing : Failing ⟨.probe, answer⟩ := by simpa [Failing] using hok
      exact .inl ⟨rfl, rfl, _, by simp, hfailing⟩
    · obtain ⟨rfl, hr⟩ := Prog.exec_done.mp h
      simp only [Prod.mk.injEq] at hr
      obtain ⟨rfl, rfl, rfl⟩ := hr
      obtain ⟨ok, space⟩ := answer
      obtain rfl : ok = true := by simpa using hok
      subst hremoved
      exact .inr ⟨space, rfl, rfl, rfl, rfl, rfl⟩

/-- A loop either fails or works off the candidates that are due. -/
theorem sweep_cases {recovery : UInt64} {due : Candidate → Bool}
    {candidates candidates' : List Candidate} {s s' : Cleaning} {trace : Trace cleanerCalls}
    (hdue : ∀ candidate ∈ candidates, due candidate = true → candidate.path ≠ [])
    (hshown : s.result.availableBytes = s.space.availableBytes)
    (h : (sweep recovery due candidates s).Exec trace (candidates', s')) :
    (s'.result.deletionFailed = true ∧ ∃ act ∈ trace, Failing act) ∨
      ∃ done, trace = removalActs done ∧
        s'.result = { s.result with
          removedFiles := s.result.removedFiles + done.length
          availableBytes := s'.space.availableBytes } ∧
        Drains (enoughSpace recovery) ((candidates.filter due).map Candidate.path) s.space done
          s'.space ∧
        (enoughSpace recovery s'.space = false →
          candidates' = candidates.map fun candidate =>
            if due candidate then candidate.cleared else candidate) := by
  induction candidates generalizing s trace candidates' with
  | nil =>
    obtain ⟨rfl, hr⟩ := Prog.exec_done.mp h
    simp only [Prod.mk.injEq] at hr
    obtain ⟨rfl, rfl⟩ := hr
    exact .inr ⟨[], rfl, by rw [← hshown]; rfl, .dry, fun _ => rfl⟩
  | cons candidate candidates ih =>
    have hrest : ∀ c ∈ candidates, due c = true → c.path ≠ [] := fun c hc =>
      hdue c (List.mem_cons_of_mem _ hc)
    rw [sweep] at h
    refine h.of_ite (fun henough h => ?_) (fun henough h => ?_)
    · obtain ⟨rfl, hr⟩ := Prog.exec_done.mp h
      simp only [Prod.mk.injEq] at hr
      obtain ⟨rfl, rfl⟩ := hr
      have hstop : enoughSpace recovery s'.space = true := by simpa [enoughSpace] using henough
      refine .inr ⟨[], rfl, by rw [← hshown]; rfl, .stop hstop, ?_⟩
      intro hshort
      rw [hstop] at hshort
      cases hshort
    · have hshort : enoughSpace recovery s.space = false := by simpa [enoughSpace] using henough
      refine h.of_ite (fun hcandidate h => ?_) (fun hcandidate h => ?_)
      · obtain ⟨first, later, ⟨goOn, candidate', s₁⟩, rfl, hremove, h⟩ := Prog.exec_bind.mp h
        obtain ⟨rfl, hfailed, act, hact, hfailing⟩ | ⟨space, rfl, rfl, rfl, hspace, hresult⟩ :=
          removeCandidate_cases (hdue candidate List.mem_cons_self hcandidate) hremove
        · obtain ⟨rfl, hr⟩ := Prog.exec_done.mp h
          simp only [Prod.mk.injEq] at hr
          obtain ⟨rfl, rfl⟩ := hr
          exact .inl ⟨hfailed, act, by simpa using hact, hfailing⟩
        · obtain ⟨further, last, ⟨cs, s₂⟩, rfl, hsweep, h⟩ := Prog.exec_bind.mp h
          obtain ⟨rfl, hr⟩ := Prog.exec_done.mp h
          simp only [Prod.mk.injEq] at hr
          obtain ⟨rfl, rfl⟩ := hr
          obtain ⟨hfailed, act, hact, hfailing⟩ | ⟨done, rfl, hdone, hdrains, hcs⟩ :=
            ih hrest (by rw [hresult, hspace]) hsweep
          · exact .inl ⟨hfailed, act, by simp [hact], hfailing⟩
          · refine .inr ⟨(candidate.path, space) :: done, by simp [removalActs], ?_, ?_, ?_⟩
            · rw [hdone, hresult, List.length_cons, Nat.add_assoc, Nat.add_comm 1]
            · rw [List.filter_cons_of_pos hcandidate, List.map_cons]
              rw [hspace] at hdrains
              exact .next hshort hdrains
            · intro hlast
              rw [hcs hlast, List.map_cons, if_pos hcandidate]
      · obtain ⟨further, last, ⟨cs, s₂⟩, rfl, hsweep, h⟩ := Prog.exec_bind.mp h
        obtain ⟨rfl, hr⟩ := Prog.exec_done.mp h
        simp only [Prod.mk.injEq] at hr
        obtain ⟨rfl, rfl⟩ := hr
        obtain ⟨hfailed, act, hact, hfailing⟩ | ⟨done, rfl, hdone, hdrains, hcs⟩ :=
          ih hrest hshown hsweep
        · exact .inl ⟨hfailed, act, by simp [hact], hfailing⟩
        · refine .inr ⟨done, by simp, hdone, ?_, ?_⟩
          · rw [List.filter_cons_of_neg hcandidate]
            exact hdrains
          · intro hlast
            rw [hcs hlast, List.map_cons, if_neg hcandidate]

/-! ### Scanning -/

theorem joinPath_eq (base : Bytes) : ∃ before, ∀ name, joinPath base name = before ++ name := by
  by_cases h : base = [] ∨ base.getLast? = some '/'.toUInt8
  · refine ⟨base, fun name => ?_⟩
    rw [joinPath, if_pos h]
  · refine ⟨base ++ ['/'.toUInt8], fun name => ?_⟩
    rw [joinPath, if_neg h, List.append_assoc, List.singleton_append]

theorem entryPath_eq (root : Bytes) :
    ∃ before, ∀ directory name,
      entryPath root directory name = before ++ (directory.name ++ '/'.toUInt8 :: name) := by
  obtain ⟨before, hbefore⟩ := joinPath_eq root
  refine ⟨before, fun directory name => ?_⟩
  have hlast : ¬ (before ++ directory.name = [] ∨
      (before ++ directory.name).getLast? = some '/'.toUInt8) := by
    cases directory <;> simp [DataDirectory.name, ascii, List.getLast?_append] <;> decide
  rw [entryPath, hbefore, joinPath, if_neg hlast, List.append_assoc]

theorem entryPath_ne_nil (root : Bytes) (directory : DataDirectory) (name : Bytes) :
    entryPath root directory name ≠ [] := by
  obtain ⟨before, hbefore⟩ := entryPath_eq root
  simp [hbefore]

theorem entryPath_inj {root : Bytes} {directory directory' : DataDirectory} {name name' : Bytes}
    (h : entryPath root directory name = entryPath root directory' name') :
    directory = directory' ∧ name = name' := by
  obtain ⟨before, hbefore⟩ := entryPath_eq root
  rw [hbefore, hbefore] at h
  have hlength : directory.name.length = directory'.name.length := by
    cases directory <;> cases directory' <;> rfl
  obtain ⟨hdirectory, hname⟩ := List.append_inj (List.append_cancel_left h) hlength
  refine ⟨?_, (List.cons.inj hname).2⟩
  cases directory <;> cases directory' <;> simp_all [DataDirectory.name, ascii]

/-- A call of the scan. -/
def Scanning : CleanerCall → Prop
  | .probe => False
  | .remove _ => False
  | _ => True

theorem scanEntries_only (root : Bytes) (directory : DataDirectory) (names : List Bytes)
    (candidates : List Candidate) : (scanEntries root directory names candidates).Only Scanning := by
  induction names generalizing candidates with
  | nil => trivial
  | cons name names ih =>
    rw [scanEntries]
    refine Prog.only_ite (fun _ => ih _) (fun _ => ⟨trivial, ?_⟩)
    intro regular
    match regular with
    | none => trivial
    | some false => exact ih _
    | some true => exact ih _

theorem scanDirectory_only (root : Bytes) (directory : DataDirectory)
    (candidates : List Candidate) : (scanDirectory root directory candidates).Only Scanning := by
  refine ⟨trivial, fun present => ?_⟩
  match present with
  | none => trivial
  | some false => trivial
  | some true =>
    refine ⟨trivial, fun isDirectory => Prog.only_ite (fun _ => trivial) (fun _ => ⟨trivial, ?_⟩)⟩
    intro listing
    match listing with
    | none => trivial
    | some listing =>
      refine Prog.only_bind (scanEntries_only _ _ _ _) fun scan => ?_
      cases scan <;> trivial

theorem scanCandidates_only (root : Bytes) : (scanCandidates root).Only Scanning := by
  refine Prog.only_bind (scanDirectory_only _ _ _) fun scan => ?_
  cases scan with
  | found frames =>
    refine Prog.only_bind (scanDirectory_only _ _ _) fun scan => ?_
    cases scan <;> trivial
  | failed => trivial
  | thrown => trivial

/-- A scan shows no free space and removes nothing. -/
theorem scan_quiet {root : Bytes} {trace : Trace cleanerCalls} {scan : Scan}
    (h : (scanCandidates root).Exec trace scan) : removals trace = [] ∧ probes trace = [] := by
  have honly := (scanCandidates_only root).trace h
  constructor
  · refine List.filterMap_eq_nil_iff.mpr fun act hact => ?_
    have hscanning := honly act hact
    obtain ⟨op, answer⟩ := act
    cases op <;> first | rfl | cases hscanning
  · refine List.filterMap_eq_nil_iff.mpr fun act hact => ?_
    have hscanning := honly act hact
    obtain ⟨op, answer⟩ := act
    cases op <;> first | rfl | cases hscanning

/-- What the acts of a scan say about its result. -/
def ScanResult (trace : Trace cleanerCalls) : Scan → Prop
  | .found candidates =>
      (∀ candidate ∈ candidates, candidate.path ≠ []) ∧ ∀ act ∈ trace, ¬ Failing act
  | .failed => ∃ act ∈ trace, Failing act
  | .thrown => True

theorem ScanResult.prepend {first rest : Trace cleanerCalls} {scan : Scan}
    (h : ScanResult rest scan) (hfirst : ∀ act ∈ first, ¬ Failing act) :
    ScanResult (first ++ rest) scan := by
  cases scan with
  | found candidates =>
    refine ⟨h.1, fun act hact => ?_⟩
    obtain hact | hact := List.mem_append.mp hact
    · exact hfirst act hact
    · exact h.2 act hact
  | failed =>
    obtain ⟨act, hact, hfailing⟩ := h
    exact ⟨act, List.mem_append_right _ hact, hfailing⟩
  | thrown => trivial

theorem ScanResult.prepend_act {act : Act cleanerCalls} {rest : Trace cleanerCalls} {scan : Scan}
    (hact : ¬ Failing act) (h : ScanResult rest scan) : ScanResult (act :: rest) scan := by
  have hfirst : ∀ act' ∈ [act], ¬ Failing act' := by simpa using hact
  exact h.prepend hfirst

theorem scanEntries_result {root : Bytes} {directory : DataDirectory} {names : List Bytes}
    {candidates : List Candidate} {trace : Trace cleanerCalls} {scan : Scan}
    (hcandidates : ∀ candidate ∈ candidates, candidate.path ≠ [])
    (h : (scanEntries root directory names candidates).Exec trace scan) :
    ScanResult trace scan := by
  induction names generalizing candidates trace with
  | nil =>
    obtain ⟨rfl, rfl⟩ := Prog.exec_done.mp h
    exact ⟨hcandidates, by simp⟩
  | cons name names ih =>
    rw [scanEntries] at h
    refine h.of_ite (fun _ h => ih hcandidates h) (fun _ h => ?_)
    obtain ⟨regular, rest, rfl, hrest⟩ := Prog.exec_call.mp h
    match regular with
    | none =>
      obtain ⟨rfl, rfl⟩ := Prog.exec_done.mp hrest
      exact ⟨_, List.mem_cons_self, rfl⟩
    | some false =>
      exact .prepend_act (by simp [Failing]) (ih hcandidates hrest)
    | some true =>
      refine .prepend_act (by simp [Failing]) (ih ?_ hrest)
      intro candidate hmem
      obtain hmem | hmem := List.mem_append.mp hmem
      · exact hcandidates candidate hmem
      · simp only [candidateOf, Option.mem_toList, Option.map_eq_some_iff] at hmem
        obtain ⟨timestamp, -, rfl⟩ := hmem
        exact entryPath_ne_nil root directory name

theorem scanDirectory_result {root : Bytes} {directory : DataDirectory}
    {candidates : List Candidate} {trace : Trace cleanerCalls} {scan : Scan}
    (hcandidates : ∀ candidate ∈ candidates, candidate.path ≠ [])
    (h : (scanDirectory root directory candidates).Exec trace scan) : ScanResult trace scan := by
  rw [scanDirectory] at h
  obtain ⟨present, rest, rfl, hpresent⟩ := Prog.exec_call.mp h
  match present with
  | none =>
    obtain ⟨rfl, rfl⟩ := Prog.exec_done.mp hpresent
    exact ⟨_, List.mem_cons_self, rfl⟩
  | some false =>
    obtain ⟨rfl, rfl⟩ := Prog.exec_done.mp hpresent
    exact ⟨hcandidates, by simp [Failing]⟩
  | some true =>
    refine .prepend_act (by simp [Failing]) ?_
    obtain ⟨isDirectory, rest, rfl, hdirectory⟩ := Prog.exec_call.mp hpresent
    refine hdirectory.of_ite (fun hnot h => ?_) (fun his h => ?_)
    · obtain ⟨rfl, rfl⟩ := Prog.exec_done.mp h
      exact ⟨_, List.mem_cons_self, hnot⟩
    · refine .prepend_act (by simpa [Failing] using his) ?_
      obtain ⟨listing, rest, rfl, hlisting⟩ := Prog.exec_call.mp h
      refine .prepend_act (by simp [Failing]) ?_
      match listing with
      | none =>
        obtain ⟨rfl, rfl⟩ := Prog.exec_done.mp hlisting
        exact ⟨hcandidates, by simp⟩
      | some listing =>
        obtain ⟨first, last, scanned, rfl, hscan, hend⟩ := Prog.exec_bind.mp hlisting
        have hresult := scanEntries_result hcandidates hscan
        cases scanned with
        | found found =>
          obtain ⟨rfl, rfl⟩ := Prog.exec_done.mp hend
          rw [List.append_nil]
          split
          · exact hresult
          · trivial
        | failed =>
          obtain ⟨rfl, rfl⟩ := Prog.exec_done.mp hend
          rw [List.append_nil]
          exact hresult
        | thrown =>
          obtain ⟨rfl, rfl⟩ := Prog.exec_done.mp hend
          trivial

/-! ### The order of the candidates -/

/-- The order that `sortCandidates` puts the candidates in. -/
def Candidate.le (first second : Candidate) : Prop := second.before first = false

theorem Candidate.le_iff {first second : Candidate} :
    first.le second ↔ first.timestamp < second.timestamp ∨
      first.timestamp = second.timestamp ∧ first.path ≤ second.path := by
  rw [Candidate.le, Candidate.before]
  by_cases h : second.timestamp = first.timestamp
  · simp [h]
  · have hne : first.timestamp ≠ second.timestamp := fun heq => h heq.symm
    simp [h, hne]
    exact ⟨fun hle => lt_of_le_of_ne hle hne, le_of_lt⟩

theorem Candidate.le_total (first second : Candidate) : first.le second ∨ second.le first := by
  rw [Candidate.le_iff, Candidate.le_iff]
  rcases lt_trichotomy first.timestamp second.timestamp with hlt | heq | hgt
  · exact .inl (.inl hlt)
  · rcases List.le_total first.path second.path with hle | hle
    · exact .inl (.inr ⟨heq, hle⟩)
    · exact .inr (.inr ⟨heq.symm, hle⟩)
  · exact .inr (.inl hgt)

theorem Candidate.le_trans {first second third : Candidate} (h : first.le second)
    (h' : second.le third) : first.le third := by
  rw [Candidate.le_iff] at h h' ⊢
  rcases h with hlt | ⟨heq, hle⟩
  · rcases h' with hlt' | ⟨heq', -⟩
    · exact .inl (hlt.trans hlt')
    · exact .inl (heq' ▸ hlt)
  · rcases h' with hlt' | ⟨heq', hle'⟩
    · exact .inl (heq ▸ hlt')
    · exact .inr ⟨heq.trans heq', List.le_trans hle hle'⟩

theorem Candidate.timestamp_le {first second : Candidate} (h : first.le second) :
    first.timestamp ≤ second.timestamp := by
  rcases Candidate.le_iff.mp h with hlt | ⟨heq, -⟩
  · exact hlt.le
  · exact heq.le

instance : Std.Total fun first second : Candidate => second.before first = false :=
  ⟨Candidate.le_total⟩

instance : IsTrans Candidate fun first second => second.before first = false :=
  ⟨fun _ _ _ => Candidate.le_trans⟩

theorem sortCandidates_pairwise (candidates : List Candidate) :
    (sortCandidates candidates).Pairwise Candidate.le :=
  List.pairwise_insertionSort (fun first second : Candidate => second.before first = false) _

theorem sortCandidates_perm (candidates : List Candidate) :
    (sortCandidates candidates).Perm candidates := List.perm_insertionSort _ _

theorem scanCandidates_result {root : Bytes} {trace : Trace cleanerCalls} {scan : Scan}
    (h : (scanCandidates root).Exec trace scan) : ScanResult trace scan := by
  obtain ⟨first, rest, scanned, rfl, hframes, hrest⟩ := Prog.exec_bind.mp h
  have hfirst := scanDirectory_result (by simp) hframes
  cases scanned with
  | found frames =>
    refine ScanResult.prepend ?_ hfirst.2
    obtain ⟨second, last, scanned, rfl, hevents, hend⟩ := Prog.exec_bind.mp hrest
    have hsecond := scanDirectory_result hfirst.1 hevents
    cases scanned with
    | found candidates =>
      obtain ⟨rfl, rfl⟩ := Prog.exec_done.mp hend
      rw [List.append_nil]
      refine ⟨fun candidate hmem => ?_, hsecond.2⟩
      exact hsecond.1 candidate ((sortCandidates_perm candidates).mem_iff.mp hmem)
    | failed =>
      obtain ⟨rfl, rfl⟩ := Prog.exec_done.mp hend
      rw [List.append_nil]
      exact hsecond
    | thrown =>
      obtain ⟨rfl, rfl⟩ := Prog.exec_done.mp hend
      trivial
  | failed =>
    obtain ⟨rfl, rfl⟩ := Prog.exec_done.mp hrest
    rw [List.append_nil]
    exact hfirst
  | thrown =>
    obtain ⟨rfl, rfl⟩ := Prog.exec_done.mp hrest
    trivial

theorem scanCandidates_sorted {root : Bytes} {trace : Trace cleanerCalls}
    {candidates : List Candidate}
    (h : (scanCandidates root).Exec trace (.found candidates)) :
    candidates.Pairwise Candidate.le := by
  obtain ⟨first, rest, scanned, rfl, -, hrest⟩ := Prog.exec_bind.mp h
  cases scanned with
  | found frames =>
    obtain ⟨second, last, scanned, rfl, -, hend⟩ := Prog.exec_bind.mp hrest
    cases scanned with
    | found found =>
      obtain ⟨-, hfound⟩ := Prog.exec_done.mp hend
      cases hfound
      exact sortCandidates_pairwise found
    | failed => cases hend
    | thrown => cases hend
  | failed => cases hrest
  | thrown => cases hrest

/-! ### Both loops -/

/-- What the deletions may take, in their order. -/
def deletable (candidates : List Candidate) : List Candidate :=
  candidates.filter (unprotected (newestFrame candidates none))

theorem filter_append_filter_not {α : Type} {p : α → Bool} {l : List α}
    (h : l.Pairwise fun first second => p second = true → p first = true) :
    l.filter p ++ l.filter (fun x => !p x) = l := by
  induction l with
  | nil => rfl
  | cons x xs ih =>
    obtain ⟨hx, hxs⟩ := List.pairwise_cons.mp h
    by_cases hp : p x = true
    · rw [List.filter_cons_of_pos hp, List.filter_cons_of_neg (by simp [hp]), List.cons_append,
        ih hxs]
    · have hnone : xs.filter p = [] := by
        rw [List.filter_eq_nil_iff]
        intro y hy hpy
        exact hp (hx y hy hpy)
      rw [List.filter_cons_of_neg hp, List.filter_cons_of_pos (by simpa using hp), hnone,
        List.nil_append]
      have htail := ih hxs
      rw [hnone, List.nil_append] at htail
      rw [htail]

/-- The candidates of the two loops, one after the other. -/
theorem passes_append {cutoff : Nanoseconds} {keep : Candidate → Bool} {candidates : List Candidate}
    (hsorted : candidates.Pairwise Candidate.le) :
    candidates.filter (fun c => decide (c.timestamp < cutoff) && keep c) ++
        candidates.filter (fun c => !(decide (c.timestamp < cutoff) && keep c) && keep c) =
      candidates.filter keep := by
  have hexpired : (candidates.filter keep).Pairwise fun first second =>
      decide (second.timestamp < cutoff) = true → decide (first.timestamp < cutoff) = true := by
    refine (hsorted.filter keep).imp fun {first second} hle hsecond => ?_
    rw [decide_eq_true_eq] at hsecond ⊢
    exact lt_of_le_of_lt (Candidate.timestamp_le hle) hsecond
  rw [← filter_append_filter_not hexpired, List.filter_filter, List.filter_filter]
  congr 1
  refine List.filter_congr fun c _ => ?_
  cases keep c <;> simp

/-- The second loop finds the paths of the removed files empty. -/
theorem secondPass_due {due keep : Candidate → Bool} {candidates : List Candidate}
    (hpaths : ∀ candidate ∈ candidates, candidate.path ≠ []) :
    ((candidates.map fun c => if due c then c.cleared else c).filter
        fun c => decide (c.path ≠ []) && keep c).map Candidate.path =
      (candidates.filter fun c => !due c && keep c).map Candidate.path := by
  induction candidates with
  | nil => rfl
  | cons candidate candidates ih =>
    obtain ⟨hpath, hrest⟩ := List.forall_mem_cons.mp hpaths
    rw [List.map_cons]
    cases hdue : due candidate with
    | true =>
      rw [if_pos rfl, List.filter_cons_of_neg (by simp [Candidate.cleared]),
        List.filter_cons_of_neg (by simp [hdue]), ih hrest]
    | false =>
      rw [if_neg (by simp)]
      cases hkeep : keep candidate with
      | true =>
        rw [List.filter_cons_of_pos (by simp [hpath, hkeep]),
          List.filter_cons_of_pos (by simp [hdue, hkeep]), List.map_cons, List.map_cons, ih hrest]
      | false =>
        rw [List.filter_cons_of_neg (by simp [hkeep]),
          List.filter_cons_of_neg (by simp [hkeep]), ih hrest]

/-- What a run reports that has removed so many files and ends with this space. -/
def CleanupResult.removed (result : CleanupResult) (files : ℕ) (last : DiskSpace) : CleanupResult :=
  { result with
    lowWatermarkActive := decide (last.availableBytes < result.lowThresholdBytes)
    writesPaused := !enoughSpace result.recoveryThresholdBytes last
    removedFiles := files
    availableBytes := last.availableBytes }

/-- The deletions fail, or they work off the files that may go. -/
theorem clean_cases {cleaner cleaner' : StorageCleaner} {now : Nanoseconds}
    {candidates : List Candidate} {s : Cleaning} {trace : Trace cleanerCalls}
    {result : CleanupResult} (hsorted : candidates.Pairwise Candidate.le)
    (hpaths : ∀ candidate ∈ candidates, candidate.path ≠ [])
    (hfresh : s.result.deletionFailed = false) (hnone : s.result.removedFiles = 0)
    (hshown : s.result.availableBytes = s.space.availableBytes)
    (h : (clean cleaner now candidates s).Exec trace (result, cleaner')) :
    (cleaner' = { cleaner with writesPaused := true } ∧ ∃ act ∈ trace, Failing act) ∨
      ∃ done last, trace = removalActs done ∧
        Drains (enoughSpace s.result.recoveryThresholdBytes)
          ((deletable candidates).map Candidate.path) s.space done last ∧
        result = s.result.removed done.length last ∧
        cleaner' = { cleaner with
          writesPaused := !enoughSpace s.result.recoveryThresholdBytes last } := by
  rw [clean] at h
  obtain ⟨first, rest, ⟨candidates₁, s₁⟩, rfl, hfirst, hrest⟩ := Prog.exec_bind.mp h
  obtain ⟨second, last, ⟨candidates₂, s₂⟩, rfl, hsecond, hend⟩ := Prog.exec_bind.mp hrest
  obtain ⟨rfl, hr⟩ := Prog.exec_done.mp hend
  obtain ⟨rfl, rfl⟩ := Prod.mk.inj hr
  rw [List.append_nil]
  obtain ⟨hfailed, act, hact, hfailing⟩ | ⟨done, rfl, hresult, hdrains, hcleared⟩ :=
    sweep_cases (fun c hc _ => hpaths c hc) hshown hfirst
  · -- the first loop has failed, and the second one is left out
    simp only [hfailed, Bool.not_true, Bool.false_and, Bool.false_eq_true, if_false] at hsecond
    obtain ⟨rfl, hr⟩ := Prog.exec_done.mp hsecond
    obtain ⟨-, rfl⟩ := Prod.mk.inj hr
    refine .inl ⟨by rw [hfailed, Bool.true_or], act, List.mem_append_left _ hact, hfailing⟩
  · have hfailed : s₁.result.deletionFailed = false := by rw [hresult, ← hfresh]
    cases henough : enoughSpace s.result.recoveryThresholdBytes s₁.space with
    | true =>
      have hnotShort : ¬ s₁.space.availableBytes < s.result.recoveryThresholdBytes := by
        intro hlt
        rw [enoughSpace_eq_false.mpr hlt] at henough
        cases henough
      simp only [hnotShort, decide_false, Bool.and_false, Bool.false_eq_true, if_false] at hsecond
      obtain ⟨rfl, hr⟩ := Prog.exec_done.mp hsecond
      obtain ⟨-, rfl⟩ := Prod.mk.inj hr
      refine .inr ⟨done, s₂.space, List.append_nil _, ?_, ?_, ?_⟩
      · rw [deletable, ← passes_append hsorted, List.map_append]
        exact hdrains.extend henough
      · rw [CleanupResult.removed, not_enoughSpace, hfailed, Bool.false_or, hresult, hnone,
          Nat.zero_add]
      · rw [hfailed, Bool.false_or, not_enoughSpace]
    | false =>
      have hshort := enoughSpace_eq_false.mp henough
      simp only [hfailed, hshort, Bool.not_false, decide_true, Bool.true_and, if_true] at hsecond
      obtain ⟨hfailed₂, act, hact, hfailing⟩ | ⟨more, rfl, hresult₂, hmore, -⟩ :=
        sweep_cases (fun c _ hdue => by simp_all) (by rw [hresult]) hsecond
      · refine .inl ⟨by rw [hfailed₂, Bool.true_or], act, List.mem_append_right _ hact, hfailing⟩
      · have hfailed₂ : s₂.result.deletionFailed = false := by rw [hresult₂, ← hfailed]
        refine .inr ⟨done ++ more, s₂.space, (removalActs_append _ _).symm, ?_, ?_, ?_⟩
        · rw [hcleared henough, secondPass_due hpaths] at hmore
          rw [deletable, ← passes_append hsorted, List.map_append]
          exact hdrains.append henough hmore
        · rw [CleanupResult.removed, not_enoughSpace, hfailed₂, Bool.false_or, hresult₂, hresult,
            hnone, Nat.zero_add, List.length_append]
        · rw [hfailed₂, Bool.false_or, not_enoughSpace]

/-! ### Runs -/

/-- The free space that a run is content with from the start. -/
def StorageCleaner.threshold (cleaner : StorageCleaner) (space : DiskSpace) : UInt64 :=
  if cleaner.writesPaused then cleaner.options.recoveryThreshold space
  else cleaner.options.lowThreshold space

/-- What a run has to report after the first look at the free space. -/
def StorageCleaner.firstResult (cleaner : StorageCleaner) (space : DiskSpace) : CleanupResult :=
  { availableBytes := space.availableBytes
    lowThresholdBytes := cleaner.options.lowThreshold space
    recoveryThresholdBytes := cleaner.options.recoveryThreshold space }

/-- What a run does, what it reports and the cleaner after it. -/
inductive CleanerRun (cleaner : StorageCleaner) :
    Trace cleanerCalls → Option CleanupResult → StorageCleaner → Prop
  /-- The free space is not known, or the scan or a removal fails. -/
  | failed {trace : Trace cleanerCalls} {result : CleanupResult} (h : ∃ act ∈ trace, Failing act) :
      CleanerRun cleaner trace (some result) { cleaner with writesPaused := true }
  | content {space : DiskSpace} (h : cleaner.threshold space ≤ space.availableBytes) :
      CleanerRun cleaner [⟨.probe, ⟨true, space⟩⟩] (some (cleaner.firstResult space))
        { cleaner with writesPaused := false }
  /-- An exception leaves the scan. -/
  | thrown {space : DiskSpace} {scanned : Trace cleanerCalls}
      (scan : (scanCandidates cleaner.dataRoot).Exec scanned .thrown) :
      CleanerRun cleaner (⟨.probe, ⟨true, space⟩⟩ :: scanned) none cleaner
  | cleaned {space last : DiskSpace} {scanned : Trace cleanerCalls} {candidates : List Candidate}
      {done : List (Bytes × DiskSpace)} (h : space.availableBytes < cleaner.threshold space)
      (scan : (scanCandidates cleaner.dataRoot).Exec scanned (.found candidates))
      (drains : Drains (enoughSpace (cleaner.options.recoveryThreshold space))
        ((deletable candidates).map Candidate.path) space done last) :
      CleanerRun cleaner (⟨.probe, ⟨true, space⟩⟩ :: (scanned ++ removalActs done))
        (some ((cleaner.firstResult space).removed done.length last))
        { cleaner with
          writesPaused := !enoughSpace (cleaner.options.recoveryThreshold space) last }

theorem run_cases {cleaner : StorageCleaner} {now : Nanoseconds} {trace : Trace cleanerCalls}
    {r : Option CleanupResult × StorageCleaner} (h : (cleaner.run now).Exec trace r) :
    CleanerRun cleaner trace r.1 r.2 := by
  rw [StorageCleaner.run, querySpace] at h
  obtain ⟨⟨ok, space⟩, rest, rfl, hprobed⟩ := Prog.exec_call.mp h
  refine hprobed.of_ite (fun hok h => ?_) (fun hok h => ?_)
  · obtain ⟨rfl, rfl⟩ := Prog.exec_done.mp h
    exact .failed ⟨_, List.mem_cons_self, by simpa [Failing] using hok⟩
  obtain rfl : ok = true := by simpa using hok
  refine h.of_ite (fun hrecovered h => ?_) (fun hnotRecovered h => ?_)
  · obtain ⟨rfl, rfl⟩ := Prog.exec_done.mp h
    refine .content ?_
    simp only [Bool.and_eq_true, decide_eq_true_eq] at hrecovered
    rw [StorageCleaner.threshold, if_pos hrecovered.1]
    exact hrecovered.2
  refine h.of_ite (fun hplenty h => ?_) (fun hnotPlenty h => ?_)
  · obtain ⟨rfl, rfl⟩ := Prog.exec_done.mp h
    simp only [Bool.and_eq_true, Bool.not_eq_true', decide_eq_true_eq] at hplenty
    have hcontent : cleaner.threshold space ≤ space.availableBytes := by
      rw [StorageCleaner.threshold, hplenty.1, if_neg (by simp)]
      exact hplenty.2
    have hrun := CleanerRun.content hcontent
    rwa [← hplenty.1] at hrun
  have hshort : space.availableBytes < cleaner.threshold space := by
    rw [StorageCleaner.threshold, ← UInt64.not_le]
    cases hpaused : cleaner.writesPaused with
    | true => simpa [hpaused] using hnotRecovered
    | false => simpa [hpaused] using hnotPlenty
  obtain ⟨scanned, rest, scan, rfl, hscan, hrest⟩ := Prog.exec_bind.mp h
  cases scan with
  | thrown =>
    obtain ⟨rfl, rfl⟩ := Prog.exec_done.mp hrest
    rw [List.append_nil]
    exact .thrown hscan
  | failed =>
    obtain ⟨rfl, rfl⟩ := Prog.exec_done.mp hrest
    obtain ⟨act, hact, hfailing⟩ := scanCandidates_result hscan
    exact .failed ⟨act, by simp [hact], hfailing⟩
  | found candidates =>
    obtain ⟨deletions, last, ⟨result, cleaner'⟩, rfl, hclean, hend⟩ := Prog.exec_bind.mp hrest
    obtain ⟨rfl, rfl⟩ := Prog.exec_done.mp hend
    rw [List.append_nil]
    obtain ⟨rfl, act, hact, hfailing⟩ | ⟨done, last, rfl, hdrains, rfl, rfl⟩ :=
      clean_cases (scanCandidates_sorted hscan) (scanCandidates_result hscan).1 rfl rfl rfl hclean
    · exact .failed ⟨act, by simp [hact], hfailing⟩
    · exact .cleaned hshort hscan hdrains

end Uhf.Storage
