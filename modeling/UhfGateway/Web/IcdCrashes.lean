/-
Replacing and restoring the ICD file when a write fails or the process dies (`IcdStore`).

Both operations change two files one after the other.  `faultyWrites` lets every write, every
removal and the process fail anywhere, and records what has been done; what is read is what is
there.

* `writeAtomic_seen` — what a write has done wherever it is cut off;
* `replace_view`, `restore_view` — the pairs of files an operation can leave, and how far it has
  come;
* `pair_atomic_iff` — the pair is the old one or that of a complete run if and only if the
  operation does not end between the changes of its two files.
-/
import UhfGateway.Web.IcdStore

namespace Uhf.Web

open Effects Posix Posix.Disk Storage
open Config (Replaces Written)

/-! ### Runs with a record -/

/-- What an operation may answer: what is read is what is there, and what is written, synced or
removed may fail in any way. -/
def MayFail (d : Disk) : (o : stateCalls.Op) → stateCalls.Answer o → Prop
  | .inl look, answer => Succeeds d (.inl look) answer
  | .inr (.fileSize path), answer => Succeeds d (.inr (.fileSize path)) answer
  | .inr (.readFile path), answer => Succeeds d (.inr (.readFile path)) answer
  | _, _ => True

/-- The disk, and all that has been done to it. -/
abbrev Recorded := Disk × Trace stateCalls

def record (x : Recorded) (act : Act stateCalls) : Recorded :=
  (performState x.1 act, x.2 ++ [act])

def recordFile (x : Recorded) (act : Act fileCalls) : Recorded := record x act.inr

/-- An operation that is cut off has happened or has not. -/
def faultyWrites : World stateCalls Recorded where
  answers o x answer x' := MayFail x.1 o answer ∧ x' = record x ⟨o, answer⟩
  cut o x x' := x' = x ∨ ∃ answer, x' = record x ⟨o, answer⟩
  dies _ := True

/-! ### How far an operation has come -/

/-- The act puts a new file at the path. -/
def renamesTo (path : Bytes) : Act stateCalls → Bool
  | ⟨.inr (.rename _ target), (renamed : Bool)⟩ => renamed && (target = path : Bool)
  | _ => false

def removes (path : Bytes) : Act stateCalls → Bool
  | ⟨.inr (.remove name), (removed : Option Bool)⟩ => (removed = some true : Bool) && (name = path : Bool)
  | _ => false

/-- Which of its changes an operation has made. -/
structure Progress where
  previousRenamed : Bool
  overrideRenamed : Bool
  overrideRemoved : Bool
  previousRemoved : Bool

namespace IcdStore

def progress (store : IcdStore) (acts : Trace stateCalls) : Progress where
  previousRenamed := acts.any (renamesTo store.previousPath)
  overrideRenamed := acts.any (renamesTo store.overridePath)
  overrideRemoved := acts.any (removes store.overridePath)
  previousRemoved := acts.any (removes store.previousPath)

end IcdStore

/-- The files after a complete replacement. -/
def IcdFiles.afterReplace (files : IcdFiles) (contents : Bytes) : IcdFiles :=
  if (validate contents).isSome then files.replaced contents else files

/-- The files after a complete restore. -/
def IcdFiles.afterRestore (files : IcdFiles) : IcdFiles :=
  if (readable files.override).isSome then files.restored else files

def IcdFiles.Holds (files : IcdFiles) (version : Bytes) : Prop :=
  files.override = some version ∨ files.previous = some version

/-- The files are the old pair or that of a complete run, and so no version that a complete run
keeps is lost. -/
def Atomic (old complete files : IcdFiles) : Prop :=
  (files = old ∨ files = complete) ∧
    ∀ version, old.Holds version → complete.Holds version → files.Holds version

/-- A replacement ends between its two changes, and the backup it has overwritten is not what it
has written there. -/
def ReplaceTorn (old : IcdFiles) (contents : Bytes) (p : Progress) : Prop :=
  p.previousRenamed = true ∧ p.overrideRenamed = false ∧ old.previous ≠ old.override ∧
    old.override ≠ some contents

/-- A restore ends between its two changes: the backup is overwritten and the override is not,
or the override is removed and a backup that cannot be read is not. -/
def RestoreTorn (old : IcdFiles) (p : Progress) : Prop :=
  (p.previousRenamed = true ∧ p.overrideRenamed = false ∧ old.previous ≠ old.override) ∨
    (p.overrideRemoved = true ∧ p.previousRemoved = false ∧ old.previous ≠ none)

theorem atomic_iff {old complete files : IcdFiles} :
    Atomic old complete files ↔ files = old ∨ files = complete := by
  constructor
  · exact fun h => h.1
  · rintro (rfl | rfl)
    · exact ⟨.inl rfl, fun _ h _ => h⟩
    · exact ⟨.inr rfl, fun _ _ h => h⟩

/-! ### One write -/

/-- All that a write of the file may do to names. -/
def WritesOnly (path : Bytes) (call : FileCall) : Prop :=
  (∀ source target, call = .rename source target → target = path ∧ source = path ++ kTemporary) ∧
    ∀ name, call ≠ .remove name

section Writing

variable {store : IcdStore} {path contents : Bytes} {x x' : Recorded} {closes : WriteStep → Bool}

theorem giveUp_only (closing : Bool) (descriptor : ℕ) :
    (giveUp closing (path ++ kTemporary) descriptor).Only (WritesOnly path) := by
  cases closing with
  | false => exact ⟨by simp [WritesOnly], fun _ => trivial⟩
  | true => exact ⟨by simp [WritesOnly], fun _ => ⟨by simp [WritesOnly], fun _ => trivial⟩⟩

theorem discard_only : (Storage.discard (path ++ kTemporary)).Only (WritesOnly path) :=
  ⟨by simp [WritesOnly], fun _ => trivial⟩

theorem syncDirectory_only : Config.syncDirectory.Only (WritesOnly path) := by
  refine ⟨by simp [WritesOnly], fun (opened : Option ℕ) => ?_⟩
  cases opened with
  | none => trivial
  | some descriptor =>
    exact ⟨by simp [WritesOnly], fun _ => ⟨by simp [WritesOnly], fun _ => trivial⟩⟩

theorem finishReplace_only (descriptor : ℕ) :
    (finishReplace closes path contents descriptor).Only (WritesOnly path) := by
  refine ⟨by simp [WritesOnly], fun (moded : Bool) => Prog.only_ite (fun _ => giveUp_only _ _) fun _ => ?_⟩
  refine Prog.only_bind ((writeLoop_only descriptor contents).mono ?_) fun complete => ?_
  · rintro call ⟨bytes, rfl⟩
    simp [WritesOnly]
  refine Prog.only_ite (fun _ => giveUp_only _ _) fun _ => ⟨by simp [WritesOnly], fun (synced : Bool) => ?_⟩
  refine Prog.only_ite (fun _ => giveUp_only _ _) fun _ => ⟨by simp [WritesOnly], fun (closed : Bool) => ?_⟩
  refine Prog.only_ite (fun _ => discard_only) fun _ => ⟨by simp [WritesOnly], fun (renamed : Bool) => ?_⟩
  refine Prog.only_ite (fun _ => discard_only) fun _ => ?_
  exact Prog.only_bind syncDirectory_only fun _ => Prog.only_ite (fun _ => trivial) fun _ => discard_only

theorem replaceFile_only : (replaceFile closes path contents).Only (WritesOnly path) := by
  refine ⟨by simp [WritesOnly], fun (opened : Option ℕ) => ?_⟩
  cases opened with
  | none => trivial
  | some descriptor => exact finishReplace_only descriptor

/-- The operations of a write are recorded. -/
structure Writing (x : Recorded) (path : Bytes) (done : Trace fileCalls) (x' : Recorded) : Prop where
  acts : x'.2 = x.2 ++ done.map Act.inr
  only : ∀ act ∈ done, WritesOnly path act.op

/-- A write that has not come to its rename. -/
def Kept (x : Recorded) (path : Bytes) (x' : Recorded) : Prop :=
  ∃ done, Writing x path done x' ∧ ¬ Replaces path done ∧ Untouched x.1 path x'.1

/-- A write that has come as far as its rename. -/
def RenewedBy (x : Recorded) (path contents : Bytes) (x' : Recorded) : Prop :=
  ∃ done, Writing x path done x' ∧ Replaces path done ∧ Renewed x.1 path contents x'.1

theorem foldl_record (x : Recorded) (done : Trace fileCalls) :
    done.foldl recordFile x = (after x.1 done, x.2 ++ done.map Act.inr) := by
  induction done generalizing x with
  | nil => simp
  | cons act done ih =>
    rw [List.foldl_cons, ih, recordFile, record, List.map_cons, List.append_assoc]
    rfl

/-- Wherever a write is cut off, the file is as it was or holds the new contents; a write that is
reported complete has renewed it. -/
theorem writeAtomic_seen (path contents : Bytes) (x : Recorded) :
    (IcdStore.writeAtomic path contents).Ensures faultyWrites
      (fun x' => Kept x path x' ∨ RenewedBy x path contents x')
      (fun complete x' => (Kept x path x' ∨ RenewedBy x path contents x') ∧
        (complete = true → RenewedBy x path contents x')) x := by
  have hanswers : ∀ o x answer x', faultyWrites.inr.answers o x answer x' →
      x' = recordFile x ⟨o, answer⟩ := fun _ _ _ _ h => h.2
  have hcut : ∀ o x x', faultyWrites.inr.cut o x x' →
      x' = x ∨ ∃ answer, x' = recordFile x ⟨o, answer⟩ := fun _ _ _ h => h
  have hseen : ∀ done, Written x.1 path contents done → (∀ act ∈ done, WritesOnly path act.op) →
      Kept x path (done.foldl recordFile x) ∨ RenewedBy x path contents (done.foldl recordFile x) := by
    intro done hwritten honly
    rw [foldl_record]
    cases hwritten with
    | kept hrename hdisk => exact .inl ⟨done, ⟨rfl, honly⟩, hrename, hdisk⟩
    | replaced hrename hdisk => exact .inr ⟨done, ⟨rfl, honly⟩, hrename, hdisk⟩
  have hheeds := (rewrites_replaceFile (fun step => step = .fchmod) x.1 path contents).and
    (replaceFile_only.heeds (by simp))
  refine Prog.inr_ensures (Prog.Heeds.ensures hanswers hcut ?_ ?_ hheeds)
  · rintro done o ⟨hwritten, honly⟩
    exact hseen done hwritten honly
  · rintro complete done ⟨⟨hwritten, hreplaces⟩, honly⟩
    refine ⟨hseen done hwritten honly, hseen done hwritten honly, fun hcomplete => ?_⟩
    rw [foldl_record]
    cases hwritten with
    | kept hnot _ => exact absurd (hreplaces hcomplete) hnot
    | replaced hrename hdisk => exact ⟨done, ⟨rfl, honly⟩, hrename, hdisk⟩

/-! ### The pair of files and the progress -/

theorem renamesTo_inr {other : Bytes} {act : Act fileCalls} (h : renamesTo other act.inr = true) :
    ∃ source, act = ⟨.rename source other, true⟩ := by
  obtain ⟨call, answer⟩ := act
  cases call with
  | rename source target =>
    simp only [Act.inr, renamesTo, Bool.and_eq_true, decide_eq_true_eq] at h
    obtain ⟨hanswer, rfl⟩ := h
    have heq : answer = true := hanswer
    exact ⟨source, by rw [heq]⟩
  | _ => cases h

theorem removes_inr {other : Bytes} {act : Act fileCalls} (h : removes other act.inr = true) :
    act.op = .remove other := by
  obtain ⟨call, answer⟩ := act
  cases call with
  | remove name =>
    simp only [Act.inr, removes, Bool.and_eq_true, decide_eq_true_eq] at h
    rw [h.2]
  | _ => cases h

theorem Writing.removes {done : Trace fileCalls} (h : Writing x path done x') (other : Bytes) :
    x'.2.any (removes other) = x.2.any (removes other) := by
  rw [h.acts, List.any_append, Bool.or_eq_left_iff_imp]
  intro hany
  obtain ⟨act, hmem, hremoves⟩ := List.any_eq_true.mp hany
  obtain ⟨act, hact, rfl⟩ := List.mem_map.mp hmem
  exact absurd (removes_inr hremoves) ((h.only act hact).2 other)

theorem Writing.renames {done : Trace fileCalls} (h : Writing x path done x') (other : Bytes)
    (hother : Replaces path done → other ≠ path) :
    x'.2.any (renamesTo other) = x.2.any (renamesTo other) := by
  rw [h.acts, List.any_append, Bool.or_eq_left_iff_imp]
  intro hany
  obtain ⟨act, hmem, hrenames⟩ := List.any_eq_true.mp hany
  obtain ⟨act, hact, rfl⟩ := List.mem_map.mp hmem
  obtain ⟨source, rfl⟩ := renamesTo_inr hrenames
  obtain ⟨rfl, rfl⟩ := (h.only _ hact).1 _ _ rfl
  exact absurd rfl (hother hact)

theorem Writing.renamed {done : Trace fileCalls} (h : Writing x path done x')
    (hrename : Replaces path done) : x'.2.any (renamesTo path) = true := by
  rw [h.acts, List.any_append, Bool.or_eq_true]
  refine .inr (List.any_eq_true.mpr ⟨_, List.mem_map_of_mem hrename, ?_⟩)
  simp [Act.inr, renamesTo]

/-- The two files, and how far the operation on them has come. -/
@[ext] structure View where
  files : IcdFiles
  progress : Progress

namespace View

/-- The override has been renewed. -/
def withOverride (v : View) (contents : Bytes) : View where
  files := { v.files with override := some contents }
  progress := { v.progress with overrideRenamed := true }

def withPrevious (v : View) (contents : Bytes) : View where
  files := { v.files with previous := some contents }
  progress := { v.progress with previousRenamed := true }

def withoutOverride (v : View) : View where
  files := { v.files with override := none }
  progress := { v.progress with overrideRemoved := true }

def withoutPrevious (v : View) : View where
  files := { v.files with previous := none }
  progress := { v.progress with previousRemoved := true }

end View

namespace IcdStore

def view (store : IcdStore) (x : Recorded) : View := ⟨store.files x.1, store.progress x.2⟩

theorem view_untouched_override (h : Kept x store.overridePath x') : store.view x' = store.view x := by
  obtain ⟨done, hwriting, hrename, hdisk⟩ := h
  have hrenames := fun other => hwriting.renames other fun h => absurd h hrename
  have hoverride := hdisk store.overridePath (Config.ne_temporary _)
  have hprevious := hdisk store.previousPath previousPath_ne_temporary
  simp only [view, files, progress, hoverride, hprevious, hrenames, hwriting.removes]

theorem view_untouched_previous (h : Kept x store.previousPath x') : store.view x' = store.view x := by
  obtain ⟨done, hwriting, hrename, hdisk⟩ := h
  have hrenames := fun other => hwriting.renames other fun h => absurd h hrename
  have hoverride := hdisk store.overridePath overridePath_ne_temporary
  have hprevious := hdisk store.previousPath (Config.ne_temporary _)
  simp only [view, files, progress, hoverride, hprevious, hrenames, hwriting.removes]

theorem view_renewed_override (h : RenewedBy x store.overridePath contents x') :
    store.view x' = (store.view x).withOverride contents := by
  obtain ⟨done, hwriting, hrename, hdisk⟩ := h
  have hother := hwriting.renames store.previousPath fun _ => overridePath_ne_previous.symm
  rw [view, files_renewed_override hdisk, View.withOverride, view]
  simp only [progress, hother, hwriting.renamed hrename, hwriting.removes]

theorem view_renewed_previous (h : RenewedBy x store.previousPath contents x') :
    store.view x' = (store.view x).withPrevious contents := by
  obtain ⟨done, hwriting, hrename, hdisk⟩ := h
  have hother := hwriting.renames store.overridePath fun _ => overridePath_ne_previous
  rw [view, files_renewed_previous hdisk, View.withPrevious, view]
  simp only [progress, hother, hwriting.renamed hrename, hwriting.removes]

end IcdStore

theorem write_override_view (contents : Bytes) (y : Recorded) :
    (IcdStore.writeAtomic store.overridePath contents).Ensures faultyWrites
      (fun x => store.view x = store.view y ∨ store.view x = (store.view y).withOverride contents)
      (fun complete x => (store.view x = store.view y ∨
        store.view x = (store.view y).withOverride contents) ∧
          (complete = true → store.view x = (store.view y).withOverride contents)) y := by
  have hseen : ∀ x, Kept y store.overridePath x ∨ RenewedBy y store.overridePath contents x →
      store.view x = store.view y ∨ store.view x = (store.view y).withOverride contents := by
    rintro x (hx | hx)
    · exact .inl (IcdStore.view_untouched_override hx)
    · exact .inr (IcdStore.view_renewed_override hx)
  refine Prog.ensures_mono hseen ?_ (writeAtomic_seen store.overridePath contents y)
  rintro complete x ⟨hx, hrenewed⟩
  exact ⟨hseen x hx, fun hcomplete => IcdStore.view_renewed_override (hrenewed hcomplete)⟩

theorem write_previous_view (contents : Bytes) (y : Recorded) :
    (IcdStore.writeAtomic store.previousPath contents).Ensures faultyWrites
      (fun x => store.view x = store.view y ∨ store.view x = (store.view y).withPrevious contents)
      (fun complete x => (store.view x = store.view y ∨
        store.view x = (store.view y).withPrevious contents) ∧
          (complete = true → store.view x = (store.view y).withPrevious contents)) y := by
  have hseen : ∀ x, Kept y store.previousPath x ∨ RenewedBy y store.previousPath contents x →
      store.view x = store.view y ∨ store.view x = (store.view y).withPrevious contents := by
    rintro x (hx | hx)
    · exact .inl (IcdStore.view_untouched_previous hx)
    · exact .inr (IcdStore.view_renewed_previous hx)
  refine Prog.ensures_mono hseen ?_ (writeAtomic_seen store.previousPath contents y)
  rintro complete x ⟨hx, hrenewed⟩
  exact ⟨hseen x hx, fun hcomplete => IcdStore.view_renewed_previous (hrenewed hcomplete)⟩

/-! ### Reading -/

theorem ensures_recorded {α : Type} {o : stateCalls.Op} {k : stateCalls.Answer o → Prog stateCalls α}
    {C : Recorded → Prop} {Q : α → Recorded → Prop} (hC : C x) (hcut : ∀ answer, C (record x ⟨o, answer⟩))
    (hk : ∀ answer, MayFail x.1 o answer → (k answer).Ensures faultyWrites C Q (record x ⟨o, answer⟩)) :
    (Prog.call o k).Ensures faultyWrites C Q x := by
  refine ⟨fun _ => hC, ?_, ?_⟩
  · rintro x' (rfl | ⟨answer, rfl⟩)
    · exact hC
    · exact hcut answer
  · rintro answer x' ⟨hanswer, rfl⟩
    exact hk answer hanswer

/-- Nothing has been changed. -/
structure Same (store : IcdStore) (x y : Recorded) : Prop where
  disk : y.1 = x.1
  view : store.view y = store.view x

theorem Same.trans {y z : Recorded} (h : Same store x y) (h' : Same store y z) : Same store x z :=
  ⟨h'.disk.trans h.disk, h'.view.trans h.view⟩

/-- An operation that only looks or reads. -/
def Looks (o : stateCalls.Op) : Prop :=
  ∀ answer, (∀ d, performState d ⟨o, answer⟩ = d) ∧ (∀ path, renamesTo path ⟨o, answer⟩ = false) ∧
    ∀ path, removes path ⟨o, answer⟩ = false

theorem Same.looked {y : Recorded} {o : stateCalls.Op} (h : Same store x y) (ho : Looks o)
    (answer : stateCalls.Answer o) : Same store x (record y ⟨o, answer⟩) := by
  obtain ⟨hdisk, hrenames, hremoves⟩ := ho answer
  refine ⟨(hdisk y.1).trans h.disk, Eq.trans ?_ h.view⟩
  simp only [IcdStore.view, IcdStore.progress, record, hdisk, List.any_append, List.any_cons,
    List.any_nil, hrenames, hremoves, Bool.or_false]

/-- One look, and what comes behind it. -/
theorem ensures_looked {α : Type} {o : stateCalls.Op} {k : stateCalls.Answer o → Prog stateCalls α}
    {Q : α → Recorded → Prop} {y : Recorded} (hy : Same store x y) (ho : Looks o)
    (hk : ∀ answer y', MayFail x.1 o answer → Same store x y' →
      (k answer).Ensures faultyWrites (Same store x) Q y') :
    (Prog.call o k).Ensures faultyWrites (Same store x) Q y := by
  refine ensures_recorded hy (hy.looked ho) fun answer hanswer => ?_
  rw [hy.disk] at hanswer
  exact hk answer _ hanswer (hy.looked ho answer)

/-- Reading changes nothing, and what is read is what is there. -/
theorem readFile_same (path : Bytes) :
    (IcdStore.readFile path).Ensures faultyWrites (Same store x)
      (fun contents y => Same store x y ∧ contents = readable (x.1.content path)) x := by
  have hreturned : ∀ {contents : Option Bytes} {y : Recorded}, Same store x y →
      contents = readable (x.1.content path) →
        (Prog.done contents).Ensures faultyWrites (Same store x)
          (fun contents y => Same store x y ∧ contents = readable (x.1.content path)) y :=
    fun hy hcontents => ⟨fun _ => hy, hy, hcontents⟩
  refine ensures_looked ⟨rfl, rfl⟩ (fun _ => ⟨fun _ => rfl, fun _ => rfl, fun _ => rfl⟩) ?_
  rintro (symlink : Option Bool) x₁ ⟨-, hsymlink⟩ hx₁
  show (ite (symlink ≠ some false) _ _ : Prog stateCalls _).Ensures _ _ _ _
  split_ifs with hs
  · -- an error of the first look means that there is no file
    refine hreturned hx₁ ?_
    cases hcontent : x.1.content path with
    | none => rfl
    | some contents => exact absurd (hsymlink (by rw [hcontent]; rfl)) hs
  refine ensures_looked hx₁ (fun _ => ⟨fun _ => rfl, fun _ => rfl, fun _ => rfl⟩) ?_
  rintro (regular : Option Bool) x₂ (hregular : regular = some true ↔ _) hx₂
  obtain hcontent | ⟨contents, hcontent⟩ := Option.eq_none_or_eq_some (x.1.content path)
  · show (ite (regular ≠ some true) _ _ : Prog stateCalls _).Ensures _ _ _ _
    rw [if_pos fun h => by simpa [hcontent] using hregular.mp h]
    exact hreturned hx₂ (by rw [hcontent]; rfl)
  · show (ite (regular ≠ some true) _ _ : Prog stateCalls _).Ensures _ _ _ _
    rw [if_neg (not_not.mpr (hregular.mpr (by rw [hcontent]; rfl)))]
    refine ensures_looked hx₂ (fun _ => ⟨fun _ => rfl, fun _ => rfl, fun _ => rfl⟩) ?_
    rintro size x₃ (hsize : size = _) hx₃
    rw [hcontent] at hsize
    subst hsize
    show (ite (kMaxIcdBytes < contents.length) _ _ : Prog stateCalls _).Ensures _ _ _ _
    split_ifs with hlarge
    · refine hreturned hx₃ ?_
      rw [hcontent, readable, Option.filter_some, if_neg (by simpa using hlarge)]
    · refine ensures_looked hx₃ (fun _ => ⟨fun _ => rfl, fun _ => rfl, fun _ => rfl⟩) ?_
      rintro read x₄ (hread : read = _) hx₄
      rw [hcontent] at hread
      subst hread
      refine hreturned hx₄ ?_
      rw [hcontent, if_neg hlarge, readable, Option.filter_some, if_pos (by simpa using hlarge)]

/-! ### Removing -/

theorem view_removed_override (y : Recorded) :
    store.view (record y ⟨.inr (.remove store.overridePath), (some true : Option Bool)⟩) =
      (store.view y).withoutOverride := by
  have hother : removes store.previousPath
      ⟨.inr (.remove store.overridePath), (some true : Option Bool)⟩ = false := by
    simp [removes, IcdStore.overridePath_ne_previous]
  have hdisk : performState y.1 ⟨.inr (.remove store.overridePath), (some true : Option Bool)⟩ =
      y.1.removed store.overridePath := rfl
  simp only [View.withoutOverride, IcdStore.view, IcdStore.files,
    IcdStore.progress, record, hdisk, removed_content, Function.update_self,
    Function.update_of_ne IcdStore.overridePath_ne_previous.symm,
    List.any_append, List.any_cons, List.any_nil, hother, Bool.or_false]
  simp [renamesTo, removes]

theorem view_removed_previous (y : Recorded) :
    store.view (record y ⟨.inr (.remove store.previousPath), (some true : Option Bool)⟩) =
      (store.view y).withoutPrevious := by
  have hother : removes store.overridePath
      ⟨.inr (.remove store.previousPath), (some true : Option Bool)⟩ = false := by
    simp [removes, IcdStore.overridePath_ne_previous.symm]
  have hdisk : performState y.1 ⟨.inr (.remove store.previousPath), (some true : Option Bool)⟩ =
      y.1.removed store.previousPath := rfl
  simp only [View.withoutPrevious, IcdStore.view, IcdStore.files,
    IcdStore.progress, record, hdisk, removed_content, Function.update_self,
    Function.update_of_ne IcdStore.overridePath_ne_previous,
    List.any_append, List.any_cons, List.any_nil, hother, Bool.or_false]
  simp [renamesTo, removes]

/-- A removal that has removed nothing. -/
theorem view_not_removed (y : Recorded) (path : Bytes) {removed : Option Bool}
    (h : removed ≠ some true) :
    store.view (record y ⟨.inr (.remove path), removed⟩) = store.view y := by
  have hdisk : performState y.1 ⟨.inr (.remove path), removed⟩ = y.1 := if_neg h
  have hremoves : ∀ other, removes other ⟨.inr (.remove path), removed⟩ = false := by
    intro other
    simp [removes, h]
  have hrenames : ∀ other, renamesTo other ⟨.inr (.remove path), removed⟩ = false := fun _ => rfl
  simp only [IcdStore.view, IcdStore.progress, record, hdisk, List.any_append, List.any_cons,
    List.any_nil, hrenames, hremoves, Bool.or_false]

end Writing

/-! ### The operations -/

/-- Nothing has been done yet. -/
def Progress.none : Progress := ⟨false, false, false, false⟩

/-- The pair is the old one or that of a complete replacement unless it is torn. -/
def ReplaceView (old : IcdFiles) (contents : Bytes) (v : View) : Prop :=
  Atomic old (old.afterReplace contents) v.files ↔ ¬ ReplaceTorn old contents v.progress

def RestoreView (old : IcdFiles) (v : View) : Prop :=
  Atomic old old.afterRestore v.files ↔ ¬ RestoreTorn old v.progress

section Operations

variable {store : IcdStore} {d : Disk} {contents override previous : Bytes} {old : IcdFiles}

theorem replaceView_start : ReplaceView old contents ⟨old, .none⟩ := by
  simp [ReplaceView, atomic_iff, ReplaceTorn, Progress.none]

theorem override_of_readable {contents : Option Bytes} (h : readable contents = some override) :
    contents = some override := (Option.filter_eq_some_iff.mp h).1

/-- The backup is written and the override is not. -/
theorem replaceView_kept (hvalid : (validate contents).isSome = true)
    (hoverride : readable old.override = some override) :
    ReplaceView old contents ((⟨old, .none⟩ : View).withPrevious override) := by
  have hold := override_of_readable hoverride
  rw [ReplaceView, atomic_iff, IcdFiles.afterReplace, if_pos hvalid, IcdFiles.replaced, hoverride]
  simp only [View.withPrevious, IcdFiles.ext_iff, ReplaceTorn, Progress.none, hold, Option.some_or]
  constructor
  · rintro (⟨-, hsame⟩ | ⟨hsame, -⟩) ⟨-, -, hprevious, hcontents⟩
    · exact hprevious hsame.symm
    · exact hcontents hsame
  · intro htorn
    by_cases hprevious : old.previous = some override
    · exact .inl ⟨trivial, hprevious.symm⟩
    · by_cases hcontents : some override = some contents
      · exact .inr ⟨hcontents, trivial⟩
      · exact absurd ⟨trivial, trivial, hprevious, hcontents⟩ htorn

/-- The override is written too. -/
theorem replaceView_done (hvalid : (validate contents).isSome = true) {v : View}
    (hfiles : v.files = old.replaced contents) (hdone : v.progress.overrideRenamed = true) :
    ReplaceView old contents v := by
  rw [ReplaceView, atomic_iff, IcdFiles.afterReplace, if_pos hvalid]
  refine iff_of_true (.inr hfiles) ?_
  rintro ⟨-, hpending, -⟩
  rw [hdone] at hpending
  cases hpending

theorem replace_view (store : IcdStore) (contents : Bytes) (d : Disk) :
    (store.replace contents).Ensures faultyWrites
      (fun x => ReplaceView (store.files d) contents (store.view x))
      (fun _ x => ReplaceView (store.files d) contents (store.view x)) (d, []) := by
  have hstart : ReplaceView (store.files d) contents ⟨store.files d, .none⟩ := replaceView_start
  have hsame : ∀ y, Same store (d, []) y → store.view y = ⟨store.files d, .none⟩ := fun y hy => hy.view
  have hreturned : ∀ {x : Recorded} {result : IcdReplaceResult},
      ReplaceView (store.files d) contents (store.view x) →
        (Prog.done result).Ensures faultyWrites
          (fun x => ReplaceView (store.files d) contents (store.view x))
          (fun _ x => ReplaceView (store.files d) contents (store.view x)) x :=
    fun hx => ⟨fun _ => hx, hx⟩
  rw [IcdStore.replace]
  split_ifs with hinvalid
  · exact hreturned hstart
  have hvalid : (validate contents).isSome = true := by
    simpa [Option.isSome_iff_ne_none] using hinvalid
  have hunchanged : ∀ y, Same store (d, []) y → ReplaceView (store.files d) contents (store.view y) := by
    intro y hy
    rw [hsame y hy]
    exact hstart
  refine Prog.ensures_bind (Prog.ensures_mono hunchanged ?_ (readFile_same store.overridePath))
  rintro found y ⟨hy, hfound⟩
  have hoverride : readable (store.files d).override = found := hfound.symm
  -- the override is written where the backup is as it should be
  have hwrite : ∀ z : Recorded, ReplaceView (store.files d) contents (store.view z) →
      ((store.view z).withOverride contents).files = (store.files d).replaced contents →
        (IcdStore.writeAtomic store.overridePath contents >>= fun written =>
          .done (if written then IcdReplaceResult.replaced else .storageError)).Ensures faultyWrites
            (fun x => ReplaceView (store.files d) contents (store.view x))
            (fun _ x => ReplaceView (store.files d) contents (store.view x)) z := by
    intro z hz hfiles
    have hseen : ∀ x, store.view x = store.view z ∨
        store.view x = (store.view z).withOverride contents →
          ReplaceView (store.files d) contents (store.view x) := by
      rintro x (hx | hx)
      · rw [hx]
        exact hz
      · rw [hx]
        exact replaceView_done hvalid hfiles rfl
    refine Prog.ensures_bind (Prog.ensures_mono hseen ?_ (write_override_view contents z))
    rintro written x ⟨hx, -⟩
    exact hreturned (hseen x hx)
  cases found with
  | none =>
    refine hwrite y (hunchanged y hy) ?_
    · rw [hsame y hy, View.withOverride, IcdFiles.replaced, hoverride]
      rfl
  | some override =>
    have hkept := replaceView_kept hvalid hoverride
    have hseen : ∀ x, store.view x = store.view y ∨
        store.view x = (store.view y).withPrevious override →
          ReplaceView (store.files d) contents (store.view x) := by
      rintro x (hx | hx)
      · rw [hx, hsame y hy]
        exact hstart
      · rw [hx, hsame y hy]
        exact hkept
    refine Prog.ensures_bind (Prog.ensures_mono hseen ?_ (write_previous_view override y))
    rintro kept z ⟨hz, hrenewed⟩
    cases kept with
    | false => exact hreturned (hseen z hz)
    | true =>
      refine hwrite z (hseen z hz) ?_
      rw [hrenewed rfl, hsame y hy, View.withOverride, View.withPrevious, IcdFiles.replaced, hoverride]
      rfl

theorem restoreView_start : RestoreView old ⟨old, .none⟩ := by
  simp [RestoreView, atomic_iff, RestoreTorn, Progress.none]

/-- The backup holds the override, which is not replaced yet. -/
theorem restoreView_kept (hoverride : readable old.override = some override)
    (hprevious : readable old.previous = some previous) :
    RestoreView old ((⟨old, .none⟩ : View).withPrevious override) := by
  have hold := override_of_readable hoverride
  have hold' := override_of_readable hprevious
  rw [RestoreView, atomic_iff, IcdFiles.afterRestore, hoverride, Option.isSome_some, if_pos rfl,
    IcdFiles.restored, hprevious, hoverride]
  simp only [View.withPrevious, IcdFiles.ext_iff, RestoreTorn, Progress.none, hold, hold']
  constructor
  · rintro (⟨-, hsame⟩ | ⟨hsame, -⟩) (⟨-, -, hother⟩ | ⟨hremoved, -⟩)
    · exact hother hsame.symm
    · cases hremoved
    · exact hother hsame.symm
    · cases hremoved
  · intro htorn
    by_cases hsame : some previous = some override
    · exact .inl ⟨trivial, hsame.symm⟩
    · exact absurd (.inl ⟨trivial, trivial, hsame⟩) htorn

theorem restoreView_done (hoverride : (readable old.override).isSome = true) {v : View}
    (hfiles : v.files = old.restored) (hrenamed : v.progress.overrideRenamed = true)
    (hremoved : v.progress.overrideRemoved = false) : RestoreView old v := by
  rw [RestoreView, atomic_iff, IcdFiles.afterRestore, if_pos hoverride]
  refine iff_of_true (.inr hfiles) ?_
  rintro (⟨-, hpending, -⟩ | ⟨hother, -⟩)
  · rw [hrenamed] at hpending
    cases hpending
  · rw [hremoved] at hother
    cases hother

/-- The override is removed, and the backup may be there. -/
theorem restoreView_removed (hoverride : readable old.override = some override)
    (hprevious : readable old.previous = none) :
    RestoreView old (⟨old, .none⟩ : View).withoutOverride := by
  have hold := override_of_readable hoverride
  rw [RestoreView, atomic_iff, IcdFiles.afterRestore, hoverride, Option.isSome_some, if_pos rfl,
    IcdFiles.restored, hprevious]
  simp only [View.withoutOverride, IcdFiles.ext_iff, RestoreTorn, Progress.none, hold]
  cases old.previous with
  | none => simp
  | some previous => simp

theorem restoreView_cleared (hoverride : readable old.override = some override)
    (hprevious : readable old.previous = none) :
    RestoreView old (⟨old, .none⟩ : View).withoutOverride.withoutPrevious := by
  rw [RestoreView, atomic_iff, IcdFiles.afterRestore, hoverride, Option.isSome_some, if_pos rfl,
    IcdFiles.restored, hprevious]
  simp [View.withoutOverride, View.withoutPrevious, RestoreTorn, Progress.none]

theorem restore_view (store : IcdStore) (d : Disk) :
    store.restore.Ensures faultyWrites (fun x => RestoreView (store.files d) (store.view x))
      (fun _ x => RestoreView (store.files d) (store.view x)) (d, []) := by
  have hstart : RestoreView (store.files d) ⟨store.files d, .none⟩ := restoreView_start
  have hsame : ∀ y, Same store (d, []) y → store.view y = ⟨store.files d, .none⟩ := fun y hy => hy.view
  have hunchanged : ∀ y, Same store (d, []) y → RestoreView (store.files d) (store.view y) := by
    intro y hy
    rw [hsame y hy]
    exact hstart
  have hreturned : ∀ {x : Recorded} {result : Option IcdRestoreResult},
      RestoreView (store.files d) (store.view x) →
        (Prog.done result).Ensures faultyWrites
          (fun x => RestoreView (store.files d) (store.view x))
          (fun _ x => RestoreView (store.files d) (store.view x)) x :=
    fun hx => ⟨fun _ => hx, hx⟩
  rw [IcdStore.restore]
  refine Prog.ensures_bind (Prog.ensures_mono hunchanged ?_ (readFile_same store.overridePath))
  rintro found y ⟨hy, hfound⟩
  have hoverride : readable (store.files d).override = found := hfound.symm
  cases found with
  | none => exact hreturned (hunchanged y hy)
  | some override =>
    refine Prog.ensures_bind (Prog.ensures_mono (fun z hz => hunchanged z (hy.trans hz)) ?_
      (readFile_same store.previousPath))
    rintro found z ⟨hz, hfound⟩
    rw [hy.disk] at hfound
    have hprevious : readable (store.files d).previous = found := hfound.symm
    have hz := hy.trans hz
    have hview := hsame z hz
    cases found with
    | none =>
      -- the two removals
      have hremoved := restoreView_removed hoverride hprevious
      refine ensures_recorded (hunchanged z hz) (fun removed => ?_) fun removed _ => ?_
      · by_cases h : removed = some true
        · rw [h, view_removed_override, hview]
          exact hremoved
        · rw [view_not_removed z _ h]
          exact hunchanged z hz
      match removed with
      | none =>
        refine hreturned ?_
        rw [view_not_removed z _ (by simp)]
        exact hunchanged z hz
      | some false =>
        refine hreturned ?_
        rw [view_not_removed z _ (by simp)]
        exact hunchanged z hz
      | some true =>
        have hlast : ∀ removed : Option Bool, RestoreView (store.files d) (store.view
            (record (record z ⟨.inr (.remove store.overridePath), (some true : Option Bool)⟩)
              ⟨.inr (.remove store.previousPath), removed⟩)) := by
          intro removed
          by_cases h : removed = some true
          · rw [h, view_removed_previous, view_removed_override, hview]
            exact restoreView_cleared hoverride hprevious
          · rw [view_not_removed _ _ h, view_removed_override, hview]
            exact hremoved
        refine ensures_recorded ?_ hlast fun removed _ => hreturned (hlast removed)
        rw [view_removed_override, hview]
        exact hremoved
    | some previous =>
      have hkept := restoreView_kept hoverride hprevious
      have hseen : ∀ x, store.view x = store.view z ∨
          store.view x = (store.view z).withPrevious override →
            RestoreView (store.files d) (store.view x) := by
        rintro x (hx | hx)
        · rw [hx]
          exact hunchanged z hz
        · rw [hx, hview]
          exact hkept
      refine Prog.ensures_bind (Prog.ensures_mono hseen ?_ (write_previous_view override z))
      rintro kept x ⟨hx, hrenewed⟩
      cases kept with
      | false => exact hreturned (hseen x hx)
      | true =>
        have hx := hrenewed rfl
        have hseen' : ∀ w, store.view w = store.view x ∨
            store.view w = (store.view x).withOverride previous →
              RestoreView (store.files d) (store.view w) := by
          rintro w (hw | hw)
          · exact hseen w (.inr (hw.trans hx))
          · rw [hw, hx, hview]
            refine restoreView_done (by rw [hoverride]; rfl) ?_ rfl rfl
            rw [IcdFiles.restored, hprevious, hoverride]
            rfl
        refine Prog.ensures_bind (Prog.ensures_mono hseen' ?_ (write_override_view previous x))
        rintro written w ⟨hw, -⟩
        exact hreturned (hseen' w hw)

/-- What a complete run makes of the files. -/
theorem afterReplace_complete {files files' : IcdFiles} {result : IcdReplaceResult}
    (h : IcdStore.Replaced files contents result files') : files' = files.afterReplace contents := by
  rw [IcdStore.Replaced] at h
  rw [IcdFiles.afterReplace]
  split at h
  · next hvalid =>
    rw [if_pos hvalid]
    exact h.2
  · next hvalid =>
    rw [if_neg hvalid]
    exact h.2

theorem afterRestore_complete {files files' : IcdFiles} {result : Option IcdRestoreResult}
    (h : IcdStore.Restored files result files') : files' = files.afterRestore := by
  rw [IcdStore.Restored] at h
  rw [IcdFiles.afterRestore]
  split at h
  · next hoverride =>
    rw [if_pos hoverride]
    exact h.2
  · next hoverride =>
    rw [if_neg hoverride]
    exact h.2

/-- Whatever the files hold, and wherever a write or a removal fails or the process dies, a
replacement or a restore leaves the old pair of files or that of a complete run if and only if
it does not end between the changes of two files that differ. -/
theorem pair_atomic_iff (store : IcdStore) (d : Disk) :
    (∀ contents result x, (store.replace contents).Runs faultyWrites (d, []) result x →
      (Atomic (store.files d) ((store.files d).afterReplace contents) (store.files x.1) ↔
        ¬ ReplaceTorn (store.files d) contents (store.progress x.2))) ∧
    ∀ result x, store.restore.Runs faultyWrites (d, []) result x →
      (Atomic (store.files d) (store.files d).afterRestore (store.files x.1) ↔
        ¬ RestoreTorn (store.files d) (store.progress x.2)) := by
  constructor
  · intro contents result x hrun
    have hview := (replace_view store contents d).sound hrun
    cases result with
    | none => exact hview
    | some result => exact hview
  · intro result x hrun
    have hview := (restore_view store d).sound hrun
    cases result with
    | none => exact hview
    | some result => exact hview

end Operations

/-! ### Runs that end between the two files -/

section Torn

variable {α : Type} {store : IcdStore} {d : Disk} {override previous : Bytes}

theorem mayFail_of_succeeds {d : Disk} {o : stateCalls.Op} {answer : stateCalls.Answer o}
    (h : Succeeds d o answer) : MayFail d o answer := by
  rcases o with look | call
  · exact h
  · cases call with
    | fileSize path => exact h
    | readFile path => exact h
    | _ => trivial

/-- A run in which nothing fails, with its record. -/
theorem recorded_run {p : Prog stateCalls α} {d d' : Disk} {result : α} (acts : Trace stateCalls)
    (h : p.Runs steadyDisk d (some result) d') :
    ∃ acts', p.Runs faultyWrites (d, acts) (some result) (d', acts') := by
  generalize hresult : some result = r at h
  induction h generalizing acts with
  | done b d =>
    cases hresult
    exact ⟨acts, .done _ _⟩
  | died _ => cases hresult
  | cut _ => cases hresult
  | @call o k d d₁ d₂ answer r hanswer _ ih =>
    obtain ⟨acts', hrest⟩ := @ih (acts ++ [⟨o, answer⟩]) hresult
    obtain ⟨hsucceeds, rfl⟩ := hanswer
    exact ⟨acts', .call ⟨mayFail_of_succeeds hsucceeds, rfl⟩ hrest⟩

/-- A step of an operation in which nothing fails, by what it ensures. -/
theorem exists_recorded {Q : α → Disk → Prop} {C : Disk → Prop} {p : Prog stateCalls α}
    {x : Recorded} (h : p.Ensures steadyDisk C Q x.1) :
    ∃ result x', p.Runs faultyWrites x (some result) x' ∧ Q result x'.1 := by
  obtain ⟨result, d', hrun⟩ := exists_steadyRun p x.1
  obtain ⟨acts', hrecorded⟩ := recorded_run x.2 hrun
  exact ⟨result, (d', acts'), hrecorded, h.sound hrun⟩

/-- A restore of two files that comes as far as the backup. -/
theorem exists_half_restored (hoverride : readable (store.files d).override = some override)
    (hprevious : readable (store.files d).previous = some previous) :
    ∃ x : Recorded, store.files x.1 = ⟨some override, some override⟩ ∧
      ∀ result x', (IcdStore.writeAtomic store.overridePath previous >>= fun written =>
        .done (some (if written then IcdRestoreResult.restored else .storageError))).Runs
          faultyWrites x result x' → store.restore.Runs faultyWrites (d, []) result x' := by
  obtain ⟨found, y, hread, hy, hfound⟩ := exists_recorded (x := (d, []))
    (IcdStore.readFile_steady store.overridePath d)
  obtain ⟨found', z, hread', hz, hfound'⟩ := exists_recorded (x := y)
    (IcdStore.readFile_steady store.previousPath y.1)
  obtain ⟨kept, x, hwrite, hkept, hrenewed⟩ := exists_recorded (x := z)
    (IcdStore.writeAtomic_steady store.previousPath override z.1)
  have hd : y.1 = d := hy
  rw [hd] at hfound' hz
  obtain rfl : found = some override := hfound.trans hoverride
  obtain rfl : found' = some previous := hfound'.trans hprevious
  subst hkept
  refine ⟨x, ?_, fun result x' hlast => ?_⟩
  · rw [hz] at hrenewed
    rw [IcdStore.files_renewed_previous hrenewed]
    show IcdFiles.mk (store.files d).override (some override) = _
    rw [override_of_readable hoverride]
  · exact hread.bind (hread'.bind (hwrite.bind hlast))

def sampleStore : IcdStore := ⟨ascii "active.icd", ascii "packaged.icd"⟩

/-- A disk with an uploaded file and the one it has replaced. -/
def sampleFiles : Disk where
  content := Function.update (Function.update (fun _ => none) sampleStore.overridePath
    (some (ascii "new"))) sampleStore.previousPath (some (ascii "old"))

theorem sampleFiles_files : sampleStore.files sampleFiles = ⟨some (ascii "new"), some (ascii "old")⟩ := by
  have hother : sampleStore.overridePath ≠ sampleStore.previousPath := IcdStore.overridePath_ne_previous
  simp only [IcdStore.files, sampleFiles, Function.update_self, Function.update_of_ne hother]

/-- Where nothing fails, the files change places, and the restore is not torn. -/
theorem restored_pair : ∃ x, sampleStore.restore.Runs faultyWrites (sampleFiles, [])
    (some (some .restored)) x ∧ sampleStore.files x.1 = ⟨some (ascii "old"), some (ascii "new")⟩ ∧
      ¬ RestoreTorn (sampleStore.files sampleFiles) (sampleStore.progress x.2) := by
  obtain ⟨result, x, hrun, hrestored⟩ := exists_recorded (x := (sampleFiles, []))
    (IcdStore.restore_steady sampleStore sampleFiles)
  have hcomplete := afterRestore_complete hrestored
  have hreadable : (readable (sampleStore.files sampleFiles).override).isSome = true := by
    rw [sampleFiles_files]
    decide
  rw [IcdStore.Restored, if_pos hreadable] at hrestored
  have hfiles : (sampleStore.files sampleFiles).afterRestore = ⟨some (ascii "old"), some (ascii "new")⟩ := by
    rw [sampleFiles_files]
    rfl
  rw [hrestored.1] at hrun
  refine ⟨x, hrun, hcomplete.trans hfiles, ?_⟩
  exact ((pair_atomic_iff sampleStore sampleFiles).2 _ x hrun).mp (atomic_iff.mpr (.inr hcomplete))

/-- The process dies, or the second file cannot be opened, when the backup has been overwritten:
both files hold the version that was to be taken back, and the one before it is lost. -/
theorem torn_restore : (∃ x, sampleStore.restore.Runs faultyWrites (sampleFiles, []) none x ∧
      ¬ Atomic (sampleStore.files sampleFiles) (sampleStore.files sampleFiles).afterRestore
        (sampleStore.files x.1) ∧ ¬ (sampleStore.files x.1).Holds (ascii "old")) ∧
    ∃ x, sampleStore.restore.Runs faultyWrites (sampleFiles, []) (some (some .storageError)) x ∧
      ¬ Atomic (sampleStore.files sampleFiles) (sampleStore.files sampleFiles).afterRestore
        (sampleStore.files x.1) ∧ ¬ (sampleStore.files x.1).Holds (ascii "old") := by
  have hoverride : readable (sampleStore.files sampleFiles).override = some (ascii "new") := by
    rw [sampleFiles_files]
    decide
  have hprevious : readable (sampleStore.files sampleFiles).previous = some (ascii "old") := by
    rw [sampleFiles_files]
    decide
  obtain ⟨x, hfiles, hgoes⟩ := exists_half_restored hoverride hprevious
  have hlost : ∀ files : IcdFiles, files = ⟨some (ascii "new"), some (ascii "new")⟩ →
      ¬ Atomic (sampleStore.files sampleFiles) (sampleStore.files sampleFiles).afterRestore files ∧
        ¬ files.Holds (ascii "old") := by
    rintro files rfl
    have hcomplete : (⟨some (ascii "new"), some (ascii "old")⟩ : IcdFiles).afterRestore =
        ⟨some (ascii "old"), some (ascii "new")⟩ := rfl
    rw [sampleFiles_files, atomic_iff, hcomplete, IcdFiles.Holds]
    simp only [IcdFiles.ext_iff]
    decide
  refine ⟨⟨x, hgoes none x (.died trivial), hlost _ hfiles⟩, ?_⟩
  -- the temporary file of the second write cannot be opened
  refine ⟨record x ⟨.inr (.openTruncated (sampleStore.overridePath ++ kTemporary)),
    (none : Option ℕ)⟩, hgoes _ _ ?_, hlost _ hfiles⟩
  exact .call (I := stateCalls) (a := (none : Option ℕ)) ⟨trivial, rfl⟩ (.done _ _)

end Torn

end Uhf.Web
