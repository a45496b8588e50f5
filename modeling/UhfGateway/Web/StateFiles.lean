/-
The files in which the stores of the web server keep their state.

`icd_store`, `tls_context` and `auth_store` each have a `write_atomic` of their own.  They take
the same steps and differ in what they still close when one of them fails.

* `replaceFile_ensures` — whatever fails and wherever the process dies, the file is as it was or
  holds the new contents, and no other file but the temporary one has changed;
* `replaceFile_steady` — where nothing fails, the write is reported complete.
-/
import UhfGateway.Config.ConfigStore
import UhfGateway.Effects.History

namespace Uhf.Web

open Effects Posix Posix.Disk Storage
open Config (Written Replaces not_replaces_snoc syncDirectory writes_syncDirectory)

/-! ### Operations -/

/-- What `std::filesystem` says about a path; `none` is an error. -/
inductive LookCall
  | present (path : Bytes)
  | isSymlink (path : Bytes)
  | isRegularFile (path : Bytes)

@[reducible] def lookCalls : Interface where
  Op := LookCall
  Answer _ := Option Bool

abbrev stateCalls := Interface.sum lookCalls fileCalls

def performState (d : Disk) : Act stateCalls → Disk
  | ⟨.inl _, _⟩ => d
  | ⟨.inr call, answer⟩ => perform d ⟨call, answer⟩

/-- What an operation may report of a disk: it fails, or says what is there.  What is written,
synced or removed may fail in any way. -/
def Reports (d : Disk) : (o : stateCalls.Op) → stateCalls.Answer o → Prop
  | .inl (.present path), (answer : Option Bool) =>
    answer = none ∨ answer = some (d.content path).isSome
  | .inl (.isSymlink _), (answer : Option Bool) => answer ≠ some true
  | .inl (.isRegularFile path), (answer : Option Bool) =>
    answer = some true → (d.content path).isSome
  | .inr (.fileSize path), (answer : Option ℕ) =>
    answer = none ∨ answer = (d.content path).map List.length
  | .inr (.readFile path), (answer : Option Bytes) => answer = none ∨ answer = d.content path
  | _, _ => True

/-- What it reports where nothing fails.  A write may still be short. -/
def Succeeds (d : Disk) : (o : stateCalls.Op) → stateCalls.Answer o → Prop
  | .inl (.present path), (answer : Option Bool) => answer = some (d.content path).isSome
  | .inl (.isSymlink path), (answer : Option Bool) =>
    answer ≠ some true ∧ ((d.content path).isSome → answer = some false)
  | .inl (.isRegularFile path), (answer : Option Bool) =>
    answer = some true ↔ (d.content path).isSome
  | .inr (.fileSize path), (answer : Option ℕ) => answer = (d.content path).map List.length
  | .inr (.readFile path), (answer : Option Bytes) => answer = d.content path
  | .inr (.remove path), (answer : Option Bool) => answer = some (d.content path).isSome
  | .inr (.unlink path), (answer : Bool) => answer = (d.content path).isSome
  | .inr (.write _ bytes), (answer : Option ℕ) =>
    ∃ written, answer = some written ∧ written ≤ bytes.length ∧ (bytes ≠ [] → 0 < written)
  | .inr (.openTruncated _), (answer : Option ℕ) => answer.isSome
  | .inr .openDirectory, (answer : Option ℕ) => answer.isSome
  | .inr .listDirectory, _ => True
  | .inr .createDirectories, (answer : Bool) => answer = true
  | .inr .isDirectory, (answer : Bool) => answer = true
  | .inr .chmodDirectory, (answer : Bool) => answer = true
  | .inr (.fchmod _), (answer : Bool) => answer = true
  | .inr (.fsync _), (answer : Bool) => answer = true
  | .inr (.close _), (answer : Bool) => answer = true
  | .inr (.rename _ _), (answer : Bool) => answer = true

/-- A disk whose operations answer as `allowed` says; the process may die anywhere. -/
def diskWorld (allowed : Disk → (o : stateCalls.Op) → stateCalls.Answer o → Prop) :
    World stateCalls Disk where
  answers o d answer d' := allowed d o answer ∧ d' = performState d ⟨o, answer⟩
  cut o d d' := d' = d ∨ ∃ answer, d' = performState d ⟨o, answer⟩
  dies _ := True

def faultyDisk : World stateCalls Disk := diskWorld Reports

def steadyDisk : World stateCalls Disk := diskWorld Succeeds

/-- Where nothing fails, every operation has an answer. -/
theorem exists_succeeds (d : Disk) (o : stateCalls.Op) : ∃ answer, Succeeds d o answer := by
  rcases o with look | call
  · cases look with
    | present path => exact ⟨some (d.content path).isSome, rfl⟩
    | isSymlink path => exact ⟨some false, by simp [Succeeds]⟩
    | isRegularFile path => exact ⟨some (d.content path).isSome, by simp [Succeeds]⟩
  · cases call with
    | listDirectory => exact ⟨(none : Option (List Bytes)), trivial⟩
    | remove path => exact ⟨some (d.content path).isSome, rfl⟩
    | fileSize path => exact ⟨(d.content path).map List.length, rfl⟩
    | readFile path => exact ⟨d.content path, rfl⟩
    | openTruncated _ => exact ⟨(some 3 : Option ℕ), rfl⟩
    | write _ bytes =>
      exact ⟨some bytes.length, _, rfl, Nat.le_refl _, List.length_pos_iff.mpr⟩
    | openDirectory => exact ⟨(some 4 : Option ℕ), rfl⟩
    | unlink path => exact ⟨(d.content path).isSome, rfl⟩
    | createDirectories | isDirectory | chmodDirectory | fchmod _ | fsync _ | close _
    | rename _ _ => exact ⟨true, rfl⟩

theorem exists_steadyRun {α : Type} (p : Prog stateCalls α) (d : Disk) :
    ∃ r d', p.Runs steadyDisk d (some r) d' := by
  refine Prog.exists_runs (fun o d => ?_) p d
  obtain ⟨answer, h⟩ := exists_succeeds d o
  exact ⟨answer, _, h, rfl⟩

/-! ### Writing -/

/-- The steps before the new file is closed. -/
inductive WriteStep
  | fchmod | write | fsync
  deriving DecidableEq

/-- The end of a write in which a step has failed. -/
def giveUp (closes : Bool) (temporary : Bytes) (descriptor : ℕ) : Prog fileCalls Bool :=
  if closes then .call (I := fileCalls) (.close descriptor) fun _ => discard temporary
  else discard temporary

/-- A write once the temporary file is open. -/
def finishReplace (closes : WriteStep → Bool) (path contents : Bytes) (descriptor : ℕ) :
    Prog fileCalls Bool :=
  let temporary := path ++ kTemporary
  .call (I := fileCalls) (.fchmod descriptor) fun (moded : Bool) =>
    if !moded then giveUp (closes .fchmod) temporary descriptor
    else writeLoop descriptor contents >>= fun complete =>
      if !complete then giveUp (closes .write) temporary descriptor
      else .call (I := fileCalls) (.fsync descriptor) fun (synced : Bool) =>
        if !synced then giveUp (closes .fsync) temporary descriptor
        else .call (I := fileCalls) (.close descriptor) fun (closed : Bool) =>
          if !closed then discard temporary
          else .call (I := fileCalls) (.rename temporary path) fun (renamed : Bool) =>
            if !renamed then discard temporary
            else syncDirectory >>= fun synced =>
              if synced then .done true else discard temporary

/-- What the three `write_atomic` share; `closes` says behind which failures the descriptor is
closed. -/
def replaceFile (closes : WriteStep → Bool) (path contents : Bytes) : Prog fileCalls Bool :=
  .call (I := fileCalls) (.openTruncated (path ++ kTemporary)) fun (opened : Option ℕ) =>
    match opened with
    | none => .done false
    | some descriptor => finishReplace closes path contents descriptor

/-! ### What a write does -/

/-- All files but the temporary one beside `path` are as they were. -/
def Untouched (d : Disk) (path : Bytes) (d' : Disk) : Prop :=
  d'.Beside (path ++ kTemporary) d.content

/-- The file has the new contents, and but for the temporary one no other has changed. -/
def Renewed (d : Disk) (path contents : Bytes) (d' : Disk) : Prop :=
  d'.Beside (path ++ kTemporary) (Function.update d.content path (some contents))

section Writing

variable {d d' : Disk} {path contents : Bytes} {descriptor : ℕ} {done : Trace fileCalls}
  {closes : WriteStep → Bool}

/-- A program that writes the file and may end before the directory is synced. -/
abbrev Rewrites (d : Disk) (path contents : Bytes) (p : Prog fileCalls Bool)
    (done : Trace fileCalls) : Prop :=
  p.Heeds (fun done _ => Written d path contents done)
    (fun complete done =>
      Written d path contents done ∧ (complete = true → Replaces path done)) done

theorem written_unlinked (h : Written d path contents done) (unlinked : Bool) :
    Written d path contents (done ++ [⟨.unlink (path ++ kTemporary), unlinked⟩]) := by
  refine h.more _ (by simp) fun d' base hbeside => ?_
  cases unlinked with
  | false => exact hbeside
  | true => exact hbeside.removed

theorem rewrites_discard (h : Written d path contents done) :
    Rewrites d path contents (discard (path ++ kTemporary)) done :=
  ⟨h, fun (unlinked : Bool) => ⟨written_unlinked h unlinked, by simp⟩⟩

theorem rewrites_giveUp (h : Written d path contents done) (closing : Bool) :
    Rewrites d path contents (giveUp closing (path ++ kTemporary) descriptor) done := by
  cases closing with
  | false => exact rewrites_discard h
  | true =>
    refine ⟨h, fun (closed : Bool) => rewrites_discard ?_⟩
    exact h.more _ (by simp) fun _ _ hbeside => hbeside.closed descriptor

theorem rewrites_finishReplace (h : Staging d (path ++ kTemporary) descriptor [] done)
    (hrename : ¬ Replaces path done) :
    Rewrites d path contents (finishReplace closes path contents descriptor) done := by
  have hkept : Written d path contents done := .kept hrename h.beside
  refine ⟨hkept, fun (moded : Bool) => ?_⟩
  have hstaging := h.quiet ⟨.fchmod descriptor, moded⟩ rfl
  have hrename := not_replaces_snoc hrename ⟨.fchmod descriptor, moded⟩ (by simp)
  cases moded with
  | false => exact rewrites_giveUp (.kept hrename hstaging.beside) _
  | true =>
    refine Prog.heeds_bind ((writeLoop_heeds (fun done => ¬ Replaces path done) contents hstaging
      hrename (fun _ _ _ hnot => not_replaces_snoc hnot _ (by simp))
      (fun _ _ _ hstaging hnot => .kept hnot hstaging.beside)).mono ?_)
    rintro complete done ⟨hrename, total, hstaging, hcomplete⟩
    have hkept : Written d path contents done := .kept hrename hstaging.beside
    cases complete with
    | false => exact rewrites_giveUp hkept _
    | true =>
      have htotal : total = contents := hcomplete rfl
      rw [htotal] at hstaging
      refine ⟨hkept, fun (synced : Bool) => ?_⟩
      have hstaging := hstaging.quiet ⟨.fsync descriptor, synced⟩ rfl
      have hrename := not_replaces_snoc hrename ⟨.fsync descriptor, synced⟩ (by simp)
      have hkept : Written d path contents _ := .kept hrename hstaging.beside
      cases synced with
      | false => exact rewrites_giveUp hkept _
      | true =>
        refine ⟨hkept, fun (closed : Bool) => ?_⟩
        have hkept := hkept.more ⟨.close descriptor, closed⟩ (by simp)
          fun _ _ hbeside => hbeside.closed descriptor
        cases closed with
        | false => exact rewrites_discard hkept
        | true =>
          refine ⟨hkept, fun (renamed : Bool) => ?_⟩
          cases renamed with
          | false => exact rewrites_discard (hkept.more _ (by simp) fun _ _ hbeside => hbeside)
          | true =>
            have hmem : Replaces path (done ++ [⟨.fsync descriptor, true⟩] ++
                [⟨.close descriptor, true⟩] ++ [⟨.rename (path ++ kTemporary) path, true⟩]) :=
              List.mem_append_right _ (List.mem_singleton_self _)
            -- the rename takes the temporary file, which is complete, to its place
            have hreplaced : Written d path contents (done ++ [⟨.fsync descriptor, true⟩] ++
                [⟨.close descriptor, true⟩] ++ [⟨.rename (path ++ kTemporary) path, true⟩]) := by
              refine .replaced hmem ?_
              rw [after_snoc, after_snoc]
              have hbeside := hstaging.beside.closed descriptor
              exact hbeside.renamed hstaging.pending.content
            refine Prog.heeds_bind ((writes_syncDirectory hreplaced hmem).mono ?_)
            rintro synced done ⟨hwritten, hsynced, -⟩
            cases synced with
            | false => exact rewrites_discard hwritten
            | true => exact ⟨hwritten, fun _ => (hsynced rfl).1⟩

theorem rewrites_replaceFile (closes : WriteStep → Bool) (d : Disk) (path contents : Bytes) :
    Rewrites d path contents (replaceFile closes path contents) [] := by
  have hnil : ¬ Replaces path [] := by simp [Replaces]
  refine ⟨.kept hnil (beside_refl d _), fun (opened : Option ℕ) => ?_⟩
  have hnot := not_replaces_snoc hnil ⟨.openTruncated (path ++ kTemporary), opened⟩ (by simp)
  cases opened with
  | none => exact ⟨.kept hnot (beside_refl d _), by simp⟩
  | some descriptor =>
    refine rewrites_finishReplace ⟨?_, ?_⟩ hnot
    · exact truncated_pending d descriptor _
    · exact (beside_refl d _).truncated descriptor

theorem written_state (h : Written d path contents done) :
    Untouched d path (after d done) ∨ Renewed d path contents (after d done) := by
  cases h with
  | kept _ beside => exact .inl beside
  | replaced _ beside => exact .inr beside

variable (closes d path contents)
  {allowed : Disk → (o : stateCalls.Op) → stateCalls.Answer o → Prop}

theorem replaceFile_ensures :
    (replaceFile closes path contents).inr.Ensures (diskWorld allowed)
      (fun d' => Untouched d path d' ∨ Renewed d path contents d')
      (fun complete d' => (Untouched d path d' ∨ Renewed d path contents d') ∧
        (complete = true → Renewed d path contents d')) d := by
  have hanswers : ∀ o d answer d', (diskWorld allowed).inr.answers o d answer d' →
      d' = perform d ⟨o, answer⟩ := fun _ _ _ _ h => h.2
  have hcut : ∀ o d d', (diskWorld allowed).inr.cut o d d' →
      d' = d ∨ ∃ answer, d' = perform d ⟨o, answer⟩ := fun _ _ _ h => h
  refine Prog.inr_ensures (Prog.Heeds.ensures hanswers hcut
    (fun _ _ hwritten => written_state hwritten) ?_ (rewrites_replaceFile closes d path contents))
  rintro complete done ⟨hwritten, hreplaces⟩
  refine ⟨written_state hwritten, written_state hwritten, fun hcomplete => ?_⟩
  cases hwritten with
  | kept hnot _ => exact absurd (hreplaces hcomplete) hnot
  | replaced _ beside => exact beside

/-! ### Writing where nothing fails -/

theorem writeLoop_steady (descriptor : ℕ) (bytes : Bytes) (d : Disk) :
    (writeLoop descriptor bytes).Ensures steadyDisk.inr (fun _ => True)
      (fun complete _ => complete = true) d := by
  induction hlength : bytes.length using Nat.strongRecOn generalizing bytes d with
  | ind length ih =>
    rw [writeLoop]
    by_cases hbytes : bytes = []
    · rw [dif_pos hbytes]
      exact ⟨fun _ => trivial, rfl⟩
    · rw [dif_neg hbytes]
      refine ⟨fun _ => trivial, fun _ _ => trivial, ?_⟩
      rintro answer d' ⟨⟨written, rfl, hle, hpos⟩, -⟩
      show (dite (written = 0) _ _ : Prog fileCalls Bool).Ensures _ _ _ _
      have hsome := hpos hbytes
      rw [dif_neg (by omega)]
      have hlonger := List.length_pos_iff.mpr hbytes
      exact ih (bytes.drop written).length (by rw [List.length_drop]; omega) _ _ rfl

theorem syncDirectory_steady (d : Disk) :
    syncDirectory.Ensures steadyDisk.inr (fun _ => True) (fun synced _ => synced = true) d := by
  refine ⟨fun _ => trivial, fun _ _ => trivial, ?_⟩
  rintro (_ | descriptor) d' ⟨hopened, -⟩
  · cases hopened
  · refine ⟨fun _ => trivial, fun _ _ => trivial, ?_⟩
    rintro synced d' ⟨hsynced, -⟩
    exact ⟨fun _ => trivial, fun _ _ => trivial, fun _ _ _ => ⟨fun _ => trivial, hsynced⟩⟩

theorem finishReplace_steady (descriptor : ℕ) :
    (finishReplace closes path contents descriptor).Ensures steadyDisk.inr (fun _ => True)
      (fun complete _ => complete = true) d := by
  refine ⟨fun _ => trivial, fun _ _ => trivial, ?_⟩
  rintro moded d ⟨rfl : moded = true, -⟩
  refine Prog.ensures_bind (Prog.ensures_mono (fun _ h => h) ?_
    (writeLoop_steady descriptor contents d))
  rintro complete d rfl
  refine ⟨fun _ => trivial, fun _ _ => trivial, ?_⟩
  rintro synced d ⟨rfl : synced = true, -⟩
  refine ⟨fun _ => trivial, fun _ _ => trivial, ?_⟩
  rintro closed d ⟨rfl : closed = true, -⟩
  refine ⟨fun _ => trivial, fun _ _ => trivial, ?_⟩
  rintro renamed d ⟨rfl : renamed = true, -⟩
  refine Prog.ensures_bind (Prog.ensures_mono (fun _ h => h) ?_ (syncDirectory_steady d))
  rintro synced d rfl
  exact ⟨fun _ => trivial, rfl⟩

/-- Where nothing fails, the write is reported complete, and it is; a process that dies in it
leaves the old contents or the new ones. -/
theorem replaceFile_steady :
    (replaceFile closes path contents).inr.Ensures steadyDisk
      (fun d' => Untouched d path d' ∨ Renewed d path contents d')
      (fun complete d' => complete = true ∧ Renewed d path contents d') d := by
  have hcomplete : (replaceFile closes path contents).inr.Ensures steadyDisk (fun _ => True)
      (fun complete _ => complete = true) d := by
    refine Prog.inr_ensures ⟨fun _ => trivial, fun _ _ => trivial, ?_⟩
    rintro (_ | descriptor) d' ⟨hopened, -⟩
    · cases hopened
    · exact finishReplace_steady _ _ _ closes descriptor
  refine Prog.ensures_mono (fun d' h => h.1) ?_
    ((replaceFile_ensures d path contents closes).and hcomplete)
  rintro complete d' ⟨⟨-, hrenewed⟩, hcomplete⟩
  exact ⟨hcomplete, hrenewed hcomplete⟩

end Writing

end Uhf.Web
