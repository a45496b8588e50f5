/-
What the operations on files do to a disk, whatever they answer.

* `after` — the disk behind the operations of a trace;
* `writeLoop_heeds` — the loop that writes a new file, as far as it comes;
* `workingDisk` — the disk as surroundings in which nothing fails.
-/
import UhfGateway.Effects.History
import UhfGateway.Posix.Disk
import UhfGateway.Storage.EventStore

namespace Uhf.Storage

open Effects Posix

def perform (d : Disk) : Act fileCalls → Disk
  | ⟨.openTruncated name, (opened : Option ℕ)⟩ =>
    opened.elim d fun descriptor => d.truncated descriptor name
  | ⟨.write descriptor bytes, (result : Option ℕ)⟩ =>
    result.elim d fun written => d.written descriptor (bytes.take written)
  | ⟨.close descriptor, _⟩ => d.closed descriptor
  | ⟨.rename source target, (renamed : Bool)⟩ => if renamed then d.renamed source target else d
  | ⟨.remove name, (removed : Option Bool)⟩ => if removed = some true then d.removed name else d
  | ⟨.unlink name, (unlinked : Bool)⟩ => if unlinked then d.removed name else d
  | ⟨_, _⟩ => d

def after (d : Disk) (trace : Trace fileCalls) : Disk := trace.foldl perform d

@[simp] theorem after_nil (d : Disk) : after d [] = d := rfl

@[simp] theorem after_snoc (d : Disk) (trace : Trace fileCalls) (act : Act fileCalls) :
    after d (trace ++ [act]) = perform (after d trace) act := by
  simp [after]

/-- The answers of a disk on which nothing fails; it is not listed. -/
def workingAnswer (d : Disk) : (call : FileCall) → fileCalls.Answer call
  | .listDirectory => (none : Option (List Bytes))
  | .remove name => some (d.content name).isSome
  | .fileSize name => (d.content name).map List.length
  | .readFile name => d.content name
  | .openTruncated _ => some 3
  | .write _ bytes => some bytes.length
  | .openDirectory => some 4
  | .rename source _ => (d.content source).isSome
  | .unlink name => (d.content name).isSome
  | .createDirectories | .isDirectory | .chmodDirectory | .fchmod _ | .fsync _ | .close _ => true

def workingDisk : Env fileCalls Disk where
  answer d call := (workingAnswer d call, perform d ⟨call, workingAnswer d call⟩)

/-! ### Writing beside the file -/

/-- A new file is being written at `temporary`: so far these bytes of it, and none of the other
files has changed. -/
structure Staging (d : Disk) (temporary : Bytes) (descriptor : ℕ) (bytes : Bytes)
    (done : Trace fileCalls) : Prop where
  pending : (after d done).Pending temporary descriptor bytes
  beside : (after d done).Beside temporary d.content

variable {d : Disk} {temporary bytes : Bytes} {descriptor : ℕ} {done : Trace fileCalls}

theorem Staging.written (h : Staging d temporary descriptor bytes done) (more : Bytes) (n : ℕ) :
    Staging d temporary descriptor (bytes ++ more.take n)
      (done ++ [⟨.write descriptor more, some n⟩]) := by
  constructor
  · rw [after_snoc]
    exact h.pending.written _
  · rw [after_snoc]
    exact h.beside.written h.pending _

theorem Staging.failed (h : Staging d temporary descriptor bytes done) (more : Bytes) :
    Staging d temporary descriptor bytes (done ++ [⟨.write descriptor more, none⟩]) := by
  constructor
  · rw [after_snoc]
    exact h.pending
  · rw [after_snoc]
    exact h.beside

theorem Staging.quiet (h : Staging d temporary descriptor bytes done) (act : Act fileCalls)
    (hact : perform (after d done) act = after d done) :
    Staging d temporary descriptor bytes (done ++ [act]) := by
  constructor
  · rw [after_snoc, hact]
    exact h.pending
  · rw [after_snoc, hact]
    exact h.beside

/-- The loop goes on from what has been written so far.  `Inv` is what else the writing
keeps. -/
theorem writeLoop_heeds {Ok : Trace fileCalls → FileCall → Prop} (Inv : Trace fileCalls → Prop)
    (rest : Bytes) (h : Staging d temporary descriptor bytes done) (hinv : Inv done)
    (keeps : ∀ done more answer, Inv done → Inv (done ++ [⟨.write descriptor more, answer⟩]))
    (allowed : ∀ done bytes more, Staging d temporary descriptor bytes done → Inv done →
      Ok done (.write descriptor more)) :
    (writeLoop descriptor rest).Heeds Ok
      (fun complete done' => Inv done' ∧ ∃ total, Staging d temporary descriptor total done' ∧
        (complete = true → total = bytes ++ rest)) done := by
  induction hlen : rest.length using Nat.strongRecOn generalizing bytes rest done with
  | ind length ih =>
    rw [writeLoop]
    by_cases hrest : rest = []
    · rw [dif_pos hrest, hrest]
      exact ⟨hinv, bytes, h, fun _ => (List.append_nil bytes).symm⟩
    · rw [dif_neg hrest]
      refine ⟨allowed done bytes rest h hinv, fun (result : Option ℕ) => ?_⟩
      cases result with
      | none => exact ⟨keeps _ _ _ hinv, bytes, h.failed rest, fun hfalse => by cases hfalse⟩
      | some written =>
        show (dite (written = 0) _ _ : Prog fileCalls Bool).Heeds _ _ _
        have hstaging := h.written rest written
        by_cases hzero : written = 0
        · rw [dif_pos hzero]
          exact ⟨keeps _ _ _ hinv, _, hstaging, fun hfalse => by cases hfalse⟩
        · rw [dif_neg hzero]
          have hpos := List.length_pos_iff.mpr hrest
          have hmore := ih (rest.drop written).length (by rw [List.length_drop]; omega)
            (rest.drop written) hstaging (keeps _ _ _ hinv) rfl
          rw [List.append_assoc, List.take_append_drop] at hmore
          exact hmore

/-- The loop only writes. -/
theorem writeLoop_only (descriptor : ℕ) (bytes : Bytes) :
    (writeLoop descriptor bytes).Only (fun call => ∃ bytes, call = FileCall.write descriptor bytes) := by
  induction hlength : bytes.length using Nat.strongRecOn generalizing bytes with
  | ind length ih =>
    rw [writeLoop]
    split
    · trivial
    · next hbytes =>
      refine ⟨⟨bytes, rfl⟩, fun (result : Option ℕ) => ?_⟩
      cases result with
      | none => trivial
      | some written =>
        show (dite (written = 0) _ _ : Prog fileCalls Bool).Only _
        split
        · trivial
        · have hpos := List.length_pos_iff.mpr hbytes
          exact ih _ (by rw [← hlength, List.length_drop]; omega) _ rfl

theorem writeLoop_whole {contents : Bytes} (h : contents ≠ []) (descriptor : ℕ) :
    (writeLoop descriptor contents).Exec [⟨.write descriptor contents, some contents.length⟩]
      true := by
  have hpos := List.length_pos_iff.mpr h
  rw [writeLoop, dif_neg h]
  refine Prog.exec_call.mpr ⟨some contents.length, [], rfl, ?_⟩
  show (dite (contents.length = 0) _ _ : Prog fileCalls Bool).Exec [] true
  rw [dif_neg (by omega), List.drop_length, writeLoop, dif_pos rfl]
  exact .done true

end Uhf.Storage
