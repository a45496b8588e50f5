/-
Files by their paths, while a program writes a new file beside one that it will replace.

* `Disk.Beside` — all but the new file is as given; whatever is done to the new file keeps it,
  and `Beside.renamed` is the moment in which it takes the place of another one;
* `Disk.Pending` — the new file is open, and this has been written to it.
-/
import Mathlib.Logic.Function.Basic
import Mathlib.Tactic.Common
import UhfGateway.Posix.Paths

namespace Posix

/-- The contents of the files, and the descriptor open for writing with the path it was
opened under. -/
structure Disk where
  content : Text → Option Text
  opened : Option (ℕ × Text) := none

namespace Disk

/-- `open` with `O_WRONLY | O_CREAT | O_TRUNC`. -/
def truncated (d : Disk) (descriptor : ℕ) (path : Text) : Disk where
  content := Function.update d.content path (some [])
  opened := some (descriptor, path)

def written (d : Disk) (descriptor : ℕ) (bytes : Text) : Disk :=
  match d.opened with
  | none => d
  | some (open', path) =>
    if open' = descriptor then
      { d with content := Function.update d.content path ((d.content path).map (· ++ bytes)) }
    else d

def closed (d : Disk) (descriptor : ℕ) : Disk :=
  { d with opened := d.opened.filter (·.1 ≠ descriptor) }

def renamed (d : Disk) (source target : Text) : Disk :=
  { d with
    content := Function.update (Function.update d.content target (d.content source)) source none }

def removed (d : Disk) (path : Text) : Disk :=
  { d with content := Function.update d.content path none }

@[simp] theorem truncated_content (d : Disk) (descriptor : ℕ) (path : Text) :
    (d.truncated descriptor path).content = Function.update d.content path (some []) := rfl

@[simp] theorem closed_content (d : Disk) (descriptor : ℕ) :
    (d.closed descriptor).content = d.content := rfl

@[simp] theorem renamed_content (d : Disk) (source target : Text) :
    (d.renamed source target).content =
      Function.update (Function.update d.content target (d.content source)) source none := rfl

@[simp] theorem removed_content (d : Disk) (path : Text) :
    (d.removed path).content = Function.update d.content path none := rfl

/-- All files but the one at `path` are those of `base`. -/
def Beside (d : Disk) (path : Text) (base : Text → Option Text) : Prop :=
  ∀ other, other ≠ path → d.content other = base other

/-- The file at `path` is open under the descriptor, and holds these bytes. -/
structure Pending (d : Disk) (path : Text) (descriptor : ℕ) (bytes : Text) : Prop where
  opened : d.opened = some (descriptor, path)
  content : d.content path = some bytes

variable {d : Disk} {path target bytes : Text} {base : Text → Option Text} {descriptor : ℕ}

theorem beside_refl (d : Disk) (path : Text) : d.Beside path d.content := fun _ _ => rfl

theorem Beside.truncated (h : d.Beside path base) (descriptor : ℕ) :
    (d.truncated descriptor path).Beside path base := by
  intro other hother
  rw [truncated_content, Function.update_of_ne hother, h other hother]

theorem Beside.removed (h : d.Beside path base) : (d.removed path).Beside path base := by
  intro other hother
  rw [removed_content, Function.update_of_ne hother, h other hother]

theorem Beside.closed (h : d.Beside path base) (descriptor : ℕ) :
    (d.closed descriptor).Beside path base := h

theorem Beside.renamed (h : d.Beside path base) (hcontent : d.content path = some bytes) :
    (d.renamed path target).Beside path (Function.update base target (some bytes)) := by
  intro other hother
  rw [renamed_content, Function.update_of_ne hother, hcontent]
  by_cases htarget : other = target
  · subst htarget
    rw [Function.update_self, Function.update_self]
  · rw [Function.update_of_ne htarget, Function.update_of_ne htarget, h other hother]

theorem truncated_pending (d : Disk) (descriptor : ℕ) (path : Text) :
    (d.truncated descriptor path).Pending path descriptor [] where
  opened := rfl
  content := Function.update_self ..

theorem Pending.written (h : d.Pending path descriptor bytes) (more : Text) :
    (d.written descriptor more).Pending path descriptor (bytes ++ more) := by
  have heq : d.written descriptor more =
      { d with content := Function.update d.content path ((d.content path).map (· ++ more)) } := by
    simp [Disk.written, h.opened]
  rw [heq, h.content]
  exact ⟨h.opened, Function.update_self ..⟩

theorem Beside.written (h : d.Beside path base) (hpending : d.Pending path descriptor bytes)
    (more : Text) : (d.written descriptor more).Beside path base := by
  intro other hother
  simp only [Disk.written, hpending.opened, if_true]
  rw [Function.update_of_ne hother, h other hother]

end Disk

end Posix
