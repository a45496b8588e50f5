/-
Processes, and the ids they are known by.

An id is given to one process at a time, and given again when that one has ended.  A process
keeps the number it was born with, which no other process gets.

* `Processes.Moves` — what may happen beside a program that looks at processes by their ids;
* `Processes.Moves.ended` — a process that has ended does not come back;
* `Processes.same_of_alive` — the process that has had an id all along is the one that is seen
  under it.
-/
import Mathlib.Tactic.Common

namespace Posix

structure Process where
  serial : ℕ
  commandLine : List UInt8
  deriving DecidableEq

/-- The processes by their ids; the numbers from `next` on have not been given yet. -/
structure Processes where
  table : Int → Option Process
  next : ℕ
  given : ∀ pid process, table pid = some process → process.serial < next
  distinct : ∀ pid pid' process process', table pid = some process →
    table pid' = some process' → process.serial = process'.serial → pid = pid'

namespace Processes

/-- The process with this number has not ended. -/
def Alive (t : Processes) (serial : ℕ) : Prop :=
  ∃ pid process, t.table pid = some process ∧ process.serial = serial

/-- Processes end and others begin under any free id; one that goes on keeps its id, but may
change its command line. -/
structure Moves (t t' : Processes) : Prop where
  next : t.next ≤ t'.next
  kept : ∀ pid process', t'.table pid = some process' → process'.serial < t.next →
    ∃ process, t.table pid = some process ∧ process.serial = process'.serial

variable {t t' t'' : Processes} {pid : Int} {process process' : Process} {serial : ℕ}

theorem Moves.refl (t : Processes) : t.Moves t :=
  ⟨Nat.le_refl _, fun _ process h _ => ⟨process, h, rfl⟩⟩

theorem Moves.trans (h : t.Moves t') (h' : t'.Moves t'') : t.Moves t'' := by
  refine ⟨Nat.le_trans h.next h'.next, ?_⟩
  intro pid process'' htable hold
  obtain ⟨process', htable', hsame'⟩ := h'.kept pid process'' htable (by have := h.next; omega)
  obtain ⟨process, htable, hsame⟩ := h.kept pid process' htable' (by omega)
  exact ⟨process, htable, hsame.trans hsame'⟩

theorem Moves.ended (h : t.Moves t') (hold : serial < t.next) (hended : ¬ t.Alive serial) :
    ¬ t'.Alive serial := by
  rintro ⟨pid, process', htable, rfl⟩
  obtain ⟨process, htable', hsame⟩ := h.kept pid process' htable hold
  exact hended ⟨pid, process, htable', hsame⟩

/-- A process that is alive later on has been alive under the same id. -/
theorem Moves.alive (h : t.Moves t') (hold : serial < t.next) (halive : t'.Alive serial) :
    t.Alive serial := by
  by_contra hended
  exact h.ended hold hended halive

/-- **A process that is still alive is the one that was seen under its id in between.** -/
theorem same_of_alive (h : t.Moves t') (htable : t.table pid = some process)
    (htable' : t'.table pid = some process') (halive : t'.Alive process.serial) :
    process'.serial = process.serial := by
  obtain ⟨pid', process'', hat, hsame⟩ := halive
  have hold : process''.serial < t.next := by
    rw [hsame]
    exact t.given pid process htable
  obtain ⟨before, hbefore, hbefore'⟩ := h.kept pid' process'' hat hold
  have hpid : pid' = pid := t.distinct pid' pid before process hbefore htable (hbefore'.trans hsame)
  rw [hpid, htable'] at hat
  rw [Option.some.inj hat, hsame]

end Processes

end Posix
