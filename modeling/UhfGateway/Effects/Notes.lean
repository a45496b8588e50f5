/-
Programs that take notes.

A note is an operation that nothing answers: it records what a program does inside itself, where
the operations do not show it.  `Prog.erase` forgets the notes, so that a program that has been
annotated can be compared with the one it was made of.

* `Prog.erase_plain`, `Prog.erase_bind` — the rules for forgetting;
* `Prog.exec_erase` — forgetting does not change what a program can do;
* `Prog.loops_erase` — and neither does it for a loop.
-/
import UhfGateway.Effects.History

namespace Effects

variable {I : Interface} {N α β S : Type}

/-- The operations of `I`, and notes. -/
@[reducible] def Interface.noting (I : Interface) (N : Type) : Interface where
  Op := I.Op ⊕ N
  Answer
    | .inl o => I.Answer o
    | .inr _ => Unit

namespace Prog

/-- Write a note, and go on. -/
def note (n : N) (rest : Prog (I.noting N) α) : Prog (I.noting N) α :=
  .call (I := I.noting N) (.inr n) fun _ => rest

/-- A program that takes no notes. -/
def plain : Prog I α → Prog (I.noting N) α
  | done a => done a
  | call o k => .call (I := I.noting N) (.inl o) fun a => (k a).plain

/-- The program without its notes. -/
def erase : Prog (I.noting N) α → Prog I α
  | done a => done a
  | call (.inl o) k => call o fun a => (k a).erase
  | call (.inr _) k => (k ()).erase

@[simp] theorem erase_plain (p : Prog I α) : (p.plain : Prog (I.noting N) α).erase = p := by
  induction p with
  | done a => rfl
  | call o k ih => rw [plain, erase, funext ih]

@[simp] theorem erase_bind (p : Prog (I.noting N) α) (f : α → Prog (I.noting N) β) :
    (p >>= f).erase = p.erase >>= fun a => (f a).erase := by
  induction p with
  | done a => rfl
  | call o k ih =>
    cases o with
    | inl o =>
      rw [call_bind, erase, erase, call_bind]
      exact congrArg (call o) (funext fun a => ih a)
    | inr n =>
      rw [call_bind, erase, erase]
      exact ih ()

end Prog

/-- The act without its note. -/
def Act.erase : Act (I.noting N) → Option (Act I)
  | ⟨.inl o, a⟩ => some ⟨o, a⟩
  | ⟨.inr _, _⟩ => none

/-- What has been done, without the notes. -/
def Trace.erase (noted : Trace (I.noting N)) : Trace I := noted.filterMap Act.erase

namespace Prog

theorem exec_erase {p : Prog (I.noting N) α} {trace : Trace I} {r : α} :
    p.erase.Exec trace r ↔ ∃ noted, p.Exec noted r ∧ Trace.erase noted = trace := by
  induction p generalizing trace with
  | done a =>
    rw [erase, exec_done]
    constructor
    · rintro ⟨rfl, rfl⟩
      exact ⟨[], .done r, rfl⟩
    · rintro ⟨noted, h, rfl⟩
      obtain ⟨rfl, rfl⟩ := exec_done.mp h
      exact ⟨rfl, rfl⟩
  | call o k ih =>
    cases o with
    | inl o =>
      rw [erase, exec_call]
      constructor
      · rintro ⟨a, rest, rfl, h⟩
        obtain ⟨noted, hnoted, rfl⟩ := (ih a).mp h
        exact ⟨_, .call (I := I.noting N) (o := .inl o) a hnoted, rfl⟩
      · rintro ⟨noted, h, rfl⟩
        obtain ⟨a, rest, rfl, hrest⟩ := exec_call.mp h
        exact ⟨a, Trace.erase rest, rfl, (ih a).mpr ⟨rest, hrest, rfl⟩⟩
    | inr n =>
      rw [erase, ih ()]
      constructor
      · rintro ⟨noted, h, rfl⟩
        exact ⟨_, .call (I := I.noting N) (o := .inr n) () h, rfl⟩
      · rintro ⟨noted, h, rfl⟩
        obtain ⟨a, rest, rfl, hrest⟩ := exec_call.mp h
        exact ⟨rest, hrest, rfl⟩

/-- The runs of a loop are those of the loop with notes, without the notes. -/
theorem loops_erase {body : S → Prog (I.noting N) (Option S)} {start : S} {trace : Trace I}
    {r : Option S} :
    Loops (fun s => (body s).erase) (fun _ _ => True) start trace r ↔
      ∃ noted, Loops body (fun _ _ => True) start noted r ∧ Trace.erase noted = trace := by
  constructor
  · intro h
    induction h with
    | start => exact ⟨[], .start, rfl⟩
    | round _ exec _ ih =>
      obtain ⟨noted, hloops, rfl⟩ := ih
      obtain ⟨further, hexec, rfl⟩ := exec_erase.mp exec
      exact ⟨noted ++ further, hloops.round hexec trivial, List.filterMap_append⟩
  · rintro ⟨noted, h, rfl⟩
    induction h with
    | start => exact .start
    | round _ exec _ ih =>
      rw [Trace.erase, List.filterMap_append]
      exact ih.round (exec_erase.mpr ⟨_, exec, rfl⟩) trivial

end Prog

end Effects
