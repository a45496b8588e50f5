/-
Programs that run side by side on a shared state.

Each party works through a program of its own; between any two operations of one
party the others may perform theirs.  There is no lock: what a party can count on is
only what the others' operations leave alone.

* `Interleaved` — the runs in which every move is allowed;
* `Prog.Withstands` — weakest precondition of a program among others that change the
  state by a relation `R` only;
* `Interleaved.withstands` — the rule: a program that withstands `R` keeps doing so along
  a run in which the others move by `R`;
* `Interleaved.perform` — a party that is not disturbed runs as it would alone.
-/
import Mathlib.Logic.Relation
import UhfGateway.Effects.Trace

namespace Effects

variable {I : Interface} {ι α β S : Type}

/-- The shared state, and what is left of each party's program. -/
structure Parties (I : Interface) (ι α S : Type) where
  shared : S
  left : ι → Prog I α

/-- Party `i` performs the next operation of its program. -/
inductive Move [DecidableEq ι] (W : World I S) :
    Parties I ι α S → ι → Act I → Parties I ι α S → Prop
  | move {x : Parties I ι α S} {i : ι} {o : I.Op} {k : I.Answer o → Prog I α} {a : I.Answer o}
      {s : S} (next : x.left i = .call o k) (answers : W.answers o x.shared a s) :
      Move W x i ⟨o, a⟩ ⟨s, Function.update x.left i (k a)⟩

/-- The states that allowed moves lead to. -/
inductive Interleaved [DecidableEq ι] (W : World I S)
    (Allowed : Parties I ι α S → ι → Act I → Prop) (start : Parties I ι α S) :
    Parties I ι α S → Prop
  | refl : Interleaved W Allowed start start
  | step {x y : Parties I ι α S} {i : ι} {act : Act I} (h : Interleaved W Allowed start x)
      (moved : Move W x i act y) (allowed : Allowed x i act) : Interleaved W Allowed start y

namespace Prog

/-- What may be left of a program after some answers. -/
inductive Remainder (p : Prog I α) : Prog I α → Prop
  | whole : Remainder p p
  | answered {o : I.Op} {k : I.Answer o → Prog I α} (h : Remainder p (call o k)) (a : I.Answer o) :
      Remainder p (k a)

theorem Only.remainder {P : I.Op → Prop} {p q : Prog I α} (hp : p.Only P)
    (h : p.Remainder q) : q.Only P := by
  induction h with
  | whole => exact hp
  | answered _ a ih => exact ih.2 a

/-- A program whose operations all have an answer can return. -/
theorem Only.exists_runs {W : World I S} {P : I.Op → Prop} {p : Prog I α} (hp : p.Only P)
    (total : ∀ o, P o → ∀ s, ∃ a s', W.answers o s a s') (s : S) :
    ∃ r s', p.Runs W s (some r) s' := by
  induction p generalizing s with
  | done a => exact ⟨a, s, .done a s⟩
  | call o k ih =>
    obtain ⟨a, s₁, ha⟩ := total o hp.1 s
    obtain ⟨r, s', hr⟩ := ih a (hp.2 a) s₁
    exact ⟨r, s', .call ha hr⟩

/-- Whenever the program returns, `Q` holds then and from then on, however often
others have changed the state by `R` in between. -/
def Withstands (W : World I S) (R : S → S → Prop) (Q : α → S → Prop) : Prog I α → S → Prop
  | done a, s => ∀ s', Relation.ReflTransGen R s s' → Q a s'
  | call o k, s => ∀ s', Relation.ReflTransGen R s s' →
      ∀ a s'', W.answers o s' a s'' → (k a).Withstands W R Q s''

variable {W : World I S} {R : S → S → Prop} {Q : α → S → Prop}

theorem Withstands.result {a : α} {s : S} (h : (done a : Prog I α).Withstands W R Q s) : Q a s :=
  h s .refl

theorem Withstands.disturbed {p : Prog I α} {s s' : S} (h : p.Withstands W R Q s) (hR : R s s') :
    p.Withstands W R Q s' := by
  cases p with
  | done a => exact fun t ht => h t (.head hR ht)
  | call o k => exact fun t ht => h t (.head hR ht)

theorem Withstands.answered {o : I.Op} {k : I.Answer o → Prog I α} {s s' : S} {a : I.Answer o}
    (h : (call o k).Withstands W R Q s) (ha : W.answers o s a s') :
    (k a).Withstands W R Q s' :=
  h s .refl a s' ha

theorem Withstands.mono {Q' : α → S → Prop} {p : Prog I α} {s : S} (h : p.Withstands W R Q s)
    (hQ : ∀ a s, Q a s → Q' a s) : p.Withstands W R Q' s := by
  induction p generalizing s with
  | done a => exact fun t ht => hQ a t (h t ht)
  | call o k ih => exact fun t ht a s' ha => ih a (h t ht a s' ha)

theorem withstands_bind {p : Prog I α} {f : α → Prog I β} {Q : β → S → Prop} {s : S}
    (h : p.Withstands W R (fun a s => (f a).Withstands W R Q s) s) :
    (p >>= f).Withstands W R Q s := by
  induction p generalizing s with
  | done a => exact h.result
  | call o k ih =>
    intro t ht a s' ha
    exact ih a (h t ht a s' ha)

/-- A call whose precondition `P` the others keep. -/
theorem withstands_call {P : S → Prop} {o : I.Op} {k : I.Answer o → Prog I α} {s : S}
    (hP : P s) (stable : ∀ s s', P s → R s s' → P s')
    (h : ∀ s a s', P s → W.answers o s a s' → (k a).Withstands W R Q s') :
    (call o k).Withstands W R Q s := by
  intro t ht
  have hkept : P t := by
    induction ht with
    | refl => exact hP
    | tail _ hR ih => exact stable _ _ ih hR
  intro a s' ha
  exact h t a s' hkept ha

/-- A run that nobody disturbs ends as promised. -/
theorem Withstands.sound {p : Prog I α} {s s' : S} {r : α} (h : p.Withstands W R Q s)
    (hr : p.Runs W s (some r) s') : Q r s' := by
  generalize hres : some r = result at hr
  induction hr with
  | done a s =>
    cases hres
    exact h.result
  | died => cases hres
  | cut => cases hres
  | call ha _ ih => exact ih (h.answered ha) hres

/-- A result whose postcondition the others keep. -/
theorem withstands_done {a : α} {s : S} (h : Q a s) (stable : ∀ s s', Q a s → R s s' → Q a s') :
    (done a : Prog I α).Withstands W R Q s := by
  intro t ht
  induction ht with
  | refl => exact h
  | tail _ hR ih => exact stable _ _ ih hR

end Prog

section Rules

variable [DecidableEq ι] {W : World I S} {Allowed : Parties I ι α S → ι → Act I → Prop}
  {R : S → S → Prop} {Q : α → S → Prop} {P : I.Op → Prop} {start x : Parties I ι α S} {i : ι}

/-- What is left of a program performs no new operations. -/
theorem Interleaved.only (h : Interleaved W Allowed start x) (own : (start.left i).Only P) :
    (x.left i).Only P := by
  induction h with
  | refl => exact own
  | @step x y j act _ moved _ ih =>
    obtain @⟨o, k, a, s, next, _⟩ := moved
    show (Function.update x.left j (k a) i).Only P
    by_cases hj : i = j
    · rw [hj, next] at ih
      rw [hj, Function.update_self]
      exact ih.2 a
    · rw [Function.update_of_ne hj]
      exact ih

/-- If the others perform only operations in `P`, and their allowed moves change the
state by `R`, then a program that withstands `R` keeps doing so. -/
theorem Interleaved.withstands (h : Interleaved W Allowed start x)
    (others : ∀ j, j ≠ i → (start.left j).Only P)
    (guarantee : ∀ x j act y, j ≠ i → Move W x j act y → Allowed x j act → P act.op →
      R x.shared y.shared)
    (own : (start.left i).Withstands W R Q start.shared) :
    (x.left i).Withstands W R Q x.shared := by
  induction h with
  | refl => exact own
  | @step x y j act hrun moved allowed ih =>
    by_cases hj : j = i
    · -- its own move
      subst hj
      obtain @⟨o, k, a, s, next, answers⟩ := moved
      show (Function.update x.left j (k a) j).Withstands W R Q s
      rw [Function.update_self]
      rw [next] at ih
      exact ih.answered answers
    · -- a move of another party
      have hother := hrun.only (others j hj)
      obtain @⟨o, k, a, s, next, answers⟩ := moved
      rw [next] at hother
      have hR : R x.shared s :=
        guarantee x j ⟨o, a⟩ _ hj (.move next answers) allowed hother.1
      show (Function.update x.left j (k a) i).Withstands W R Q s
      rw [Function.update_of_ne (Ne.symm hj)]
      exact ih.disturbed hR

theorem Interleaved.trans {y : Parties I ι α S} (h : Interleaved W Allowed start x)
    (h' : Interleaved W Allowed x y) : Interleaved W Allowed start y := by
  induction h' with
  | refl => exact h
  | step _ moved allowed ih => exact ih.step moved allowed

/-- The next operation, and what is left of the programs after it. -/
theorem Move.of_call {o : I.Op} {k : I.Answer o → Prog I α} {a : I.Answer o} {s : S}
    (next : x.left i = .call o k) (answers : W.answers o x.shared a s) :
    ∃ y, Move W x i ⟨o, a⟩ y ∧ y.shared = s ∧ y.left i = k a ∧ ∀ j, j ≠ i → y.left j = x.left j :=
  ⟨_, .move next answers, rfl, Function.update_self .., fun _ hj => Function.update_of_ne hj _ _⟩

/-- One party at work on the first part of its program. -/
theorem Interleaved.perform {p : Prog I β} {f : β → Prog I α} {s : S} {r : β}
    (allowed : ∀ x act, Allowed x i act) (next : start.left i = p >>= f)
    (h : p.Runs W start.shared (some r) s) :
    ∃ y, Interleaved W Allowed start y ∧ y.shared = s ∧ y.left i = f r ∧
      ∀ j, j ≠ i → y.left j = start.left j := by
  generalize hs : start.shared = s₀ at h
  generalize hr : some r = result at h
  induction h generalizing start with
  | done _ s =>
    cases hr
    exact ⟨start, .refl, hs, next, fun _ _ => rfl⟩
  | died => cases hr
  | cut => cases hr
  | @call o k s s' s'' a result ha hk ih =>
    subst hs
    obtain ⟨x, hmove, hx, hnext, hkept⟩ := Move.of_call next ha
    obtain ⟨y, hrun, hshared, hleft, hothers⟩ := ih hnext hx hr
    refine ⟨y, (Interleaved.refl.step hmove (allowed _ _)).trans hrun, hshared, hleft, ?_⟩
    intro j hj
    rw [hothers j hj, hkept j hj]

end Rules

end Effects
