/-
Programs over an interface, and the states a crash can leave behind.

`Prog I α` is a computation that talks to its surroundings only through the
operations of the interface `I`; it is a tree that branches on the answers.
`World I S` says what each operation may answer and do to a state, what it may
leave behind when it is interrupted, and where the process may die between two
operations.  `Prog.Runs` is the resulting big-step relation, with outcome
`none` for a process that died; since it may die anywhere the world allows, the
states of crashed runs are exactly the intermediate states.

* `Prog.Ensures` — crash-aware weakest precondition, by recursion on the tree;
* `Prog.Ensures.sound` — what it says about every run, complete or crashed;
* `Prog.ensures_mono`, `Prog.ensures_bind` — how it composes;
* `Service.Run` — requests served one after the other by a process that may die
  and start afresh; `Service.Run.invariant` and `Service.Run.cut_after` are the
  rules to reason about such runs;
* `World.traced` — the same world with a log of every operation started.
-/
import Mathlib.Logic.Function.Basic
import Mathlib.Tactic.Common

namespace Effects

/-- The operations a program may perform and the type of answer to each. -/
structure Interface where
  Op : Type
  Answer : Op → Type

/-- A program over the interface `I` that returns an `α`. -/
inductive Prog (I : Interface) (α : Type) : Type
  | done (a : α) : Prog I α
  | call (o : I.Op) (k : I.Answer o → Prog I α) : Prog I α

namespace Prog

variable {I : Interface} {α β : Type}

@[simp] protected def bind : Prog I α → (α → Prog I β) → Prog I β
  | done a, f => f a
  | call o k, f => call o fun a => (k a).bind f

instance : Monad (Prog I) where
  pure := done
  bind := Prog.bind

@[simp] theorem call_bind (o : I.Op) (k : I.Answer o → Prog I α) (f : α → Prog I β) :
    (call o k >>= f) = call o fun a => k a >>= f := rfl

@[simp] theorem bind_done (p : Prog I α) : (p >>= done) = p := by
  induction p with
  | done a => rfl
  | call o k ih => rw [call_bind, funext ih]

end Prog

/-- What surrounds a program: the possible answers of each operation with the
state after it, the states an interrupted operation may leave, and the states in
which the process may die between two operations. -/
structure World (I : Interface) (S : Type) where
  answers : (o : I.Op) → S → I.Answer o → S → Prop
  cut : I.Op → S → S → Prop
  dies : S → Prop

namespace Prog

variable {I : Interface} {α β S : Type}

/-- `p.Runs W s r s'`: started in `s`, the program may end in `s'` having
returned `r`, or having died when `r = none`. -/
inductive Runs (W : World I S) : Prog I α → S → Option α → S → Prop
  | done (a : α) (s : S) : Runs W (done a) s (some a) s
  | died {p : Prog I α} {s : S} (h : W.dies s) : Runs W p s none s
  | cut {o : I.Op} {k : I.Answer o → Prog I α} {s s' : S} (h : W.cut o s s') :
      Runs W (call o k) s none s'
  | call {o : I.Op} {k : I.Answer o → Prog I α} {s s' s'' : S} {a : I.Answer o} {r : Option α}
      (h : W.answers o s a s') (hk : Runs W (k a) s' r s'') : Runs W (call o k) s r s''

/-- Crash-aware weakest precondition: `C` holds wherever the run may be cut off,
and `Q` holds of the result and the state in which the program returns. -/
def Ensures (W : World I S) (C : S → Prop) (Q : α → S → Prop) : Prog I α → S → Prop
  | done a, s => (W.dies s → C s) ∧ Q a s
  | call o k, s =>
      (W.dies s → C s) ∧ (∀ s', W.cut o s s' → C s') ∧
        ∀ a s', W.answers o s a s' → (k a).Ensures W C Q s'

variable {W : World I S} {C C' : S → Prop} {Q Q' : α → S → Prop}

theorem Ensures.sound {p : Prog I α} {s s' : S} {r : Option α}
    (h : p.Ensures W C Q s) (hr : p.Runs W s r s') : r.elim (C s') (Q · s') := by
  induction hr with
  | done a s => exact h.2
  | @died p s hd =>
    cases p with
    | done a => exact h.1 hd
    | call o k => exact h.1 hd
  | cut hc => exact h.2.1 _ hc
  | call ha _ ih => exact ih (h.2.2 _ _ ha)

theorem ensures_mono (hC : ∀ s, C s → C' s) (hQ : ∀ a s, Q a s → Q' a s)
    {p : Prog I α} {s : S} (h : p.Ensures W C Q s) : p.Ensures W C' Q' s := by
  induction p generalizing s with
  | done a => exact ⟨fun hd => hC _ (h.1 hd), hQ _ _ h.2⟩
  | call o k ih =>
    exact ⟨fun hd => hC _ (h.1 hd), fun s' hc => hC _ (h.2.1 s' hc),
      fun a s' ha => ih a (h.2.2 a s' ha)⟩

theorem ensures_bind {R : β → S → Prop} {p : Prog I α} {f : α → Prog I β} {s : S}
    (h : p.Ensures W C (fun a s' => (f a).Ensures W C R s') s) :
    (p >>= f).Ensures W C R s := by
  induction p generalizing s with
  | done a => exact h.2
  | call o k ih => exact ⟨h.1, h.2.1, fun a s' ha => ih a (h.2.2 a s' ha)⟩

/-- Where every operation has an answer, every program can return. -/
theorem exists_runs (hW : ∀ o s, ∃ a s', W.answers o s a s') (p : Prog I α) (s : S) :
    ∃ a s', p.Runs W s (some a) s' := by
  induction p generalizing s with
  | done a => exact ⟨a, s, .done a s⟩
  | call o k ih =>
    obtain ⟨a, s₁, ha⟩ := hW o s
    obtain ⟨b, s', hb⟩ := ih a s₁
    exact ⟨b, s', .call ha hb⟩

end Prog

/-! ### Services: programs run one after the other -/

/-- A process that serves requests one at a time.  It keeps a memory between
them, which a process started afresh gets from `fresh`. -/
structure Service (I : Interface) (M Req Res : Type) where
  program : M → Req → Prog I (Res × M)
  fresh : M → M

/-- One served request: the states around it and its result, `none` if the
process died. -/
structure Episode (S Req Res : Type) where
  request : Req
  before : S
  result : Option Res
  after : S

variable {I : Interface} {S M Req Res : Type}

/-- The runs of a service: it serves requests, and between them the surroundings
move on by themselves (`E`). -/
inductive Service.Run (P : Service I M Req Res) (W : World I S) (E : M → S → M → S → Prop)
    (m₀ : M) (s₀ : S) : List (Episode S Req Res) → M → S → Prop
  | start : Run P W E m₀ s₀ [] m₀ s₀
  | returned {es m s q r m' s'} (h : Run P W E m₀ s₀ es m s)
      (hr : (P.program m q).Runs W s (some (r, m')) s') :
      Run P W E m₀ s₀ (es ++ [⟨q, s, some r, s'⟩]) m' s'
  | died {es m s q s'} (h : Run P W E m₀ s₀ es m s)
      (hr : (P.program m q).Runs W s none s') :
      Run P W E m₀ s₀ (es ++ [⟨q, s, none, s'⟩]) (P.fresh m) s'
  | env {es m s m' s'} (h : Run P W E m₀ s₀ es m s) (he : E m s m' s') :
      Run P W E m₀ s₀ es m' s'

/-- No step of the surroundings between two requests. -/
def noEnv : M → S → M → S → Prop := fun _ _ _ _ => False

section Rules

variable {P : Service I M Req Res} {W : World I S} {E : M → S → M → S → Prop} {m₀ : M} {s₀ : S}
  {es : List (Episode S Req Res)} {m : M} {s : S}

/-- What every request and every step of the surroundings keeps holds throughout. -/
theorem Service.Run.invariant (Inv : M → S → Prop) (h₀ : Inv m₀ s₀)
    (hstep : ∀ m q s, Inv m s →
      (P.program m q).Ensures W (Inv (P.fresh m)) (fun r => Inv r.2) s)
    (henv : ∀ m s m' s', Inv m s → E m s m' s' → Inv m' s')
    (h : P.Run W E m₀ s₀ es m s) : Inv m s := by
  induction h with
  | start => exact h₀
  | returned _ hr ih => exact (hstep _ _ _ ih).sound hr
  | died _ hr ih => exact (hstep _ _ _ ih).sound hr
  | env _ he ih => exact henv _ _ _ _ ih he

/-- A run can be cut right after any of its episodes. -/
theorem Service.Run.cut_after {es₁ es₂ : List (Episode S Req Res)} {e : Episode S Req Res}
    (h : P.Run W E m₀ s₀ (es₁ ++ e :: es₂) m s) :
    ∃ m₁, P.Run W E m₀ s₀ (es₁ ++ [e]) m₁ e.after ∧ P.Run W E m₁ e.after es₂ m s := by
  generalize hes : es₁ ++ e :: es₂ = es at h
  -- a step that ends the run with `e'` is the episode `e` itself or lies behind it
  have hlast : ∀ {es₂ es' : List (Episode S Req Res)} {e'}, es₁ ++ e :: es₂ = es' ++ [e'] →
      (es₂ = [] ∧ es₁ = es' ∧ e = e') ∨
        ∃ es₂', es₂ = es₂' ++ [e'] ∧ es₁ ++ e :: es₂' = es' := by
    intro es₂ es' e' heq
    rcases List.eq_nil_or_concat es₂ with rfl | ⟨es₂', e'', rfl⟩
    · obtain ⟨h₁, h₂⟩ := List.append_inj' heq rfl
      exact .inl ⟨rfl, h₁, by simpa using h₂⟩
    · rw [List.concat_eq_append, ← List.cons_append, ← List.append_assoc] at heq
      obtain ⟨h₁, h₂⟩ := List.append_inj' heq rfl
      exact .inr ⟨es₂', by rw [List.concat_eq_append, h₂], h₁⟩
  induction h generalizing es₂ with
  | start => simp at hes
  | env h he ih =>
    obtain ⟨m₁, h₁, h₂⟩ := ih hes
    exact ⟨m₁, h₁, .env h₂ he⟩
  | returned h hr ih =>
    rcases hlast hes with ⟨rfl, rfl, rfl⟩ | ⟨es₂', rfl, hes'⟩
    · exact ⟨_, .returned h hr, .start⟩
    · obtain ⟨m₁, h₁, h₂⟩ := ih hes'
      exact ⟨m₁, h₁, .returned h₂ hr⟩
  | died h hr ih =>
    rcases hlast hes with ⟨rfl, rfl, rfl⟩ | ⟨es₂', rfl, hes'⟩
    · exact ⟨_, .died h hr, .start⟩
    · obtain ⟨m₁, h₁, h₂⟩ := ih hes'
      exact ⟨m₁, h₁, .died h₂ hr⟩

end Rules

/-- One operation as it was started: `none` for the answer if it was cut off. -/
structure Event (I : Interface) where
  op : I.Op
  answer : Option (I.Answer op)

/-- The same world with the list of operations started so far, oldest first. -/
def World.traced (W : World I S) :
    World I (S × List (Event I)) where
  answers o s a s' := W.answers o s.1 a s'.1 ∧ s'.2 = s.2 ++ [⟨o, some a⟩]
  cut o s s' := W.cut o s.1 s'.1 ∧ s'.2 = s.2 ++ [⟨o, none⟩]
  dies s := W.dies s.1

/-- What a run logs does not depend on what was logged before. -/
theorem Prog.Runs.traced_suffix {α : Type} {W : World I S} {p : Prog I α} {s : S}
    {log : List (Event I)} {r : Option α} {x : S × List (Event I)}
    (h : p.Runs W.traced (s, log) r x) :
    ∃ added, x.2 = log ++ added ∧ p.Runs W.traced (s, []) r (x.1, added) := by
  suffices hgen : ∀ base, ∃ added, x.2 = log ++ added ∧
      p.Runs W.traced (s, base) r (x.1, base ++ added) from by simpa using hgen []
  intro base
  generalize hy : (s, log) = y at h
  induction h generalizing s log base with
  | done a y =>
    subst hy
    exact ⟨[], by simp, by simpa using .done a (s, base)⟩
  | died hd =>
    subst hy
    exact ⟨[], by simp, by simpa using .died (s := (s, base)) hd⟩
  | cut hc =>
    subst hy
    exact ⟨_, hc.2, .cut ⟨hc.1, rfl⟩⟩
  | @call o k y y' y'' a r ha hk ih =>
    subst hy
    obtain ⟨added, hx, hrun⟩ := ih (base ++ [⟨o, some a⟩]) rfl
    refine ⟨⟨o, some a⟩ :: added, ?_, ?_⟩
    · rw [hx, ha.2]
      simp
    · have hanswer : W.traced.answers o (s, base) a (y'.1, base ++ [⟨o, some a⟩]) := ⟨ha.1, rfl⟩
      have hcall := Runs.call hanswer hrun
      simpa using hcall

theorem Prog.Runs.logged {α : Type} {W : World I S} {o : I.Op} {k : I.Answer o → Prog I α}
    {s s' : S} {log : List (Event I)} {r : Option α} {x : S × List (Event I)} (a : I.Answer o)
    (h : W.answers o s a s') (hk : (k a).Runs W.traced (s', log ++ [⟨o, some a⟩]) r x) :
    (Prog.call o k).Runs W.traced (s, log) r x :=
  .call ⟨h, rfl⟩ hk

theorem Prog.Runs.cutLogged {α : Type} {W : World I S} {o : I.Op} {k : I.Answer o → Prog I α}
    {s s' : S} {log : List (Event I)} (h : W.cut o s s') :
    (Prog.call o k).Runs W.traced (s, log) none (s', log ++ [⟨o, none⟩]) :=
  .cut ⟨h, rfl⟩

end Effects
