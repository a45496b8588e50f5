/-
Systems that move by named actions.

`step s a` is the state after the action `a`, if it is possible in `s`.

* `Steps.invariant` — what every allowed action keeps holds in every state reached.
-/
import Mathlib.Tactic.Common

namespace Effects

section Transition

variable {S A : Type*} {step : S → A → Option S} {Allowed Allowed' : S → A → Prop} {s s' s'' : S}

/-- The states that allowed actions lead to. -/
inductive Steps (step : S → A → Option S) (Allowed : S → A → Prop) (s : S) : S → Prop
  | start : Steps step Allowed s s
  | next {s' s'' : S} {a : A} (h : Steps step Allowed s s') (allowed : Allowed s' a)
      (moved : step s' a = some s'') : Steps step Allowed s s''

theorem Steps.invariant {Inv : S → Prop} (initial : Inv s)
    (preserved : ∀ s' a s'', Inv s' → Allowed s' a → step s' a = some s'' → Inv s'')
    (h : Steps step Allowed s s') : Inv s' := by
  induction h with
  | start => exact initial
  | next _ allowed moved ih => exact preserved _ _ _ ih allowed moved

end Transition

end Effects
