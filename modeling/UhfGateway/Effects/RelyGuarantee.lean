/-
Parties that promise something to each other.

A party among others relies on what they do to the shared state (`R`), and promises in
turn that each of its own operations changes it in a certain way (`G`).  The promise may
rest on what the party has learnt so far, so it is made along the program and not of its
operations one by one.

* `Prog.Guarantees` — the program changes the state by `G` only, and leaves `Q` behind;
* `guarantees_call`, `guarantees_done`, `Prog.Only.guarantees` — how a program is shown to;
* `Interleaved.parallel` — parties whose promises cover what the others rely on keep them;
* `Interleaved.kept` — what every promise keeps holds throughout.
-/
import UhfGateway.Effects.Interleave

namespace Effects

variable {I : Interface} {ι α S : Type}

namespace Prog

/-- As long as others change the state by `R`, every operation of the program changes it by
`G`, and whenever the program returns, `Q` holds then and from then on. -/
def Guarantees (W : World I S) (R G : S → S → Prop) (Q : α → S → Prop) : Prog I α → S → Prop
  | done a, s => ∀ s', Relation.ReflTransGen R s s' → Q a s'
  | call o k, s => ∀ s', Relation.ReflTransGen R s s' →
      ∀ a s'', W.answers o s' a s'' → G s' s'' ∧ (k a).Guarantees W R G Q s''

variable {W : World I S} {R G : S → S → Prop} {Q : α → S → Prop}

theorem Guarantees.disturbed {p : Prog I α} {s s' : S} (h : p.Guarantees W R G Q s)
    (hR : R s s') : p.Guarantees W R G Q s' := by
  cases p with
  | done a => exact fun t ht => h t (.head hR ht)
  | call o k => exact fun t ht => h t (.head hR ht)

theorem Guarantees.result {a : α} {s : S}
    (h : (done a : Prog I α).Guarantees W R G Q s) : Q a s :=
  h s .refl

theorem Guarantees.answered {o : I.Op} {k : I.Answer o → Prog I α} {s s' : S} {a : I.Answer o}
    (h : (call o k).Guarantees W R G Q s) (ha : W.answers o s a s') :
    G s s' ∧ (k a).Guarantees W R G Q s' :=
  h s .refl a s' ha

theorem Guarantees.mono {Q' : α → S → Prop} {p : Prog I α} {s : S}
    (h : p.Guarantees W R G Q s) (hQ : ∀ a s, Q a s → Q' a s) : p.Guarantees W R G Q' s := by
  induction p generalizing s with
  | done a => exact fun t ht => hQ a t (h t ht)
  | call o k ih =>
    intro t ht a s' ha
    obtain ⟨hG, hnext⟩ := h t ht a s' ha
    exact ⟨hG, ih a hnext⟩

/-- What the others keep still holds when they have moved. -/
theorem kept_of_stable {P : S → Prop} {s t : S} (hP : P s)
    (stable : ∀ s s', P s → R s s' → P s') (ht : Relation.ReflTransGen R s t) : P t := by
  induction ht with
  | refl => exact hP
  | tail _ hR ih => exact stable _ _ ih hR

/-- A call whose precondition `P` the others keep. -/
theorem guarantees_call {P : S → Prop} {o : I.Op} {k : I.Answer o → Prog I α} {s : S}
    (hP : P s) (stable : ∀ s s', P s → R s s' → P s')
    (h : ∀ s a s', P s → W.answers o s a s' → G s s' ∧ (k a).Guarantees W R G Q s') :
    (call o k).Guarantees W R G Q s := by
  intro t ht a s' ha
  exact h t a s' (kept_of_stable hP stable ht) ha

/-- A result whose postcondition the others keep. -/
theorem guarantees_done {a : α} {s : S} (h : Q a s) (stable : ∀ s s', Q a s → R s s' → Q a s') :
    (done a : Prog I α).Guarantees W R G Q s := by
  intro t ht
  exact kept_of_stable h stable ht

/-- A program whose operations all keep the promise, in whatever state they are performed. -/
theorem Only.guarantees {P : I.Op → Prop} {p : Prog I α} (hp : p.Only P)
    (h : ∀ o, P o → ∀ s a s', W.answers o s a s' → G s s') (s : S) :
    p.Guarantees W R G (fun _ _ => True) s := by
  induction p generalizing s with
  | done a => exact fun _ _ => trivial
  | call o k ih =>
    intro t _ a s' ha
    exact ⟨h o hp.1 t a s' ha, ih a (hp.2 a) s'⟩

end Prog

section Rules

variable [DecidableEq ι] {W : World I S} {Allowed : Parties I ι α S → ι → Act I → Prop}
  {R G : ι → S → S → Prop} {Q : ι → α → S → Prop} {start x : Parties I ι α S}

/-- Parties whose promises cover what each of the others relies on keep them all, in
whatever order they move. -/
theorem Interleaved.parallel (h : Interleaved W Allowed start x)
    (compatible : ∀ i j, i ≠ j → ∀ s s', G j s s' → R i s s')
    (own : ∀ i, (start.left i).Guarantees W (R i) (G i) (Q i) start.shared) (i : ι) :
    (x.left i).Guarantees W (R i) (G i) (Q i) x.shared := by
  induction h generalizing i with
  | refl => exact own i
  | @step x y j act _ moved _ ih =>
    obtain @⟨o, k, a, s, next, answers⟩ := moved
    have hmover := ih j
    rw [next] at hmover
    obtain ⟨hG, hleft⟩ := hmover.answered answers
    show (Function.update x.left j (k a) i).Guarantees W (R i) (G i) (Q i) s
    by_cases hij : i = j
    · subst hij
      rw [Function.update_self]
      exact hleft
    · rw [Function.update_of_ne hij]
      exact (ih i).disturbed (compatible i j hij _ _ hG)

/-- What every promise keeps holds in every state the parties lead to. -/
theorem Interleaved.kept (h : Interleaved W Allowed start x)
    (compatible : ∀ i j, i ≠ j → ∀ s s', G j s s' → R i s s')
    (own : ∀ i, (start.left i).Guarantees W (R i) (G i) (Q i) start.shared)
    {Inv : S → Prop} (first : Inv start.shared)
    (keeps : ∀ i s s', Inv s → G i s s' → Inv s') : Inv x.shared := by
  induction h with
  | refl => exact first
  | @step x y j act hrun moved _ ih =>
    obtain @⟨o, k, a, s, next, answers⟩ := moved
    have hmover := hrun.parallel compatible own j
    rw [next] at hmover
    exact keeps j _ _ ih (hmover.answered answers).1

end Rules

end Effects
