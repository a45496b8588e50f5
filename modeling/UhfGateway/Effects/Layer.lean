/-
Programs run through a layer that implements their operations.

`Prog.through` replaces each operation of a program by a program of the layer
below, which keeps a memory of its own from one operation to the next.
`World.above` is what the upper program then sees: each operation answers what
some run of its implementation returns.

* `Prog.ensures_of_runs` — the precondition of `Prog.Ensures` is the weakest one;
* `Prog.Runs.exec` — a run where the states follow from the acts is an execution;
* `Prog.through_ensures` — what holds of the upper program in the world above
  holds of the program run through the layer;
* `Prog.Runs.through` — and every run above is a run through the layer;
* `World.Steady` — operations that keep a set of states, with `World.Steady.call` and
  `World.Steady.only`, the rules to pass over one of them and over a program of them;
* `Interface.sum`, `Prog.inr` — two interfaces side by side, and a program of the
  second one as a program of both; `Prog.exec_inr` — its executions.
-/
import UhfGateway.Effects.Trace

namespace Effects

variable {I J : Interface} {α β M S : Type}

namespace Prog

/-- `Ensures` demands no more than what holds of every run. -/
theorem ensures_of_runs {W : World I S} {C : S → Prop} {Q : α → S → Prop} {p : Prog I α} {s : S}
    (h : ∀ r s', p.Runs W s r s' → r.elim (C s') (Q · s')) : p.Ensures W C Q s := by
  induction p generalizing s with
  | done a => exact ⟨fun hd => h none s (.died hd), h (some a) s (.done a s)⟩
  | call o k ih =>
    refine ⟨fun hd => h none s (.died hd), fun s' hc => h none s' (.cut hc), ?_⟩
    intro a s' ha
    exact ih a fun r s'' hr => h r s'' (.call ha hr)

theorem Ensures.and {W : World I S} {C C' : S → Prop} {Q Q' : α → S → Prop} {p : Prog I α} {s : S}
    (h : p.Ensures W C Q s) (h' : p.Ensures W C' Q' s) :
    p.Ensures W (fun s => C s ∧ C' s) (fun a s => Q a s ∧ Q' a s) s := by
  refine ensures_of_runs fun r s' hr => ?_
  have hleft := h.sound hr
  have hright := h'.sound hr
  cases r with
  | none => exact ⟨hleft, hright⟩
  | some a => exact ⟨hleft, hright⟩

theorem ensures_ite {W : World I S} {C : S → Prop} {Q : α → S → Prop} {c : Prop} [Decidable c]
    {p q : Prog I α} {s : S} (hp : c → p.Ensures W C Q s) (hq : ¬ c → q.Ensures W C Q s) :
    (if c then p else q).Ensures W C Q s := by
  split_ifs with hc
  · exact hp hc
  · exact hq hc

theorem Runs.bind {W : World I S} {p : Prog I α} {f : α → Prog I β} {s s₁ s' : S} {a : α}
    {r : Option β} (hp : p.Runs W s (some a) s₁) (hf : (f a).Runs W s₁ r s') :
    (p >>= f).Runs W s r s' := by
  generalize ho : some a = o at hp
  induction hp with
  | done b s =>
    cases ho
    exact hf
  | died _ => cases ho
  | cut _ => cases ho
  | call ha _ ih => exact .call ha (ih hf ho)

/-- A run that has come to its end may as well have died there. -/
theorem Runs.died_at_end {W : World I S} {p : Prog I α} {s s' : S} {a : α}
    (h : p.Runs W s (some a) s') (hd : W.dies s') : p.Runs W s none s' := by
  generalize hr : some a = r at h
  induction h with
  | done b s => exact .died hd
  | died => cases hr
  | cut => cases hr
  | call ha _ ih => exact .call ha (ih hd hr)

/-- A run in a world is one in every world that allows more. -/
theorem Runs.weaken {W W' : World I S} (hanswers : ∀ o s a s', W.answers o s a s' → W'.answers o s a s')
    (hcut : ∀ o s s', W.cut o s s' → W'.cut o s s') (hdies : ∀ s, W.dies s → W'.dies s)
    {p : Prog I α} {s s' : S} {r : Option α} (h : p.Runs W s r s') : p.Runs W' s r s' := by
  induction h with
  | done a s => exact .done a s
  | died hd => exact .died (hdies _ hd)
  | cut hc => exact .cut (hcut _ _ _ hc)
  | call ha _ ih => exact .call (hanswers _ _ _ _ ha) ih

/-- In a world whose states follow from the acts, a run is an execution and its effect. -/
theorem Runs.exec {W : World I S} {effect : S → Act I → S}
    (hW : ∀ o s a s', W.answers o s a s' → s' = effect s ⟨o, a⟩) {p : Prog I α} {s s' : S} {r : α}
    (h : p.Runs W s (some r) s') : ∃ trace, p.Exec trace r ∧ s' = trace.foldl effect s := by
  generalize ho : some r = o at h
  induction h with
  | done b s =>
    cases ho
    exact ⟨[], .done r, rfl⟩
  | died _ => cases ho
  | cut _ => cases ho
  | @call o k s s₁ s₂ a r' ha _ ih =>
    obtain ⟨trace, hexec, hs⟩ := ih ho
    refine ⟨⟨o, a⟩ :: trace, .call a hexec, ?_⟩
    rw [List.foldl_cons, ← hW o s a s₁ ha]
    exact hs

/-- Surroundings that answer as the world may are one of its runs. -/
theorem runs_evalIn {W : World I S} {E : Env I S}
    (hW : ∀ s o, W.answers o s (E.answer s o).1 (E.answer s o).2) (p : Prog I α) (s : S) :
    p.Runs W s (some (p.evalIn E s).1) (p.evalIn E s).2 := by
  induction p generalizing s with
  | done a => exact .done a s
  | call o k ih => exact .call (hW s o) (ih _ _)

end Prog

/-- From a state with `R`, the operations with `P` stay in `R`; where they may be
cut off, `C` holds. -/
structure World.Steady (W : World I S) (C R : S → Prop) (P : I.Op → Prop) : Prop where
  dies : ∀ s, R s → W.dies s → C s
  cut : ∀ o s s', P o → R s → W.cut o s s' → C s'
  keeps : ∀ o s a s', P o → R s → W.answers o s a s' → R s'

theorem World.Steady.call {W : World I S} {C R : S → Prop} {P : I.Op → Prop} {Q : α → S → Prop}
    (hW : W.Steady C R P) {o : I.Op} {k : I.Answer o → Prog I α} {s : S} (ho : P o) (hs : R s)
    (hk : ∀ a s', R s' → (k a).Ensures W C Q s') : (Prog.call o k).Ensures W C Q s :=
  ⟨hW.dies s hs, fun s' hc => hW.cut o s s' ho hs hc,
    fun a s' ha => hk a s' (hW.keeps o s a s' ho hs ha)⟩

/-- A program of such operations stays where it is. -/
theorem World.Steady.only {W : World I S} {C R : S → Prop} {P : I.Op → Prop} {p : Prog I α} {s : S}
    (hW : W.Steady C R P) (hp : p.Only P) (hs : R s) : p.Ensures W C (fun _ => R) s := by
  induction p generalizing s with
  | done a => exact ⟨hW.dies s hs, hs⟩
  | call o k ih => exact hW.call hp.1 hs fun a s' hs' => ih a (hp.2 a) hs'

namespace Prog

/-- Perform each operation by its implementation, from the memory `m` on. -/
def through (impl : M → (o : I.Op) → Prog J (I.Answer o × M)) : Prog I α → M → Prog J (α × M)
  | .done a, m => .done (a, m)
  | .call o k, m => impl m o >>= fun r => (k r.1).through impl r.2

end Prog

/-- The operations of the upper interface, as the implementation performs them. -/
def World.above (W : World J S) (impl : M → (o : I.Op) → Prog J (I.Answer o × M)) :
    World I (M × S) where
  answers o x a x' := (impl x.1 o).Runs W x.2 (some (a, x'.1)) x'.2
  cut o x x' := (impl x.1 o).Runs W x.2 none x'.2
  dies x := W.dies x.2

namespace Prog

variable {W : World J S} {impl : M → (o : I.Op) → Prog J (I.Answer o × M)}

theorem through_ensures {C : S → Prop} {Q : α × M → S → Prop} {p : Prog I α} {m : M} {s : S}
    (h : p.Ensures (W.above impl) (fun x => C x.2) (fun a x => Q (a, x.1) x.2) (m, s)) :
    (p.through impl m).Ensures W C Q s := by
  induction p generalizing m s with
  | done a => exact h
  | call o k ih =>
    refine ensures_bind (ensures_of_runs ?_)
    intro r s' hr
    cases r with
    | none => exact h.2.1 (m, s') hr
    | some r => exact ih r.1 (h.2.2 r.1 (r.2, s') hr)

/-- One operation above: what holds of every run of its implementation. -/
theorem ensures_above {Q : α → M × S → Prop} {o : I.Op} {k : I.Answer o → Prog I α} {m : M} {s : S}
    (h : (impl m o).Ensures W (fun _ => True) (fun r s' =>
      (k r.1).Ensures (W.above impl) (fun _ => True) Q (r.2, s')) s) :
    (Prog.call o k).Ensures (W.above impl) (fun _ => True) Q (m, s) :=
  ⟨fun _ => trivial, fun _ _ => trivial, fun _ _ ha => h.sound ha⟩

theorem Runs.through {p : Prog I α} {x x' : M × S} {a : α}
    (h : p.Runs (W.above impl) x (some a) x') :
    (p.through impl x.1).Runs W x.2 (some (a, x'.1)) x'.2 := by
  generalize ho : some a = o at h
  induction h with
  | done b x =>
    cases ho
    exact .done _ _
  | died _ => cases ho
  | cut _ => cases ho
  | call ha _ ih => exact Runs.bind ha (ih ho)

end Prog

/-! ### Two interfaces side by side -/

/-- The operations of both interfaces. -/
@[reducible] def Interface.sum (I J : Interface) : Interface where
  Op := I.Op ⊕ J.Op
  Answer
    | .inl o => I.Answer o
    | .inr o => J.Answer o

/-- A program of the second interface, as a program of both. -/
def Prog.inr : Prog J α → Prog (I.sum J) α
  | .done a => .done a
  | .call o k => .call (I := I.sum J) (.inr o) fun a => (k a).inr

/-- What a world for both interfaces is for the second one. -/
def World.inr (W : World (I.sum J) S) : World J S where
  answers o := W.answers (.inr o)
  cut o := W.cut (.inr o)
  dies := W.dies

namespace Prog

variable {W : World (I.sum J) S}

theorem inr_ensures {C : S → Prop} {Q : α → S → Prop} {p : Prog J α} {s : S}
    (h : p.Ensures W.inr C Q s) : (p.inr : Prog (I.sum J) α).Ensures W C Q s := by
  induction p generalizing s with
  | done a => exact h
  | call o k ih => exact ⟨h.1, h.2.1, fun a s' ha => ih a (h.2.2 a s' ha)⟩

theorem Runs.inr {p : Prog J α} {s s' : S} {r : Option α} (h : p.Runs W.inr s r s') :
    (p.inr : Prog (I.sum J) α).Runs W s r s' := by
  induction h with
  | done a s => exact .done a s
  | died hd => exact .died hd
  | cut hc => exact .cut (I := I.sum J) hc
  | call ha _ ih => exact .call (I := I.sum J) ha ih

/-- A program of the second interface and what follows it: the one comes to its end, or it is
cut off and the other never begins. -/
theorem Runs.inr_bind {p : Prog J α} {f : α → Prog (I.sum J) β} {r : Option β} {s s' : S}
    (h : ((p.inr : Prog (I.sum J) α) >>= f).Runs W s r s') :
    (∃ a s₁, p.Runs W.inr s (some a) s₁ ∧ (f a).Runs W s₁ r s') ∨
      (p.Runs W.inr s none s' ∧ r = none) := by
  induction p generalizing s with
  | done a => exact .inl ⟨a, s, .done a s, h⟩
  | call o k ih =>
    have hbind : ((Prog.call o k).inr : Prog (I.sum J) α) >>= f =
        .call (I := I.sum J) (.inr o) fun a => (k a).inr >>= f := rfl
    rw [hbind] at h
    cases h with
    | died hd => exact .inr ⟨.died hd, rfl⟩
    | cut hc => exact .inr ⟨.cut hc, rfl⟩
    | call ha hk =>
      rcases ih _ hk with ⟨b, s₂, hrun, hf⟩ | ⟨hrun, hr⟩
      · exact .inl ⟨b, s₂, .call ha hrun, hf⟩
      · exact .inr ⟨.call ha hrun, hr⟩

end Prog

/-- An act of the second interface, as one of both. -/
def Act.inr (act : Act J) : Act (I.sum J) := ⟨.inr act.op, act.answer⟩

theorem Prog.exec_inr {p : Prog J α} {trace : Trace (I.sum J)} {r : α} :
    (p.inr : Prog (I.sum J) α).Exec trace r ↔
      ∃ acts, p.Exec acts r ∧ trace = acts.map Act.inr := by
  induction p generalizing trace with
  | done a =>
    rw [Prog.inr, exec_done]
    constructor
    · rintro ⟨rfl, rfl⟩
      exact ⟨[], .done _, rfl⟩
    · rintro ⟨acts, h, rfl⟩
      obtain ⟨rfl, rfl⟩ := exec_done.mp h
      exact ⟨rfl, rfl⟩
  | call o k ih =>
    rw [Prog.inr, exec_call]
    constructor
    · rintro ⟨a, rest, rfl, h⟩
      obtain ⟨acts, hacts, rfl⟩ := (ih a).mp h
      exact ⟨⟨o, a⟩ :: acts, .call (I := J) a hacts, rfl⟩
    · rintro ⟨acts, h, rfl⟩
      obtain ⟨a, rest, rfl, hrest⟩ := exec_call.mp h
      exact ⟨a, rest.map Act.inr, rfl, (ih a).mpr ⟨rest, hrest, rfl⟩⟩

end Effects
