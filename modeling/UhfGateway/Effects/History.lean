/-
Programs judged by all they have done so far.

`Prog.Heeds Ok Q p before` is a precondition whose state is the history itself: behind the acts
of `before` the program `p` performs an operation only where `Ok` allows it after everything
done up to there, and when it returns, `Q` holds of the result and of the whole history.

* `Prog.heeds_bind`, `Prog.Heeds.mono` — how it composes;
* `Prog.Heeds.and_exec` — what is known of the executions may be added to the outcome;
* `Prog.Only.heeds` — the acts of a program are operations it may perform;
* `Prog.Within.heeds` — what is known of the operations and the results of a program makes it heed;
* `Prog.Loops.heeds` — the rule for loops;
* `Prog.Heeds.outcome`, `Prog.Heeds.allowed` — what it says about every execution;
* `Prog.Heeds.ensures` — and about the states of a world that follow from the acts;
* `cut_cases` — how two acts of one history stand to each other;
* `exists_first`, `exists_last` — the first and the last act of a kind.
-/
import UhfGateway.Effects.Trace

namespace Effects

/-- Of two acts of one history one comes first, or they are the same. -/
theorem cut_cases {A : Type} {before before' after after' : List A} {a a' : A}
    (h : before ++ a :: after = before' ++ a' :: after') :
    (∃ mid, before' = before ++ a :: mid ∧ after = mid ++ a' :: after') ∨
      (before = before' ∧ a = a' ∧ after = after') ∨
      ∃ mid, before = before' ++ a' :: mid ∧ after' = mid ++ a :: after := by
  obtain ⟨mid, rfl, hrest⟩ | ⟨mid, rfl, hrest⟩ := List.append_eq_append_iff.mp h
  · cases mid with
    | nil =>
      obtain ⟨rfl, rfl⟩ := List.cons.inj hrest
      exact .inr (.inl ⟨(List.append_nil before).symm, rfl, rfl⟩)
    | cons x mid =>
      obtain ⟨rfl, rfl⟩ := List.cons.inj hrest
      exact .inl ⟨mid, rfl, rfl⟩
  · cases mid with
    | nil =>
      obtain ⟨rfl, rfl⟩ := List.cons.inj hrest
      exact .inr (.inl ⟨List.append_nil before', rfl, rfl⟩)
    | cons x mid =>
      obtain ⟨rfl, rfl⟩ := List.cons.inj hrest
      exact .inr (.inr ⟨mid, rfl, rfl⟩)

/-- The first of the acts of a kind. -/
theorem exists_first {A : Type} {p : A → Bool} {history : List A} (h : ∃ a ∈ history, p a = true) :
    ∃ before a after, history = before ++ a :: after ∧ p a = true ∧ ∀ x ∈ before, p x = false := by
  induction history with
  | nil => simp at h
  | cons a history ih =>
    cases ha : p a with
    | true => exact ⟨[], a, history, rfl, ha, by simp⟩
    | false =>
      obtain ⟨before, first, after, rfl, hfirst, hbefore⟩ := ih (by simpa [ha] using h)
      exact ⟨a :: before, first, after, rfl, hfirst, List.forall_mem_cons.mpr ⟨ha, hbefore⟩⟩

/-- The last of the acts of a kind. -/
theorem exists_last {A : Type} {p : A → Bool} {history : List A} (h : ∃ a ∈ history, p a = true) :
    ∃ before a after, history = before ++ a :: after ∧ p a = true ∧ ∀ x ∈ after, p x = false := by
  have hreverse : ∃ a ∈ history.reverse, p a = true := by simpa using h
  obtain ⟨after, a, before, heq, ha, hafter⟩ := exists_first hreverse
  refine ⟨before.reverse, a, after.reverse, ?_, ha, by simpa using hafter⟩
  rw [← List.reverse_reverse history, heq]
  simp

namespace Prog

variable {I : Interface} {α β : Type}

def Heeds (Ok : Trace I → I.Op → Prop) (Q : α → Trace I → Prop) : Prog I α → Trace I → Prop
  | done a, before => Q a before
  | call o k, before => Ok before o ∧ ∀ a, (k a).Heeds Ok Q (before ++ [⟨o, a⟩])

variable {Ok : Trace I → I.Op → Prop} {Q Q' : α → Trace I → Prop} {p : Prog I α}
  {before trace : Trace I} {r : α}

theorem Heeds.mono (h : p.Heeds Ok Q before) (hQ : ∀ a done, Q a done → Q' a done) :
    p.Heeds Ok Q' before := by
  induction p generalizing before with
  | done a => exact hQ a before h
  | call o k ih => exact ⟨h.1, fun a => ih a (h.2 a)⟩

theorem heeds_bind {R : β → Trace I → Prop} {f : α → Prog I β}
    (h : p.Heeds Ok (fun a => (f a).Heeds Ok R) before) : (p >>= f).Heeds Ok R before := by
  induction p generalizing before with
  | done a => exact h
  | call o k ih => exact ⟨h.1, fun a => ih a (h.2 a)⟩

theorem Heeds.and_exec (h : p.Heeds Ok Q before)
    (hexec : ∀ trace r, Exec p trace r → Q' r (before ++ trace)) :
    p.Heeds Ok (fun a done => Q a done ∧ Q' a done) before := by
  induction p generalizing before with
  | done a =>
    have hdone := hexec [] a (.done a)
    rw [List.append_nil] at hdone
    exact ⟨h, hdone⟩
  | call o k ih =>
    refine ⟨h.1, fun a => ih a (h.2 a) ?_⟩
    intro trace r hk
    have hcall := hexec (⟨o, a⟩ :: trace) r (.call a hk)
    rw [List.append_assoc]
    exact hcall

theorem Heeds.outcome (h : p.Heeds Ok Q before) (he : Exec p trace r) : Q r (before ++ trace) := by
  induction he generalizing before with
  | done a =>
    rw [List.append_nil]
    exact h
  | call a _ ih =>
    have hrest := ih (h.2 a)
    rw [List.append_assoc] at hrest
    exact hrest

theorem Heeds.allowed (h : p.Heeds Ok Q before) (he : Exec p trace r) {first rest : Trace I}
    {act : Act I} (htrace : trace = first ++ act :: rest) : Ok (before ++ first) act.op := by
  induction he generalizing before first with
  | done a => simp at htrace
  | @call o k trace r a _ ih =>
    cases first with
    | nil =>
      cases htrace
      rw [List.append_nil]
      exact h.1
    | cons act' first =>
      obtain ⟨rfl, hrest⟩ := List.cons.inj htrace
      have hlater := ih (h.2 a) hrest
      rw [List.append_assoc] at hlater
      exact hlater

theorem Heeds.and {Ok' : Trace I → I.Op → Prop} (h : p.Heeds Ok Q before)
    (h' : p.Heeds Ok' Q' before) :
    p.Heeds (fun done o => Ok done o ∧ Ok' done o) (fun a done => Q a done ∧ Q' a done) before := by
  induction p generalizing before with
  | done a => exact ⟨h, h'⟩
  | call o k ih => exact ⟨⟨h.1, h'.1⟩, fun a => ih a (h.2 a) (h'.2 a)⟩

/-- The acts of a program are operations it may perform. -/
theorem Only.heeds {P : I.Op → Prop} (h : p.Only P) (hbefore : ∀ act ∈ before, P act.op) :
    p.Heeds (fun done _ => ∀ act ∈ done, P act.op) (fun _ done => ∀ act ∈ done, P act.op)
      before := by
  induction p generalizing before with
  | done a => exact hbefore
  | call o k ih =>
    refine ⟨hbefore, fun a => ih a (h.2 a) ?_⟩
    rw [List.forall_mem_append, List.forall_mem_singleton]
    exact ⟨hbefore, h.1⟩

/-- Every operation the program may perform satisfies `P`, and whatever it returns satisfies `R`. -/
def Within (P : I.Op → Prop) (R : α → Prop) : Prog I α → Prop
  | done a => R a
  | call o k => P o ∧ ∀ a, (k a).Within P R

theorem within_ite {P : I.Op → Prop} {R : α → Prop} {c : Prop} [Decidable c] {p q : Prog I α}
    (hp : c → p.Within P R) (hq : ¬ c → q.Within P R) : (if c then p else q).Within P R := by
  split_ifs with hc
  · exact hp hc
  · exact hq hc

theorem Within.mono {P P' : I.Op → Prop} {R R' : α → Prop} (hp : p.Within P R)
    (hP : ∀ o, P o → P' o) (hR : ∀ a, R a → R' a) : p.Within P' R' := by
  induction p with
  | done a => exact hR a hp
  | call o k ih => exact ⟨hP o hp.1, fun a => ih a (hp.2 a)⟩

theorem within_bind {P : I.Op → Prop} {R : α → Prop} {R' : β → Prop} {f : α → Prog I β}
    (hp : p.Within P R) (hf : ∀ a, R a → (f a).Within P R') : (p >>= f).Within P R' := by
  induction p with
  | done a => exact hf a hp
  | call o k ih => exact ⟨hp.1, fun a => ih a (hp.2 a)⟩

theorem Within.returned {P : I.Op → Prop} {R : α → Prop} (hp : p.Within P R)
    (he : Exec p trace r) : R r := by
  induction he with
  | done a => exact hp
  | call a _ ih => exact ih (hp.2 a)

/-- A program of operations that keep `Inv`, which allows all of them. -/
theorem Within.heeds {P : I.Op → Prop} {R : α → Prop} {Inv : Trace I → Prop} (hp : p.Within P R)
    (hkept : ∀ done o a, P o → Inv done → Inv (done ++ [⟨o, a⟩]))
    (hOk : ∀ done o, P o → Inv done → Ok done o) (hQ : ∀ a done, R a → Inv done → Q a done)
    (hbefore : Inv before) : p.Heeds Ok Q before := by
  induction p generalizing before with
  | done a => exact hQ a before hp hbefore
  | call o k ih =>
    exact ⟨hOk before o hp.1 hbefore, fun a => ih a (hp.2 a) (hkept before o a hp.1 hbefore)⟩

/-- A loop each of whose rounds heeds what the rounds before it have established. -/
theorem Loops.heeds {S : Type} {body : S → Prog I (Option S)} {Allowed : S → Trace I → Prop}
    {start : S} {Inv : Option S → Trace I → Prop} (hstart : Inv (some start) [])
    (hbody : ∀ s done, Inv (some s) done → (body s).Heeds Ok Inv done)
    {result : Option S} (h : Loops body Allowed start trace result) :
    Inv result trace ∧ ∀ first act rest, trace = first ++ act :: rest → Ok first act.op := by
  induction h with
  | start => exact ⟨hstart, by simp⟩
  | @round trace further s r _ exec _ ih =>
    have hround := hbody s trace ih.1
    refine ⟨hround.outcome exec, ?_⟩
    intro first act rest heq
    -- the act is one of this round, or of those before
    obtain ⟨mid, rfl, hlater⟩ | ⟨mid, rfl, hlater⟩ := List.append_eq_append_iff.mp heq
    · exact hround.allowed exec hlater
    · cases mid with
      | nil =>
        have hnow : further = [] ++ act :: rest := hlater.symm
        have hfirst := hround.allowed exec hnow
        rw [List.append_nil, List.append_nil] at hfirst
        exact hfirst
      | cons act' mid =>
        obtain ⟨rfl, -⟩ := List.cons.inj hlater
        exact ih.2 first act mid rfl

/-- In a world whose states follow from the acts, and where an operation that is cut off has
happened or has not. -/
theorem Heeds.ensures {S : Type} {W : World I S} {effect : S → Act I → S} {C : S → Prop}
    {R : α → S → Prop} {s : S}
    (hanswers : ∀ o s a s', W.answers o s a s' → s' = effect s ⟨o, a⟩)
    (hcut : ∀ o s s', W.cut o s s' → s' = s ∨ ∃ a, s' = effect s ⟨o, a⟩)
    (hOk : ∀ done o, Ok done o → C (done.foldl effect s))
    (hQ : ∀ a done, Q a done → C (done.foldl effect s) ∧ R a (done.foldl effect s))
    (h : p.Heeds Ok Q before) : p.Ensures W C R (before.foldl effect s) := by
  have hstart : ∀ {q : Prog I α} {done}, q.Heeds Ok Q done → C (done.foldl effect s) := by
    intro q done hq
    cases q with
    | done a => exact (hQ a done hq).1
    | call o k => exact hOk done o hq.1
  have hsnoc : ∀ done (act : Act I),
      (done ++ [act]).foldl effect s = effect (done.foldl effect s) act := by
    intro done act
    rw [List.foldl_append, List.foldl_cons, List.foldl_nil]
  induction p generalizing before with
  | done a => exact ⟨fun _ => (hQ a before h).1, (hQ a before h).2⟩
  | call o k ih =>
    refine ⟨fun _ => hstart h, fun s' hs' => ?_, fun a s' hs' => ?_⟩
    · rcases hcut o _ s' hs' with rfl | ⟨a, rfl⟩
      · exact hstart h
      · rw [← hsnoc]
        exact hstart (h.2 a)
    · rw [hanswers o _ a s' hs', ← hsnoc]
      exact ih a (h.2 a)

end Prog

end Effects
