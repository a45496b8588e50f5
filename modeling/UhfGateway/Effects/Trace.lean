/-
Programs by their traces.

`Prog.Exec p trace a` says that the program, given the answers in `trace`,
performs exactly the operations in it and returns `a`; it says nothing about
where the answers come from, so a statement about every `Exec` holds for every
behaviour of the surroundings.  `Env` is one such behaviour: a machine that
answers each operation from a state of its own.

* `Prog.exec_bind` — a sequence performs the traces of its parts one after the other;
* `Prog.Exec.unique` — the acts determine the result and where the execution ends;
* `Prog.exists_exec` — there is always one;
* `Prog.Only.trace` — the operations of a program are all a trace of it can hold;
* `Prog.Guarded.trace` — what a program guards happens behind an act that grants it;
* `Prog.exec_evalIn` — the run in an environment is one of the executions;
* `Prog.Loops` — the runs of a body repeated until it breaks off,
  `Prog.Loops.invariant`, the rule for them, and `Prog.loopIn`, the run in an environment.
-/
import UhfGateway.Effects.Program

namespace Effects

variable {I : Interface} {α β S : Type}

/-- An operation performed, with the answer it got. -/
structure Act (I : Interface) where
  op : I.Op
  answer : I.Answer op

/-- Everything a program did, oldest first. -/
abbrev Trace (I : Interface) := List (Act I)

namespace Prog

inductive Exec : Prog I α → Trace I → α → Prop
  | done (a : α) : Exec (done a) [] a
  | call {o : I.Op} {k : I.Answer o → Prog I α} {trace : Trace I} {r : α} (a : I.Answer o)
      (h : Exec (k a) trace r) : Exec (call o k) (⟨o, a⟩ :: trace) r

theorem exec_done {a b : α} {trace : Trace I} :
    Exec (done a) trace b ↔ trace = [] ∧ b = a := by
  constructor
  · intro h
    cases h
    exact ⟨rfl, rfl⟩
  · rintro ⟨rfl, rfl⟩
    exact .done _

theorem exec_call {o : I.Op} {k : I.Answer o → Prog I α} {trace : Trace I} {r : α} :
    Exec (call o k) trace r ↔ ∃ a rest, trace = ⟨o, a⟩ :: rest ∧ Exec (k a) rest r := by
  constructor
  · intro h
    cases h with
    | call a h => exact ⟨a, _, rfl, h⟩
  · rintro ⟨a, rest, rfl, h⟩
    exact .call a h

theorem exec_bind {p : Prog I α} {f : α → Prog I β} {trace : Trace I} {r : β} :
    Exec (p >>= f) trace r ↔
      ∃ first rest a, trace = first ++ rest ∧ Exec p first a ∧ Exec (f a) rest r := by
  induction p generalizing trace with
  | done b =>
    constructor
    · intro h
      exact ⟨[], trace, b, rfl, .done b, h⟩
    · rintro ⟨first, rest, a, rfl, hp, hf⟩
      obtain ⟨rfl, rfl⟩ := exec_done.mp hp
      exact hf
  | call o k ih =>
    rw [call_bind, exec_call]
    constructor
    · rintro ⟨a, rest, rfl, h⟩
      obtain ⟨first, rest', b, rfl, hp, hf⟩ := (ih a).mp h
      exact ⟨⟨o, a⟩ :: first, rest', b, rfl, .call a hp, hf⟩
    · rintro ⟨first, rest, b, rfl, hp, hf⟩
      obtain ⟨a, first', rfl, hk⟩ := exec_call.mp hp
      exact ⟨a, first' ++ rest, rfl, (ih a).mpr ⟨first', rest, b, rfl, hk, hf⟩⟩

theorem Exec.bind {p : Prog I α} {f : α → Prog I β} {first rest : Trace I} {a : α} {r : β}
    (hp : Exec p first a) (hf : Exec (f a) rest r) : Exec (p >>= f) (first ++ rest) r :=
  exec_bind.mpr ⟨first, rest, a, rfl, hp, hf⟩

/-- What the execution of a conditional shows is what that of its branch does. -/
theorem Exec.of_ite {Q c : Prop} [Decidable c] {p q : Prog I α} {trace : Trace I} {r : α}
    (h : Exec (if c then p else q) trace r) (hp : c → Exec p trace r → Q)
    (hq : ¬ c → Exec q trace r → Q) : Q := by
  by_cases hc : c
  · rw [if_pos hc] at h
    exact hp hc h
  · rw [if_neg hc] at h
    exact hq hc h

/-- Two executions that begin with the same acts are the same. -/
theorem Exec.unique {p : Prog I α} {trace trace' later later' : Trace I} {a b : α}
    (ha : Exec p trace a) (hb : Exec p trace' b) (h : trace ++ later = trace' ++ later') :
    a = b ∧ trace = trace' ∧ later = later' := by
  induction ha generalizing trace' with
  | done a =>
    obtain ⟨rfl, rfl⟩ := exec_done.mp hb
    exact ⟨rfl, rfl, h⟩
  | call x _ ih =>
    obtain ⟨y, rest, rfl, hy⟩ := exec_call.mp hb
    obtain ⟨hact, htail⟩ := List.cons.inj h
    cases hact
    obtain ⟨rfl, rfl, rfl⟩ := ih hy htail
    exact ⟨rfl, rfl, rfl⟩

/-- Where every operation can be answered, every program has an execution. -/
theorem exists_exec (hI : ∀ o, Nonempty (I.Answer o)) (p : Prog I α) :
    ∃ trace r, Exec p trace r := by
  induction p with
  | done a => exact ⟨[], a, .done a⟩
  | call o k ih =>
    obtain ⟨a⟩ := hI o
    obtain ⟨trace, r, h⟩ := ih a
    exact ⟨⟨o, a⟩ :: trace, r, .call a h⟩

/-- Every operation the program may perform satisfies `P`. -/
def Only (P : I.Op → Prop) : Prog I α → Prop
  | done _ => True
  | call o k => P o ∧ ∀ a, (k a).Only P

theorem only_bind {P : I.Op → Prop} {p : Prog I α} {f : α → Prog I β} (hp : p.Only P)
    (hf : ∀ a, (f a).Only P) : (p >>= f).Only P := by
  induction p with
  | done a => exact hf a
  | call o k ih => exact ⟨hp.1, fun a => ih a (hp.2 a)⟩

theorem Only.trace {P : I.Op → Prop} {p : Prog I α} {trace : Trace I} {r : α} (hp : p.Only P)
    (h : Exec p trace r) : ∀ act ∈ trace, P act.op := by
  induction h with
  | done a => simp
  | call a _ ih =>
    rw [List.forall_mem_cons]
    exact ⟨hp.1, ih (hp.2 a)⟩

theorem only_ite {P : I.Op → Prop} {c : Prop} [Decidable c] {p q : Prog I α} (hp : c → p.Only P)
    (hq : ¬ c → q.Only P) : (if c then p else q).Only P := by
  split_ifs with hc
  · exact hp hc
  · exact hq hc

theorem Only.mono {P Q : I.Op → Prop} {p : Prog I α} (hp : p.Only P) (h : ∀ o, P o → Q o) :
    p.Only Q := by
  induction p with
  | done a => trivial
  | call o k ih => exact ⟨h o hp.1, fun a => ih a (hp.2 a)⟩

/-- Whatever the program returns satisfies `Q`. -/
def Returns (Q : α → Prop) : Prog I α → Prop
  | done a => Q a
  | call _ k => ∀ a, (k a).Returns Q

theorem Returns.exec {Q : α → Prop} {p : Prog I α} {trace : Trace I} {r : α} (hp : p.Returns Q)
    (h : Exec p trace r) : Q r := by
  induction h with
  | done a => exact hp
  | call a _ ih => exact ih (hp a)

theorem returns_bind {Q : β → Prop} {p : Prog I α} {f : α → Prog I β}
    (hf : ∀ a, (f a).Returns Q) : (p >>= f).Returns Q := by
  induction p with
  | done a => exact hf a
  | call o k ih => exact fun a => ih a

/-- Whatever satisfies `P` is only performed behind an act that grants it. -/
def Guarded (Grants : Act I → Prop) (P : I.Op → Prop) : Prog I α → Prop
  | done _ => True
  | call o k => ¬ P o ∧ ∀ a, Grants ⟨o, a⟩ ∨ (k a).Guarded Grants P

theorem Only.guarded {Grants : Act I → Prop} {P : I.Op → Prop} {p : Prog I α}
    (h : p.Only fun o => ¬ P o) : p.Guarded Grants P := by
  induction p with
  | done a => trivial
  | call o k ih => exact ⟨h.1, fun a => .inr (ih a (h.2 a))⟩

theorem guarded_bind {Grants : Act I → Prop} {P : I.Op → Prop} {p : Prog I α} {f : α → Prog I β}
    (hp : p.Guarded Grants P) (hf : ∀ a, (f a).Guarded Grants P) : (p >>= f).Guarded Grants P := by
  induction p with
  | done a => exact hf a
  | call o k ih => exact ⟨hp.1, fun a => (hp.2 a).imp id (ih a)⟩

theorem Guarded.trace {Grants : Act I → Prop} {P : I.Op → Prop} {p : Prog I α}
    {trace before after : Trace I} {act : Act I} {r : α} (hp : p.Guarded Grants P)
    (h : Exec p trace r) (htrace : trace = before ++ act :: after) (hact : P act.op) :
    ∃ granted ∈ before, Grants granted := by
  induction h generalizing before with
  | done a => exact absurd htrace.symm (by simp)
  | @call o k rest r a _ ih =>
    cases before with
    | nil =>
      cases htrace
      exact absurd hact hp.1
    | cons first before =>
      obtain ⟨rfl, hrest⟩ := List.cons.inj htrace
      obtain hgrants | hguarded := hp.2 a
      · exact ⟨_, List.mem_cons_self, hgrants⟩
      · obtain ⟨granted, hmem, hgrants⟩ := ih hguarded hrest
        exact ⟨granted, List.mem_cons_of_mem _ hmem, hgrants⟩

end Prog

/-- A behaviour of the surroundings. -/
structure Env (I : Interface) (S : Type) where
  answer : S → (o : I.Op) → I.Answer o × S

/-- The behaviour with the given answers, whose state counts the operations so far. -/
def Env.replay (answers : ℕ → (o : I.Op) → I.Answer o) : Env I ℕ where
  answer n o := (answers n o, n + 1)

namespace Prog

/-- The result of a program in an environment, and the environment after it. -/
def evalIn (E : Env I S) : Prog I α → S → α × S
  | done a, s => (a, s)
  | call o k, s => (k (E.answer s o).1).evalIn E (E.answer s o).2

/-- What the program does in the environment. -/
def traceIn (E : Env I S) : Prog I α → S → Trace I
  | done _, _ => []
  | call o k, s => ⟨o, (E.answer s o).1⟩ :: (k (E.answer s o).1).traceIn E (E.answer s o).2

theorem exec_evalIn (E : Env I S) (p : Prog I α) (s : S) :
    Exec p (p.traceIn E s) (p.evalIn E s).1 := by
  induction p generalizing s with
  | done a => exact .done a
  | call o k ih => exact .call _ (ih _ _)

theorem traceIn_forall {E : Env I S} {P : Act I → Prop} (h : ∀ s o, P ⟨o, (E.answer s o).1⟩)
    (p : Prog I α) (s : S) : ∀ act ∈ p.traceIn E s, P act := by
  induction p generalizing s with
  | done a => simp [traceIn]
  | call o k ih =>
    rw [traceIn, List.forall_mem_cons]
    exact ⟨h s o, ih _ _⟩

theorem evalIn_bind (E : Env I S) (p : Prog I α) (f : α → Prog I β) (s : S) :
    (p >>= f).evalIn E s = (f (p.evalIn E s).1).evalIn E (p.evalIn E s).2 := by
  induction p generalizing s with
  | done a => rfl
  | call o k ih => exact ih _ _

end Prog

/-! ### Loops -/

/-- What a loop has done after some rounds, each of them allowed, and the state it goes
on with; `none` once it has left. -/
inductive Prog.Loops (body : S → Prog I (Option S)) (Allowed : S → Trace I → Prop) (start : S) :
    Trace I → Option S → Prop
  | start : Loops body Allowed start [] (some start)
  | round {trace further : Trace I} {s : S} {r : Option S}
      (h : Loops body Allowed start trace (some s)) (exec : (body s).Exec further r)
      (allowed : Allowed s further) : Loops body Allowed start (trace ++ further) r

/-- What every allowed round keeps holds after any number of rounds. -/
theorem Prog.Loops.invariant {body : S → Prog I (Option S)} {Allowed : S → Trace I → Prop}
    {start : S} (Inv : Trace I → Option S → Prop) (initial : Inv [] (some start))
    (step : ∀ trace further s r, Inv trace (some s) → (body s).Exec further r →
      Allowed s further → Inv (trace ++ further) r)
    {trace : Trace I} {r : Option S} (h : Prog.Loops body Allowed start trace r) : Inv trace r := by
  induction h with
  | start => exact initial
  | round _ exec allowed ih => exact step _ _ _ _ ih exec allowed

/-- Some rounds of a loop in an environment: what has been done, the state the loop goes on with,
and the environment after it. -/
def Prog.loopIn {T : Type} (E : Env I T) (body : S → Prog I (Option S)) (start : S) (t : T) :
    ℕ → Trace I × Option S × T
  | 0 => ([], some start, t)
  | n + 1 =>
    match loopIn E body start t n with
    | (trace, none, t) => (trace, none, t)
    | (trace, some s, t) => (trace ++ (body s).traceIn E t, (body s).evalIn E t)

theorem Prog.loops_loopIn {T : Type} (E : Env I T) (body : S → Prog I (Option S)) (start : S)
    (t : T) (n : ℕ) :
    Prog.Loops body (fun _ _ => True) start (loopIn E body start t n).1
      (loopIn E body start t n).2.1 := by
  induction n with
  | zero => exact .start
  | succ n ih =>
    rw [loopIn]
    split
    · next trace t hround =>
      rw [hround] at ih
      exact ih
    · next trace s t hround =>
      rw [hround] at ih
      exact ih.round (exec_evalIn E (body s) t) trivial

end Effects
