/-
Looping parties that share a state and a mutex.

Each party goes round a loop of its own: a body that returns the state of the next round, or
`none` to leave it.  Between any two operations of one party the others may move.  The operation
`lock` waits until no party holds the mutex; every other one is answered by the world.

* `Threads.Run` — all interleavings; the moves of the party that holds the mutex are allowed ones;
* `Prog.Turns` — what is asked of a program: without the mutex it performs only operations that
  leave the state alone, and with it what it does keeps the invariant;
* `Threads.Run.invariant` — the rule: the invariant holds at all times;
* `Threads.run_alone` — what one party does alone is a run.
-/
import Mathlib.Logic.Function.Basic
import UhfGateway.Effects.History

namespace Effects

variable {I : Interface} {ι P S α β : Type}

structure Mutex (I : Interface) where
  lock : I.Op
  unlock : I.Op
  lock_ne : lock ≠ unlock

/-- The shared state, the party that holds the mutex, and what is left of each round. -/
structure Threads (I : Interface) (ι P S : Type) where
  shared : S
  holder : Option ι
  left : ι → Prog I (Option P)

namespace Threads

/-- Party `i` performs its next operation. -/
inductive Move [DecidableEq ι] (W : World I S) (m : Mutex I) :
    Threads I ι P S → ι → Act I → Threads I ι P S → Prop
  | lock {x : Threads I ι P S} {i : ι} {k : I.Answer m.lock → Prog I (Option P)}
      (a : I.Answer m.lock) (next : x.left i = .call m.lock k) (free : x.holder = none) :
      Move W m x i ⟨m.lock, a⟩ ⟨x.shared, some i, Function.update x.left i (k a)⟩
  | unlock {x : Threads I ι P S} {i : ι} {k : I.Answer m.unlock → Prog I (Option P)}
      (a : I.Answer m.unlock) (next : x.left i = .call m.unlock k) :
      Move W m x i ⟨m.unlock, a⟩ ⟨x.shared, none, Function.update x.left i (k a)⟩
  | other {x : Threads I ι P S} {i : ι} {o : I.Op} {k : I.Answer o → Prog I (Option P)}
      {a : I.Answer o} {s : S} (next : x.left i = .call o k) (lock : o ≠ m.lock)
      (unlock : o ≠ m.unlock) (answers : W.answers o x.shared a s) :
      Move W m x i ⟨o, a⟩ ⟨s, x.holder, Function.update x.left i (k a)⟩

/-- The states that the moves lead to; those of the holder of the mutex are allowed. -/
inductive Run [DecidableEq ι] (W : World I S) (m : Mutex I) (body : P → Prog I (Option P))
    (Allowed : S → Act I → Prop) (start : Threads I ι P S) : Threads I ι P S → Prop
  | refl : Run W m body Allowed start start
  | move {x y : Threads I ι P S} {i : ι} {act : Act I} (h : Run W m body Allowed start x)
      (moved : Move W m x i act y) (allowed : x.holder = some i → Allowed x.shared act) :
      Run W m body Allowed start y
  | round {x : Threads I ι P S} {i : ι} {p : P} (h : Run W m body Allowed start x)
      (next : x.left i = .done (some p)) :
      Run W m body Allowed start { x with left := Function.update x.left i (body p) }

end Threads

namespace Prog

section Turns

variable (W : World I S) (m : Mutex I) (Allowed : S → Act I → Prop) (Quiet : I.Op → Prop)
  (Inv : S → Prop)

/-- What is asked of a program without the mutex, and of one that holds it in a state.  `R` is what
it has to establish where it returns. -/
def Turns (R : Option S → α → Prop) : Prog I α → Option S → Prop
  | done a, turn => R turn a
  | call o k, none =>
    (Quiet o ∧ ∀ a, (k a).Turns R none) ∨ (o = m.lock ∧ ∀ a s, Inv s → (k a).Turns R (some s))
  | call o k, some s =>
    (o = m.unlock ∧ ∀ a, (k a).Turns R none) ∨
      (o ≠ m.lock ∧ o ≠ m.unlock ∧ ∀ a s', W.answers o s a s' → Allowed s ⟨o, a⟩ →
        Inv s' ∧ (k a).Turns R (some s'))

end Turns

variable {W : World I S} {m : Mutex I} {Allowed : S → Act I → Prop} {Quiet : I.Op → Prop}
  {Inv : S → Prop} {R : Option S → α → Prop} {turn : Option S}

theorem turns_ite {c : Prop} [Decidable c] {p q : Prog I α}
    (hp : c → p.Turns W m Allowed Quiet Inv R turn)
    (hq : ¬ c → q.Turns W m Allowed Quiet Inv R turn) :
    (if c then p else q).Turns W m Allowed Quiet Inv R turn := by
  split_ifs with hc
  · exact hp hc
  · exact hq hc

theorem turns_bind {R' : Option S → β → Prop} {p : Prog I α} {f : α → Prog I β}
    (hp : p.Turns W m Allowed Quiet Inv R turn)
    (hf : ∀ turn a, R turn a → (f a).Turns W m Allowed Quiet Inv R' turn) :
    (p >>= f).Turns W m Allowed Quiet Inv R' turn := by
  induction p generalizing turn with
  | done a => exact hf turn a hp
  | call o k ih =>
    cases turn with
    | none =>
      obtain ⟨hquiet, hk⟩ | ⟨hlock, hk⟩ := hp
      · exact .inl ⟨hquiet, fun a => ih a (hk a)⟩
      · exact .inr ⟨hlock, fun a s hs => ih a (hk a s hs)⟩
    | some s =>
      obtain ⟨hunlock, hk⟩ | ⟨hlock, hunlock, hk⟩ := hp
      · exact .inl ⟨hunlock, fun a => ih a (hk a)⟩
      · refine .inr ⟨hlock, hunlock, fun a s' ha hallowed => ?_⟩
        obtain ⟨hinv, hrest⟩ := hk a s' ha hallowed
        exact ⟨hinv, ih a hrest⟩

/-- A program that never needs the mutex. -/
theorem Within.turns {p : Prog I α} {Q : α → Prop} (hp : p.Within Quiet Q)
    (hR : ∀ a, Q a → R none a) : p.Turns W m Allowed Quiet Inv R none := by
  induction p with
  | done a => exact hR a hp
  | call o k ih => exact .inl ⟨hp.1, fun a => ih a (hp.2 a)⟩

end Prog

namespace Threads

variable [DecidableEq ι] {W : World I S} {m : Mutex I} {body : P → Prog I (Option P)}
  {Allowed : S → Act I → Prop} {Quiet : I.Op → Prop} {Inv : S → Prop}
  {R : Option S → Option P → Prop} {start x y : Threads I ι P S} {i : ι} {act : Act I}

/-- The state of the shared data as the holder of the mutex sees it. -/
def turn (x : Threads I ι P S) (i : ι) : Option S :=
  if x.holder = some i then some x.shared else none

/-- The invariant holds, and every party keeps to what is asked of it. -/
def Orderly (W : World I S) (m : Mutex I) (Allowed : S → Act I → Prop) (Quiet : I.Op → Prop)
    (Inv : S → Prop) (R : Option S → Option P → Prop) (x : Threads I ι P S) : Prop :=
  Inv x.shared ∧ ∀ i, (x.left i).Turns W m Allowed Quiet Inv R (x.turn i)

/-- What a quiet operation may be. -/
def Harmless (W : World I S) (m : Mutex I) (Quiet : I.Op → Prop) : Prop :=
  ∀ o, Quiet o → o ≠ m.lock ∧ o ≠ m.unlock ∧ ∀ s a s', W.answers o s a s' → s' = s

/-- One party has moved, and to the others the state looks as before. -/
theorem Orderly.update (hx : Orderly W m Allowed Quiet Inv R x) {s : S} {holder : Option ι}
    {p : Prog I (Option P)} (hinv : Inv s)
    (hself : p.Turns W m Allowed Quiet Inv R (if holder = some i then some s else none))
    (hothers : ∀ j, j ≠ i → (if holder = some j then some s else none) = x.turn j) :
    Orderly W m Allowed Quiet Inv R ⟨s, holder, Function.update x.left i p⟩ := by
  refine ⟨hinv, fun j => ?_⟩
  by_cases hj : j = i
  · subst hj
    show (Function.update x.left j p j).Turns W m Allowed Quiet Inv R _
    rw [Function.update_self]
    exact hself
  · show (Function.update x.left i p j).Turns W m Allowed Quiet Inv R
      (if holder = some j then some s else none)
    rw [Function.update_of_ne hj, hothers j hj]
    exact hx.2 j

/-- While one party holds the mutex, another one sees nothing of the state. -/
theorem turn_other (h : x.holder = some i) {j : ι} (hj : j ≠ i) : x.turn j = none := by
  refine if_neg ?_
  rw [h]
  intro heq
  exact hj (Option.some.inj heq).symm

theorem Orderly.move (hquiet : Harmless W m Quiet) (hx : Orderly W m Allowed Quiet Inv R x)
    (moved : Move W m x i act y) (allowed : x.holder = some i → Allowed x.shared act) :
    Orderly W m Allowed Quiet Inv R y := by
  have hown := hx.2 i
  cases moved with
  | @lock k a next free =>
    have hturn : x.turn i = none := by simp [turn, free]
    rw [next, hturn] at hown
    have hothers : ∀ j, j ≠ i → (if some i = some j then some x.shared else none) = x.turn j := by
      intro j hj
      rw [if_neg fun heq => hj (Option.some.inj heq).symm, turn, free, if_neg (by simp)]
    obtain ⟨hop, -⟩ | ⟨-, hk⟩ := hown
    · exact absurd rfl (hquiet _ hop).1
    · refine hx.update hx.1 ?_ hothers
      rw [if_pos rfl]
      exact hk a x.shared hx.1
  | @unlock k a next =>
    rw [next] at hown
    by_cases hholder : x.holder = some i
    · rw [turn, if_pos hholder] at hown
      obtain ⟨-, hk⟩ | ⟨-, hunlock, -⟩ := hown
      · refine hx.update hx.1 ?_ ?_
        · rw [if_neg (by simp)]
          exact hk a
        · intro j hj
          rw [turn_other hholder hj, if_neg (by simp)]
      · exact absurd rfl hunlock
    · rw [turn, if_neg hholder] at hown
      obtain ⟨hop, -⟩ | ⟨hlock, -⟩ := hown
      · exact absurd rfl (hquiet _ hop).2.1
      · exact absurd hlock.symm m.lock_ne
  | @other o k a s next hlock hunlock answers =>
    rw [next] at hown
    by_cases hholder : x.holder = some i
    · rw [turn, if_pos hholder] at hown
      obtain ⟨heq, -⟩ | ⟨-, -, hk⟩ := hown
      · exact absurd heq hunlock
      · obtain ⟨hinv, hrest⟩ := hk a s answers (allowed hholder)
        refine hx.update hinv ?_ ?_
        · rw [if_pos hholder]
          exact hrest
        · intro j hj
          rw [turn_other hholder hj, if_neg]
          rw [hholder]
          intro heq
          exact hj (Option.some.inj heq).symm
    · rw [turn, if_neg hholder] at hown
      obtain ⟨hop, hk⟩ | ⟨heq, -⟩ := hown
      · obtain rfl := (hquiet o hop).2.2 _ _ _ answers
        refine hx.update hx.1 ?_ fun j _ => rfl
        rw [if_neg hholder]
        exact hk a
      · exact absurd heq hlock

/-- **The rule for a mutex.**  If every round keeps to what is asked of it, from wherever a round
may have ended, the invariant holds at all times. -/
theorem Run.invariant (hquiet : Harmless W m Quiet)
    (hbody : ∀ turn p, R turn (some p) → (body p).Turns W m Allowed Quiet Inv R turn)
    (hstart : Orderly W m Allowed Quiet Inv R start) (h : Run W m body Allowed start x) :
    Inv x.shared := by
  have hall : Orderly W m Allowed Quiet Inv R x := by
    induction h with
    | refl => exact hstart
    | move _ moved allowed ih => exact ih.move hquiet moved allowed
    | @round x i p _ next ih =>
      have hown := ih.2 i
      rw [next] at hown
      exact ih.update ih.1 (hbody _ p hown) fun j _ => rfl
  exact hall.1

/-! ### One party alone -/

section Alone

variable [DecidableEq I.Op]

/-- The next move of the only party, or its next round; it stands still once it has left, and where
it waits for itself. -/
def advance (m : Mutex I) (body : P → Prog I (Option P)) (answer : (o : I.Op) → I.Answer o)
    (effect : S → Act I → S) (x : Threads I Unit P S) : Threads I Unit P S :=
  match x.left () with
  | .done none => x
  | .done (some p) => { x with left := Function.update x.left () (body p) }
  | .call o k =>
    if o = m.lock ∧ x.holder ≠ none then x
    else
      { shared := if o = m.lock ∨ o = m.unlock then x.shared else effect x.shared ⟨o, answer o⟩
        holder := if o = m.lock then some () else if o = m.unlock then none else x.holder
        left := Function.update x.left () (k (answer o)) }

/-- Some moves of the only party; what it is answered depends on their number and on the state. -/
def alone (m : Mutex I) (body : P → Prog I (Option P)) (answer : ℕ → S → (o : I.Op) → I.Answer o)
    (effect : S → Act I → S) (x : Threads I Unit P S) : ℕ → Threads I Unit P S
  | 0 => x
  | n + 1 =>
    let y := alone m body answer effect x n
    y.advance m body (answer n y.shared) effect

variable {x y : Threads I Unit P S} {answer : ℕ → S → (o : I.Op) → I.Answer o}
  {effect : S → Act I → S}

theorem run_alone
    (hanswer : ∀ n s o, W.answers o s (answer n s o) (effect s ⟨o, answer n s o⟩))
    (hallowed : ∀ n s o, Allowed s ⟨o, answer n s o⟩) (n : ℕ) :
    Run W m body Allowed x (alone m body answer effect x n) := by
  induction n with
  | zero => exact .refl
  | succ n ih =>
    rw [alone]
    generalize alone m body answer effect x n = y at ih
    show Run W m body Allowed x (y.advance m body (answer n y.shared) effect)
    rw [advance]
    split
    · exact ih
    · next p next => exact ih.round next
    · next o k next =>
      by_cases hlock : o = m.lock
      · subst hlock
        by_cases hfree : y.holder = none
        · rw [if_neg (fun h => h.2 hfree), if_pos (.inl rfl), if_pos rfl]
          exact ih.move (.lock _ next hfree) fun _ => hallowed ..
        · rw [if_pos ⟨rfl, hfree⟩]
          exact ih
      · rw [if_neg (fun h => hlock h.1), if_neg hlock]
        by_cases hunlock : o = m.unlock
        · subst hunlock
          rw [if_pos (.inr rfl), if_pos rfl]
          exact ih.move (.unlock _ next) fun _ => hallowed ..
        · rw [if_neg (not_or.mpr ⟨hlock, hunlock⟩), if_neg hunlock]
          exact ih.move (.other next hlock hunlock (hanswer ..)) fun _ => hallowed ..

end Alone

end Threads

end Effects
