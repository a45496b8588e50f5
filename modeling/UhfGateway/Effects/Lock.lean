/-
Processes that share a state and take turns by a lock.

Each process of a `Crew` serves its own requests; between any two operations of
one process the others may move.  A program asks for the lock by the operation
`acquire`, which is granted only while no process holds it, and gives it back
when it returns.

* `Crew.Step`, `Crew.Run` — all interleavings, one operation at a time;
* `Crew.Run.locked_invariant` — the rule for crews whose programs touch the
  shared state only under the lock: what every critical section keeps, run alone,
  holds whenever the lock is free;
* `Crew.Run.serve` — a critical section that runs undisturbed is one such run.
-/
import UhfGateway.Effects.Program

namespace Effects

open Prog

/-- Processes indexed by `ι`, each with a memory `M`, and the lock they share. -/
structure Crew (I : Interface) (ι M Req Res : Type) where
  program : ι → M → Req → Prog I (Res × M)
  acquire : I.Op
  granted : I.Answer acquire → Prop

/-- The state of a crew.  The memory of a process is the one it began its current
request with; `running` is that request and what is left of its program. -/
structure Crew.State (I : Interface) (ι M Req Res S : Type) where
  shared : S
  holder : Option ι
  mem : ι → M
  running : ι → Option (Req × Prog I (Res × M))

/-- One served request of a crew. -/
structure Crew.Served (ι Req Res : Type) where
  process : ι
  request : Req
  result : Res

namespace Crew

variable {I : Interface} {ι M Req Res S V : Type} [DecidableEq ι]

/-- Nobody is at work. -/
def State.Idle (x : State I ι M Req Res S) : Prop := x.holder = none ∧ ∀ i, x.running i = none

/-- One move of one process.  What it may do to the shared state may depend on
the memories of the others (`W`). -/
inductive Step (P : Crew I ι M Req Res) (W : ι → (ι → M) → World I S) :
    State I ι M Req Res S → List (Served ι Req Res) → State I ι M Req Res S → Prop
  | begin {x i} (q : Req) (h : x.running i = none) :
      Step P W x [] { x with
        running := Function.update x.running i (some (q, P.program i (x.mem i) q)) }
  | grant {x i q k a} (h : x.running i = some (q, .call P.acquire k)) (hfree : x.holder = none)
      (ha : P.granted a) :
      Step P W x [] { x with
        holder := some i
        running := Function.update x.running i (some (q, k a)) }
  | refuse {x i j q k a} (h : x.running i = some (q, .call P.acquire k)) (hheld : x.holder = some j)
      (hj : j ≠ i) (ha : ¬ P.granted a) :
      Step P W x [] { x with running := Function.update x.running i (some (q, k a)) }
  | work {x i q o k a s'} (h : x.running i = some (q, .call o k))
      (ha : (W i x.mem).answers o x.shared a s') :
      Step P W x [] { x with
        shared := s'
        running := Function.update x.running i (some (q, k a)) }
  | finish {x i q r m} (h : x.running i = some (q, .done (r, m))) :
      Step P W x [⟨i, q, r⟩]
        { x with
          holder := if x.holder = some i then none else x.holder
          mem := Function.update x.mem i m
          running := Function.update x.running i none }

/-- The runs of a crew, with the requests served on the way. -/
inductive Run (P : Crew I ι M Req Res) (W : ι → (ι → M) → World I S)
    (x₀ : State I ι M Req Res S) : List (Served ι Req Res) → State I ι M Req Res S → Prop
  | start : Run P W x₀ [] x₀
  | step {es x e y} (h : Run P W x₀ es x) (hs : Step P W x e y) : Run P W x₀ (es ++ e) y

section Rules

variable {P : Crew I ι M Req Res} {W : ι → (ι → M) → World I S} (view : M → V)
  (Inv : (ι → V) → S → Prop) (Φ : ι → Req → Res → Prop)

/-- A program that ends here leaves what is seen of the memory alone and has an
admissible result. -/
def Quiet (i : ι) (m : M) (q : Req) (p : Prog I (Res × M)) : Prop :=
  ∃ r m', p = .done (r, m') ∧ view m' = view m ∧ Φ i q r

/-- What a critical section of `i`, begun in `vs`, has to establish. -/
def Outcome (vs : ι → V) (i : ι) (q : Req) (r : Res × M) (s : S) : Prop :=
  Inv (Function.update vs i (view r.2)) s ∧ Φ i q r.1

/-- A process outside the critical section is idle, about to begin its program,
or done without having been let in. -/
def Outside (P : Crew I ι M Req Res) (x : State I ι M Req Res S) (i : ι) : Prop :=
  ∀ q p, x.running i = some (q, p) →
    p = P.program i (x.mem i) q ∨ Quiet view Φ i (x.mem i) q p

/-- The invariant of a crew: everyone but the holder of the lock is outside, and
the holder's remaining program, run alone, will establish its outcome. -/
def Orderly (P : Crew I ι M Req Res) (W : ι → (ι → M) → World I S)
    (x : State I ι M Req Res S) : Prop :=
  (∀ i, x.holder ≠ some i → Outside view Φ P x i) ∧
  match x.holder with
  | none => Inv (view ∘ x.mem) x.shared
  | some i => ∃ q p, x.running i = some (q, p) ∧
      p.Ensures (W i x.mem) (fun _ => True) (Outcome view Inv Φ (view ∘ x.mem) i q) x.shared

variable {view Inv Φ}

/-- What the rule asks of the programs: each returns at once, or asks for the lock,
returns at once if it is refused, and keeps the invariant if it is let in and runs
alone. -/
def Disciplined (view : M → V) (Inv : (ι → V) → S → Prop) (Φ : ι → Req → Res → Prop)
    (P : Crew I ι M Req Res) (W : ι → (ι → M) → World I S) : Prop :=
  ∀ i m q, Quiet view Φ i m q (P.program i m q) ∨
    ∃ k, P.program i m q = .call P.acquire k ∧
      (∀ a, ¬ P.granted a → Quiet view Φ i m q (k a)) ∧
      ∀ a, P.granted a → ∀ mem s, mem i = m → Inv (view ∘ mem) s →
        (k a).Ensures (W i mem) (fun _ => True) (Outcome view Inv Φ (view ∘ mem) i q) s

/-- A program that has not been let in performs no operation but `acquire`. -/
theorem Outside.call_eq (hP : Disciplined view Inv Φ P W) {x : State I ι M Req Res S} {i : ι}
    {q : Req} {o : I.Op} {k : I.Answer o → Prog I (Res × M)} (h : Outside view Φ P x i)
    (hrun : x.running i = some (q, .call o k)) :
    o = P.acquire ∧ P.program i (x.mem i) q = .call o k := by
  rcases h _ _ hrun with hp | ⟨r, m', hp, -⟩
  · rcases hP i (x.mem i) q with ⟨r, m', hq, -⟩ | ⟨k', hk', -⟩
    · rw [hq] at hp
      cases hp
    · rw [← hp] at hk'
      injection hk' with ho
      exact ⟨ho, hp.symm⟩
  · cases hp

/-- A process at the lock: it goes away quietly, or it keeps the invariant. -/
theorem Outside.entering (hP : Disciplined view Inv Φ P W) {x : State I ι M Req Res S} {i : ι}
    {q : Req} {k : I.Answer P.acquire → Prog I (Res × M)} (h : Outside view Φ P x i)
    (hrun : x.running i = some (q, .call P.acquire k)) :
    (∀ a, ¬ P.granted a → Quiet view Φ i (x.mem i) q (k a)) ∧
      ∀ a, P.granted a → Inv (view ∘ x.mem) x.shared →
        (k a).Ensures (W i x.mem) (fun _ => True) (Outcome view Inv Φ (view ∘ x.mem) i q)
          x.shared := by
  obtain ⟨-, hprog⟩ := h.call_eq hP hrun
  rcases hP i (x.mem i) q with ⟨r, m', hq, -⟩ | ⟨k', hk', hrefused, hbody⟩
  · rw [hq] at hprog
    cases hprog
  · rw [hprog] at hk'
    cases hk'
    exact ⟨hrefused, fun a ha hinv => hbody a ha x.mem x.shared rfl hinv⟩

/-- A process that returns without having been let in. -/
theorem Outside.done_quiet (hP : Disciplined view Inv Φ P W) {x : State I ι M Req Res S} {i : ι}
    {q : Req} {r : Res} {m : M} (h : Outside view Φ P x i)
    (hrun : x.running i = some (q, .done (r, m))) : view m = view (x.mem i) ∧ Φ i q r := by
  have hquiet : Quiet view Φ i (x.mem i) q (.done (r, m) : Prog I (Res × M)) := by
    rcases h _ _ hrun with hp | hp
    · rcases hP i (x.mem i) q with hq | ⟨k, hk, -⟩
      · rw [hp]
        exact hq
      · rw [hk] at hp
        cases hp
    · exact hp
  obtain ⟨r', m', heq, hview, hr⟩ := hquiet
  cases heq
  exact ⟨hview, hr⟩

omit [DecidableEq ι] in
/-- Another process is outside still, if neither its program nor its memory moved. -/
theorem Outside.of_same {x y : State I ι M Req Res S} {i : ι} (h : Outside view Φ P x i)
    (hrun : y.running i = x.running i) (hmem : y.mem i = x.mem i) : Outside view Φ P y i := by
  intro q p hp
  rw [hrun] at hp
  rw [hmem]
  exact h q p hp

omit [DecidableEq ι] in
theorem Outside.of_running {x : State I ι M Req Res S} {i : ι} {q : Req} {p : Prog I (Res × M)}
    (hrun : x.running i = some (q, p))
    (h : p = P.program i (x.mem i) q ∨ Quiet view Φ i (x.mem i) q p) : Outside view Φ P x i := by
  intro q' p' hp'
  rw [hrun] at hp'
  cases hp'
  exact h

omit [DecidableEq ι] in
theorem Outside.of_idle {x : State I ι M Req Res S} {i : ι} (h : x.running i = none) :
    Outside view Φ P x i := by
  intro q p hp
  rw [h] at hp
  cases hp

/-- The world of a process depends on the memories only as far as they are seen. -/
def SeesViews (view : M → V) (W : ι → (ι → M) → World I S) : Prop :=
  ∀ i mem mem', view ∘ mem = view ∘ mem' → W i mem = W i mem'

section Moves

variable {x y : State I ι M Req Res S} {i : ι}

/-- The holder of the lock and its program. -/
theorem Orderly.holding (hx : Orderly view Inv Φ P W x) (hi : x.holder = some i) {q : Req}
    {p : Prog I (Res × M)} (hrun : x.running i = some (q, p)) :
    p.Ensures (W i x.mem) (fun _ => True) (Outcome view Inv Φ (view ∘ x.mem) i q) x.shared := by
  have hin := hx.2
  rw [hi] at hin
  obtain ⟨q', p', hrun', hens⟩ := hin
  rw [hrun] at hrun'
  cases hrun'
  exact hens

/-- A process without the lock moves and stays outside. -/
theorem Orderly.bystander (hview : SeesViews view W) (hx : Orderly view Inv Φ P W x)
    (hi : x.holder ≠ some i) (hself : Outside view Φ P y i)
    (hothers : ∀ j, j ≠ i → y.running j = x.running j ∧ y.mem j = x.mem j)
    (hmem : view ∘ y.mem = view ∘ x.mem) (hholder : y.holder = x.holder)
    (hshared : y.shared = x.shared) : Orderly view Inv Φ P W y := by
  obtain ⟨hout, hin⟩ := hx
  constructor
  · intro j hj
    rw [hholder] at hj
    by_cases hji : j = i
    · rw [hji]
      exact hself
    · exact (hout j hj).of_same (hothers j hji).1 (hothers j hji).2
  · rw [hholder, hshared, hmem]
    cases hh : x.holder with
    | none =>
      rw [hh] at hin
      exact hin
    | some h =>
      rw [hh] at hin
      obtain ⟨q, p, hrun, hens⟩ := hin
      have hne : h ≠ i := by
        rintro rfl
        exact hi hh
      refine ⟨q, p, (hothers h hne).1.trans hrun, ?_⟩
      rw [hview h _ x.mem hmem]
      exact hens

/-- The holder of the lock goes on, alone. -/
theorem Orderly.held {q : Req} {p : Prog I (Res × M)}
    (hout : ∀ j, j ≠ i → Outside view Φ P x j) (hholder : y.holder = some i)
    (hothers : ∀ j, j ≠ i → y.running j = x.running j) (hmem : y.mem = x.mem)
    (hrun : y.running i = some (q, p))
    (hens : p.Ensures (W i x.mem) (fun _ => True) (Outcome view Inv Φ (view ∘ x.mem) i q)
      y.shared) : Orderly view Inv Φ P W y := by
  constructor
  · intro j hj
    have hji : j ≠ i := by
      rintro rfl
      exact hj hholder
    exact (hout j hji).of_same (hothers j hji) (by rw [hmem])
  · rw [hholder, hmem]
    exact ⟨q, p, hrun, hens⟩

/-- The holder of the lock returns: its outcome is the invariant. -/
theorem Orderly.released {q : Req} {r : Res} {m : M} (hx : Orderly view Inv Φ P W x)
    (hi : x.holder = some i) (hrun : x.running i = some (q, .done (r, m))) :
    Orderly view Inv Φ P W { x with
      holder := none
      mem := Function.update x.mem i m
      running := Function.update x.running i none } ∧ Φ i q r := by
  obtain ⟨hinv, hr⟩ := (hx.holding hi hrun).2
  refine ⟨⟨?_, ?_⟩, hr⟩
  · intro j _
    by_cases hji : j = i
    · rw [hji]
      exact .of_idle (Function.update_self ..)
    · have hj : x.holder ≠ some j := by
        rw [hi]
        intro h
        exact hji (Option.some.inj h).symm
      exact (hx.1 j hj).of_same (Function.update_of_ne hji _ _) (Function.update_of_ne hji _ _)
  · show Inv (view ∘ Function.update x.mem i m) x.shared
    rw [Function.comp_update]
    exact hinv

end Moves

theorem Orderly.step (hP : Disciplined view Inv Φ P W)
    (hlock : ∀ i mem s a s', ¬ (W i mem).answers P.acquire s a s') (hview : SeesViews view W)
    {x y : State I ι M Req Res S} {es : List (Served ι Req Res)}
    (hx : Orderly view Inv Φ P W x) (hs : Step P W x es y) :
    Orderly view Inv Φ P W y ∧ ∀ e ∈ es, Φ e.process e.request e.result := by
  -- moves that only change what is left of the program of `i`
  have hothers : ∀ {i : ι} {p : Option (Req × Prog I (Res × M))} (j : ι), j ≠ i →
      Function.update x.running i p j = x.running j := fun j hj => Function.update_of_ne hj _ _
  cases hs with
  | @begin i q hidle =>
    have hi : x.holder ≠ some i := by
      intro hi
      have hin := hx.2
      rw [hi] at hin
      obtain ⟨q', p', hrun, -⟩ := hin
      rw [hidle] at hrun
      cases hrun
    refine ⟨?_, by simp⟩
    exact hx.bystander hview hi (.of_running (Function.update_self ..) (.inl rfl))
      (fun j hj => ⟨hothers j hj, rfl⟩) rfl rfl rfl
  | @grant i q k a hrun hfree ha =>
    have hout : ∀ j, Outside view Φ P x j := fun j => hx.1 j (by simp [hfree])
    have hin := hx.2
    rw [hfree] at hin
    refine ⟨?_, by simp⟩
    exact .held (fun j _ => hout j) rfl hothers rfl (Function.update_self ..)
      (((hout i).entering hP hrun).2 a ha hin)
  | @refuse i j q k a hrun hheld hj ha =>
    have hi : x.holder ≠ some i := by
      rw [hheld]
      intro h
      exact hj (Option.some.inj h)
    have hquiet := ((hx.1 i hi).entering hP hrun).1 a ha
    refine ⟨?_, by simp⟩
    exact hx.bystander hview hi (.of_running (Function.update_self ..) (.inr hquiet))
      (fun j hj => ⟨hothers j hj, rfl⟩) rfl rfl rfl
  | @work i q o k a s' hrun ha =>
    -- only the holder can get an answer
    have hi : x.holder = some i := by
      by_contra hi
      obtain ⟨rfl, -⟩ := (hx.1 i hi).call_eq hP hrun
      exact hlock _ _ _ _ _ ha
    have hout : ∀ j, j ≠ i → Outside view Φ P x j := by
      intro j hj
      refine hx.1 j fun h => hj ?_
      rw [hi] at h
      exact (Option.some.inj h).symm
    refine ⟨?_, by simp⟩
    exact .held hout hi hothers rfl (Function.update_self ..) ((hx.holding hi hrun).2.2 a s' ha)
  | @finish i q r m hrun =>
    by_cases hi : x.holder = some i
    · obtain ⟨hy, hr⟩ := hx.released hi hrun
      rw [if_pos hi]
      exact ⟨hy, by simpa using hr⟩
    · obtain ⟨hm, hr⟩ := (hx.1 i hi).done_quiet hP hrun
      have hsame : view ∘ Function.update x.mem i m = view ∘ x.mem := by
        rw [Function.comp_update, hm]
        exact Function.update_eq_self i _
      refine ⟨?_, by simpa using hr⟩
      exact hx.bystander hview hi (.of_idle (Function.update_self ..))
        (fun j hj => ⟨hothers j hj, Function.update_of_ne hj _ _⟩) hsame (if_neg hi) rfl

/-- **The rule for locked crews.**  If the critical sections, each run alone, keep
the invariant, then in every interleaving it holds whenever the lock is free, and
every request served has an admissible result. -/
theorem Run.locked_invariant (hP : Disciplined view Inv Φ P W)
    (hlock : ∀ i mem s a s', ¬ (W i mem).answers P.acquire s a s') (hview : SeesViews view W)
    {x₀ x : State I ι M Req Res S} {es : List (Served ι Req Res)} (hidle : x₀.Idle)
    (h₀ : Inv (view ∘ x₀.mem) x₀.shared) (h : Run P W x₀ es x) :
    (x.holder = none → Inv (view ∘ x.mem) x.shared) ∧
      ∀ e ∈ es, Φ e.process e.request e.result := by
  have hall : Orderly view Inv Φ P W x ∧ ∀ e ∈ es, Φ e.process e.request e.result := by
    induction h with
    | start =>
      refine ⟨⟨?_, ?_⟩, by simp⟩
      · intro i _ q p hp
        rw [hidle.2 i] at hp
        cases hp
      · rw [hidle.1]
        exact h₀
    | step _ hs ih =>
      obtain ⟨hx, hes⟩ := ih
      obtain ⟨hy, he⟩ := hx.step hP hlock hview hs
      refine ⟨hy, ?_⟩
      intro e hmem
      rcases List.mem_append.mp hmem with hmem | hmem
      · exact hes e hmem
      · exact he e hmem
  refine ⟨?_, hall.2⟩
  intro hfree
  have hin := hall.1.2
  rw [hfree] at hin
  exact hin

theorem Run.trans {x₀ x y : State I ι M Req Res S} {es es' : List (Served ι Req Res)}
    (h : Run P W x₀ es x) (h' : Run P W x es' y) : Run P W x₀ (es ++ es') y := by
  induction h' with
  | start => simpa using h
  | step _ hs ih =>
    rw [← List.append_assoc]
    exact .step ih hs

/-- A request that is let in and served without anyone else moving. -/
theorem Run.serve {x : State I ι M Req Res S} {i : ι} {q : Req}
    {k : I.Answer P.acquire → Prog I (Res × M)} {a : I.Answer P.acquire} {r : Res} {m : M} {s' : S}
    (hidle : x.Idle) (hp : P.program i (x.mem i) q = .call P.acquire k) (ha : P.granted a)
    (hrun : (k a).Runs (W i x.mem) x.shared (some (r, m)) s') :
    Run P W x [⟨i, q, r⟩] ⟨s', none, Function.update x.mem i m, fun _ => none⟩ := by
  obtain ⟨s, holder, mem, running⟩ := x
  obtain ⟨rfl, hnone⟩ := hidle
  obtain rfl : running = fun _ => none := funext hnone
  -- the states in which only this process is at work, with `p` left to do
  let busy (p : Prog I (Res × M)) (s : S) (holder : Option ι) : State I ι M Req Res S :=
    ⟨s, holder, mem, Function.update (fun _ => none) i (some (q, p))⟩
  have hbusy : ∀ p s holder, (busy p s holder).running i = some (q, p) := by
    intro p s holder
    simp only [busy, Function.update_self]
  have hwork : ∀ {p : Prog I (Res × M)} {s s' : S}, p.Runs (W i mem) s (some (r, m)) s' →
      Run P W (busy p s (some i)) [⟨i, q, r⟩]
        ⟨s', none, Function.update mem i m, fun _ => none⟩ := by
    intro p s s' hr
    generalize ho : some (r, m) = o at hr
    induction hr with
    | done b s =>
      cases ho
      have hfin := Step.finish (P := P) (W := W) (hbusy (.done (r, m)) s (some i))
      simp only [busy, if_true, Function.update_idem] at hfin
      rw [Function.update_eq_self_iff.mpr rfl] at hfin
      exact .step .start hfin
    | died _ => cases ho
    | cut _ => cases ho
    | @call o k s s₁ s₂ b r' hans _ ih =>
      have hstep := Step.work (P := P) (W := W) (hbusy (.call o k) s (some i)) hans
      simp only [busy, Function.update_idem] at hstep
      exact (Run.step .start hstep).trans (ih ho)
  have hbegin := Step.begin (P := P) (W := W) (x := ⟨s, none, mem, fun _ => none⟩) (i := i) q rfl
  have hgrant := Step.grant (P := P) (W := W) (hbusy (.call P.acquire k) s none) rfl ha
  simp only [busy, Function.update_idem] at hgrant
  simp only at hp hbegin
  rw [hp] at hbegin
  exact ((Run.start.step hbegin).step hgrant).trans (hwork hrun)

end Rules

end Crew

end Effects
