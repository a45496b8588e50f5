/-
Objects whose methods run under one mutex.

A `Monitor` keeps a memory; each of its methods takes the mutex first and gives it back when
it returns.  Any number of clients call the methods, and a client that finds the mutex taken
waits for it.

* `Monitor.Serial` — the calls served one after the other;
* `Monitor.Interleaved` — the clients' steps in any order, one operation at a time;
* `Monitor.Interleaved.serial` — what has been served in any order of steps has been served
  one after the other;
* `Monitor.serial_append`, `Monitor.Serial.invariant` — the rules for serial runs.
-/
import UhfGateway.Effects.Trace

namespace Effects

structure Monitor (I : Interface) (M Req Res : Type) where
  method : M → Req → Prog I (Res × M)

namespace Monitor

/-- One call: who made it, what it did and returned, and the memory and the surroundings
before and after it. -/
structure Served (I : Interface) (ι M S Req Res : Type) where
  client : ι
  request : Req
  before : M × S
  trace : Trace I
  result : Res
  after : M × S

/-- A call under way: the surroundings when it got the mutex, what it has done since, and what
is left of it. -/
structure Inside (I : Interface) (ι M S Req Res : Type) where
  client : ι
  request : Req
  entered : S
  trace : Trace I
  left : Prog I (Res × M)

/-- The memory, the surroundings, the clients that wait for the mutex and the one that has it. -/
structure State (I : Interface) (ι M S Req Res : Type) where
  memory : M
  shared : S
  asking : ι → Option Req
  inside : Option (Inside I ι M S Req Res)

variable {I : Interface} {ι M S Req Res : Type}

inductive Serial (P : Monitor I M Req Res) (effect : S → Act I → S) (start : M × S) :
    List (Served I ι M S Req Res) → M × S → Prop
  | start : Serial P effect start [] start
  | serve {served m s trace r m'} (h : Serial P effect start served (m, s)) (client : ι)
      (request : Req) (exec : (P.method m request).Exec trace (r, m')) :
      Serial P effect start
        (served ++ [⟨client, request, (m, s), trace, r, (m', trace.foldl effect s)⟩])
        (m', trace.foldl effect s)

/-- One step of one client. -/
inductive Step [DecidableEq ι] (P : Monitor I M Req Res) (effect : S → Act I → S) :
    State I ι M S Req Res → List (Served I ι M S Req Res) → State I ι M S Req Res → Prop
  | ask {x client} (request : Req) (hasking : x.asking client = none)
      (houtside : ∀ call ∈ x.inside, call.client ≠ client) :
      Step P effect x [] { x with asking := Function.update x.asking client (some request) }
  | enter {x client request} (hasking : x.asking client = some request)
      (hfree : x.inside = none) :
      Step P effect x [] { x with
        asking := Function.update x.asking client none
        inside := some ⟨client, request, x.shared, [], P.method x.memory request⟩ }
  | act {x client request entered trace o k}
      (h : x.inside = some ⟨client, request, entered, trace, .call o k⟩) (a : I.Answer o) :
      Step P effect x [] { x with
        shared := effect x.shared ⟨o, a⟩
        inside := some ⟨client, request, entered, trace ++ [⟨o, a⟩], k a⟩ }
  | leave {x client request entered trace r m'}
      (h : x.inside = some ⟨client, request, entered, trace, .done (r, m')⟩) :
      Step P effect x
        [⟨client, request, (x.memory, entered), trace, r, (m', x.shared)⟩]
        { x with memory := m', inside := none }

/-- Everyone outside. -/
def idle (start : M × S) : State I ι M S Req Res := ⟨start.1, start.2, fun _ => none, none⟩

inductive Interleaved [DecidableEq ι] (P : Monitor I M Req Res) (effect : S → Act I → S)
    (start : M × S) : List (Served I ι M S Req Res) → State I ι M S Req Res → Prop
  | start : Interleaved P effect start [] (idle start)
  | step {served x further y} (h : Interleaved P effect start served x)
      (hstep : Step P effect x further y) : Interleaved P effect start (served ++ further) y

variable {P : Monitor I M Req Res} {effect : S → Act I → S} {start final : M × S}
  {served : List (Served I ι M S Req Res)}

/-! ### Serial runs -/

theorem Serial.trans {middle : M × S} {further : List (Served I ι M S Req Res)}
    (h : Serial P effect start served middle) (h' : Serial P effect middle further final) :
    Serial P effect start (served ++ further) final := by
  induction h' with
  | start => simpa using h
  | serve _ client request exec ih =>
    rw [← List.append_assoc]
    exact ih.serve client request exec

theorem serial_append {first second : List (Served I ι M S Req Res)} :
    Serial P effect start (first ++ second) final ↔
      ∃ middle, Serial P effect start first middle ∧ Serial P effect middle second final := by
  constructor
  · intro h
    generalize hall : first ++ second = served at h
    induction h generalizing second with
    | start =>
      obtain ⟨rfl, rfl⟩ := List.append_eq_nil_iff.mp hall
      exact ⟨start, .start, .start⟩
    | serve h client request exec ih =>
      rcases List.eq_nil_or_concat second with rfl | ⟨second', call, rfl⟩
      · rw [List.append_nil] at hall
        subst hall
        exact ⟨_, h.serve client request exec, .start⟩
      · rw [List.concat_eq_append, ← List.append_assoc] at hall
        obtain ⟨hfirst, hcall⟩ := List.append_inj' hall rfl
        obtain ⟨middle, hstart, hrest⟩ := ih hfirst
        cases hcall
        rw [List.concat_eq_append]
        exact ⟨middle, hstart, hrest.serve client request exec⟩
  · rintro ⟨middle, h, h'⟩
    exact h.trans h'

/-- What one call shows. -/
theorem serial_singleton {call : Served I ι M S Req Res} :
    Serial P effect start [call] final ↔
      call.before = start ∧ call.after = final ∧
        call.after.2 = call.trace.foldl effect call.before.2 ∧
        (P.method call.before.1 call.request).Exec call.trace (call.result, call.after.1) := by
  constructor
  · intro h
    generalize hone : [call] = served at h
    cases h with
    | start => cases hone
    | @serve served m s _ _ _ h client request exec =>
      rw [← List.nil_append [call]] at hone
      obtain ⟨rfl, hcall⟩ := List.append_inj' hone rfl
      cases hcall
      generalize hnil : ([] : List (Served I ι M S Req Res)) = none at h
      cases h with
      | start => exact ⟨rfl, rfl, rfl, exec⟩
      | serve _ _ _ _ => simp at hnil
  · rintro ⟨rfl, rfl, hshared, exec⟩
    obtain ⟨client, request, ⟨m, s⟩, trace, result, ⟨m', s'⟩⟩ := call
    simp only at hshared exec
    subst hshared
    exact Serial.start.serve client request exec

/-- A call of a run, with the run before it and the run behind it. -/
theorem Serial.cut {first second : List (Served I ι M S Req Res)} {call : Served I ι M S Req Res}
    (h : Serial P effect start (first ++ call :: second) final) :
    Serial P effect start first call.before ∧ Serial P effect call.after second final ∧
      call.after.2 = call.trace.foldl effect call.before.2 ∧
      (P.method call.before.1 call.request).Exec call.trace (call.result, call.after.1) := by
  obtain ⟨middle, hfirst, hrest⟩ := serial_append.mp h
  rw [← List.singleton_append] at hrest
  obtain ⟨middle', hcall, hsecond⟩ := serial_append.mp hrest
  obtain ⟨rfl, rfl, hshared, exec⟩ := serial_singleton.mp hcall
  exact ⟨hfirst, hsecond, hshared, exec⟩

/-- Two calls of a run, with the run between them. -/
theorem Serial.between {first mid last : List (Served I ι M S Req Res)}
    {call call' : Served I ι M S Req Res}
    (h : Serial P effect start (first ++ call :: mid ++ call' :: last) final) :
    Serial P effect call.after mid call'.before := by
  obtain ⟨hbefore, -, -, -⟩ := h.cut
  exact hbefore.cut.2.1

/-- What every call keeps holds before and after each of them, and at the end. -/
theorem Serial.invariant (Inv : M × S → Prop) (initial : Inv start)
    (step : ∀ m s request trace r m', Inv (m, s) → (P.method m request).Exec trace (r, m') →
      Inv (m', trace.foldl effect s))
    (h : Serial P effect start served final) :
    Inv final ∧ ∀ call ∈ served, Inv call.before ∧ Inv call.after := by
  induction h with
  | start => exact ⟨initial, by simp⟩
  | serve _ client request exec ih =>
    have hafter := step _ _ _ _ _ _ ih.1 exec
    refine ⟨hafter, fun call hcall => ?_⟩
    rcases List.mem_append.mp hcall with hearlier | hlast
    · exact ih.2 call hearlier
    · obtain rfl := List.mem_singleton.mp hlast
      exact ⟨ih.1, hafter⟩

/-! ### Any order of steps -/

variable [DecidableEq ι]

/-- The calls served so far are a serial run, and so is what the client inside has done. -/
theorem Interleaved.progress {x : State I ι M S Req Res}
    (h : Interleaved P effect start served x) :
    match x.inside with
    | none => Serial P effect start served (x.memory, x.shared)
    | some call => Serial P effect start served (x.memory, call.entered) ∧
        x.shared = call.trace.foldl effect call.entered ∧
        ∀ rest r, call.left.Exec rest r →
          (P.method x.memory call.request).Exec (call.trace ++ rest) r := by
  induction h with
  | start => exact .start
  | @step served x further y _ hstep ih =>
    cases hstep with
    | ask request hasking houtside =>
      rw [List.append_nil]
      exact ih
    | enter hasking hfree =>
      rw [hfree] at ih
      rw [List.append_nil]
      exact ⟨ih, rfl, fun rest r hexec => hexec⟩
    | act hinside a =>
      rw [hinside] at ih
      obtain ⟨hserial, hshared, hleft⟩ := ih
      rw [List.append_nil]
      refine ⟨hserial, ?_, fun rest r hexec => ?_⟩
      · rw [List.foldl_append, ← hshared]
        rfl
      · rw [List.append_assoc]
        exact hleft _ r (.call a hexec)
    | @leave client request entered trace r m' hinside =>
      rw [hinside] at ih
      obtain ⟨hserial, hshared, hleft⟩ := ih
      simp only at hserial hshared hleft
      have hexec := hleft [] _ (.done _)
      rw [List.append_nil] at hexec
      have hserved := hserial.serve client request hexec
      rw [← hshared] at hserved
      exact hserved

theorem Interleaved.serial {x : State I ι M S Req Res}
    (h : Interleaved P effect start served x) :
    ∃ s, Serial P effect start served (x.memory, s) := by
  have hprogress := h.progress
  split at hprogress
  · exact ⟨_, hprogress⟩
  · exact ⟨_, hprogress.1⟩

/-- A client that comes while everyone is outside and is served before another one moves. -/
theorem Interleaved.serve {x : State I ι M S Req Res} (h : Interleaved P effect start served x)
    (hasking : ∀ client, x.asking client = none) (hfree : x.inside = none) (client : ι)
    (request : Req) {trace : Trace I} {r : Res} {m' : M}
    (exec : (P.method x.memory request).Exec trace (r, m')) :
    Interleaved P effect start
      (served ++ [⟨client, request, (x.memory, x.shared), trace, r,
        (m', trace.foldl effect x.shared)⟩])
      ⟨m', trace.foldl effect x.shared, fun _ => none, none⟩ := by
  obtain ⟨memory, shared, asking, inside⟩ := x
  obtain rfl : asking = fun _ => none := funext hasking
  subst hfree
  have hask := h.step (@Step.ask I ι M S Req Res _ P effect _ client request rfl (by simp))
  have henter := hask.step (@Step.enter I ι M S Req Res _ P effect _ client request
    (Function.update_self ..) rfl)
  simp only [Function.update_idem, Function.update_eq_self_iff.mpr, List.append_nil] at henter
  -- the operations of the method, one at a time
  have hacts : ∀ {p : Prog I (Res × M)} {acts done : Trace I} {s : S}, p.Exec acts (r, m') →
      Interleaved P effect start served
        ⟨memory, s, fun _ => none, some ⟨client, request, shared, done, p⟩⟩ →
      Interleaved P effect start served
        ⟨memory, acts.foldl effect s, fun _ => none,
          some ⟨client, request, shared, done ++ acts, .done (r, m')⟩⟩ := by
    intro p acts done s hexec hinside
    generalize hr : (r, m') = result at hexec
    induction hexec generalizing done s with
    | done a =>
      subst hr
      simpa using hinside
    | call a _ ih =>
      have hact := hinside.step (.act rfl a)
      rw [List.append_nil] at hact
      have hrest := ih hact hr
      rw [List.append_assoc] at hrest
      exact hrest
  exact (hacts exec henter).step (.leave rfl)

end Monitor

end Effects
