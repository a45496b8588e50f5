/-
Runs of the event detector: the account of its triggers and bundles.

The record of a run tells a generation that is new from the snapshots alone; the detector
decides it by the last one it has seen (`run_remembers`).

* `Lifecycle.run` — a property of bundles, from their creation to their end;
* `triggers_accounted` — every trigger is counted in one bundle, and no bundle is lost.
-/
import Mathlib.Data.List.Induction
import UhfGateway.Storage.EventDetector

namespace Uhf.Storage

open Domain Acquisition

namespace EventDetector

/-! ### What the detector remembers -/

/-- The newest two frames. -/
def lastFrames (frames : List PublishedSnapshot) : List PublishedSnapshot :=
  frames.drop (frames.length - kHistoryFrameCount)

/-- The oldest of three frames is forgotten. -/
theorem lastFrames_append (frames : List PublishedSnapshot) (frame : PublishedSnapshot) :
    lastFrames (lastFrames frames ++ [frame]) = lastFrames (frames ++ [frame]) := by
  simp only [lastFrames, List.length_append, List.length_drop, List.length_cons, List.length_nil,
    kHistoryFrameCount]
  by_cases hshort : frames.length ≤ 2
  · have hall : frames.length - 2 = 0 := Nat.sub_eq_zero_of_le hshort
    rw [hall, List.drop_zero, Nat.sub_zero]
  · have hlong : frames.length - (frames.length - 2) = 2 := by omega
    have hone : frames.length + (0 + 1) - 2 = frames.length - 2 + 1 := by omega
    rw [hlong, hone, List.drop_append_of_le_length (by rw [List.length_drop]; omega),
      List.drop_append_of_le_length (by omega), List.drop_drop]

/-- The memory of the detector, from the snapshots of the run. -/
structure Remembers (r : Run) : Prop where
  sorted : r.observed.Pairwise fun frame frame' => frame.generation < frame'.generation
  nonzero : ∀ frame ∈ r.observed, frame.generation ≠ 0
  last : r.detector.lastGeneration = r.observed.getLast?.map PublishedSnapshot.generation
  history : r.detector.history = lastFrames r.observed

theorem Remembers.isNew {r : Run} (h : Remembers r) (generation : UInt64) :
    r.detector.isNew generation = newGeneration r.observed generation := by
  rw [EventDetector.isNew, newGeneration, h.last]
  congr 1
  cases hlast : r.observed.getLast? with
  | none =>
    rw [List.getLast?_eq_none_iff.mp hlast]
    rfl
  | some frame =>
    obtain ⟨before, hbefore⟩ := List.getLast?_eq_some_iff.mp hlast
    have hsorted := h.sorted
    rw [hbefore, List.pairwise_append] at hsorted
    rw [hbefore, List.all_append, Option.map_some, Option.all_some]
    -- what is newer than the last frame is newer than the frames before it
    cases hnewer : decide (frame.generation < generation) with
    | false => simp [hnewer]
    | true =>
      simp only [List.all_cons, hnewer, List.all_nil, Bool.and_true]
      refine (List.all_eq_true.mpr fun frame' hframe' => ?_).symm
      exact decide_eq_true (UInt64.lt_trans (hsorted.2.2 frame' hframe' frame List.mem_cons_self)
        (of_decide_eq_true hnewer))

theorem Remembers.isNew_expire {r : Run} (h : Remembers r) (generation : UInt64)
    (now : Nanoseconds) :
    (r.detector.expire now).isNew generation = newGeneration r.observed generation := by
  rw [← h.isNew, EventDetector.isNew, EventDetector.isNew,
    (r.detector.expire_sameMemory now).lastGeneration]

theorem Remembers.of_sameMemory {r r' : Run} (h : Remembers r)
    (hmemory : SameMemory r.detector r'.detector) (hobserved : r'.observed = r.observed) :
    Remembers r' := by
  refine ⟨hobserved ▸ h.sorted, hobserved ▸ h.nonzero, ?_, ?_⟩
  · rw [hmemory.lastGeneration, hobserved, h.last]
  · rw [hmemory.history, hobserved, h.history]

theorem Remembers.perform {r : Run} (h : Remembers r) (call : Call) :
    Remembers (r.perform call) := by
  cases call with
  | observe snapshot observedAt fresh observedAtUtc =>
    have hisNew := h.isNew_expire snapshot.generation observedAt
    cases hnew : newGeneration r.observed snapshot.generation with
    | false =>
      rw [hnew] at hisNew
      refine h.of_sameMemory ?_ (if_neg (Bool.eq_false_iff.mp hnew))
      show SameMemory _ (r.detector.observe snapshot observedAt fresh observedAtUtc)
      rw [observe_of_old fresh observedAtUtc hisNew]
      exact r.detector.expire_sameMemory observedAt
    | true =>
      have hobserved : (r.perform (.observe snapshot observedAt fresh observedAtUtc)).observed =
          r.observed ++ [snapshot] := if_pos hnew
      rw [hnew] at hisNew
      obtain ⟨active, id, armed, peak, hobserve⟩ := observe_of_new fresh observedAtUtc hisNew
      rw [newGeneration, Bool.and_eq_true, decide_eq_true_eq, List.all_eq_true] at hnew
      refine ⟨?_, ?_, ?_, ?_⟩
      · rw [hobserved, List.pairwise_append]
        refine ⟨h.sorted, List.pairwise_singleton _ _, fun frame hframe frame' hframe' => ?_⟩
        rw [List.mem_singleton.mp hframe']
        exact of_decide_eq_true (hnew.2 frame hframe)
      · intro frame hframe
        rw [hobserved, List.mem_append, List.mem_singleton] at hframe
        rcases hframe with hframe | rfl
        · exact h.nonzero frame hframe
        · exact hnew.1
      · rw [hobserved, List.getLast?_concat, Option.map_some]
        show (r.detector.observe snapshot observedAt fresh observedAtUtc).lastGeneration = _
        rw [hobserve]
        rfl
      · rw [hobserved, ← lastFrames_append, ← h.history,
          ← (r.detector.expire_sameMemory observedAt).history]
        show (r.detector.observe snapshot observedAt fresh observedAtUtc).history = _
        rw [hobserve]
        rfl
  | advance now =>
    exact h.of_sameMemory ((r.detector.expire_sameMemory now).trans ⟨rfl, rfl, rfl, rfl, rfl, rfl⟩) rfl
  | takeCompleted => exact h.of_sameMemory ⟨rfl, rfl, rfl, rfl, rfl, rfl⟩ rfl
  | updateOptions options => exact ⟨h.sorted, h.nonzero, h.last, h.history⟩

theorem run_remembers (options : EventOptions) (calls : List Call) :
    Remembers (run options calls) := by
  induction calls using List.reverseRecOn with
  | nil => exact ⟨List.Pairwise.nil, List.forall_mem_nil _, rfl, rfl⟩
  | append_singleton calls call ih =>
    rw [run_append]
    exact ih.perform call

/-! ### A property of bundles over a run -/

/-- A property `Q` of active bundles and what it leaves of a bundle handed over, `P`, both
in view of the calls so far: how each stage carries them on. -/
structure Lifecycle (options : EventOptions) (Q P : List Call → ActiveBundle → Prop) : Prop where
  close : ∀ calls eventOptions now a, Q calls a → Q calls (a.closeCollection eventOptions now)
  finish : ∀ calls a, Q calls a → P calls a
  later : ∀ calls call a, P calls a → P (calls ++ [call]) a
  keep : ∀ calls call a, (run options (calls ++ [call])).observed = (run options calls).observed →
    Q calls a → Q (calls ++ [call]) a
  post : ∀ calls snapshot observedAt fresh observedAtUtc a,
    newGeneration (run options calls).observed snapshot.generation = true → Q calls a →
      Q (calls ++ [.observe snapshot observedAt fresh observedAtUtc]) (a.appendPostFrame snapshot)
  attach : ∀ calls a type peakDbm deltaDb, Q calls a →
    Q calls { a with bundle := a.bundle.attachReason type peakDbm deltaDb }
  create : ∀ calls snapshot observedAt fresh observedAtUtc reasonMask deltaDb,
    newGeneration (run options calls).observed snapshot.generation = true →
    .createBundle reasonMask deltaDb ∈
      (run options calls).detector.routesOf snapshot observedAt fresh →
    Q (calls ++ [.observe snapshot observedAt fresh observedAtUtc])
      ⟨newBundle (run options calls).detector.nextBundleId (run options calls).detector.history
        reasonMask snapshot observedAt observedAtUtc
        ((run options calls).detector.sighting snapshot observedAt fresh).2.peakDbm deltaDb, 0, false⟩

section Lifecycle

variable {options : EventOptions} {Q P : List Call → ActiveBundle → Prop}

theorem Lifecycle.emissions (h : Lifecycle options Q P) {calls : List Call}
    (heach : (run options calls).detector.Each (Q calls)) (now : Nanoseconds) (call : Call)
    (hemitted : ∀ a ∈ (run options calls).emitted, P calls a) :
    ∀ a ∈ (run options calls).emitted ++ (run options calls).detector.emissions now,
      P (calls ++ [call]) a := by
  intro a ha
  refine h.later _ _ _ ?_
  rcases List.mem_append.mp ha with ha | ha
  · exact hemitted a ha
  · exact h.finish _ _ ((heach.expire (h.close calls _ now)).2 a ha)

/-- The property holds of every active bundle, and what it leaves of every bundle handed
over. -/
theorem Lifecycle.run (h : Lifecycle options Q P) (calls : List Call) :
    (run options calls).detector.Each (Q calls) ∧
      ∀ a ∈ (EventDetector.run options calls).emitted, P calls a := by
  induction calls using List.reverseRecOn with
  | nil =>
    refine ⟨?_, List.forall_mem_nil _⟩
    intro slot a ha
    cases ha
  | append_singleton calls call ih =>
    obtain ⟨heach, hemitted⟩ := ih
    have hmemory := run_remembers options calls
    have hkeep := h.keep calls call
    rw [run_append] at hkeep ⊢
    cases call with
    | observe snapshot observedAt fresh observedAtUtc =>
      refine ⟨?_, h.emissions heach observedAt _ hemitted⟩
      have hisNew := hmemory.isNew_expire snapshot.generation observedAt
      refine heach.observe (h.close calls _ observedAt) ?_ ?_ (h.attach _) ?_
      · intro hold a ha
        refine hkeep a (if_neg ?_) ha
        rw [← hisNew, hold]
        exact Bool.false_ne_true
      · intro hnew a ha
        exact h.post _ _ _ _ _ _ (hisNew ▸ hnew) ha
      · intro hnew reasonMask deltaDb hroute
        exact h.create _ _ _ _ _ _ _ (hisNew ▸ hnew) hroute
    | advance now =>
      refine ⟨fun slot a ha => ?_, h.emissions heach now _ hemitted⟩
      exact hkeep a rfl ((heach.expire (h.close calls _ now)).1 ha)
    | takeCompleted =>
      exact ⟨fun slot a ha => hkeep a rfl (heach ha), fun a ha => h.later _ _ _ (hemitted a ha)⟩
    | updateOptions eventOptions =>
      exact ⟨fun slot a ha => hkeep a rfl (heach ha), fun a ha => h.later _ _ _ (hemitted a ha)⟩

end Lifecycle

/-! ### One bundle for each reason -/

/-- A reason has at most one active bundle. -/
def Unique (s : EventDetector) : Prop :=
  ∀ ⦃type slot slot' a a'⦄, s.active slot = some a → s.active slot' = some a' →
    a.bundle.hasReason type = true → a'.bundle.hasReason type = true → slot = slot'

/-- A bundle has a reason, and no other than the two. -/
def Reasoned (a : ActiveBundle) : Prop :=
  a.bundle.reasonMask = 1 ∨ a.bundle.reasonMask = 2 ∨ a.bundle.reasonMask = 3

theorem Reasoned.exists_reason {a : ActiveBundle} (h : Reasoned a) :
    ∃ type, a.bundle.hasReason type = true := by
  simp only [EventBundle.hasReason]
  rcases h with h | h | h <;> rw [h]
  · exact ⟨.strongDischarge, by decide⟩
  · exact ⟨.suddenChange, by decide⟩
  · exact ⟨.strongDischarge, by decide⟩

section Reasons

variable {s s' : EventDetector} {slot : Slot} {a : ActiveBundle}

/-- Bundles with the reasons they had before, or with fewer. -/
theorem Unique.mono (h : Unique s) (hsub : ∀ slot a', s'.active slot = some a' →
    ∃ a, s.active slot = some a ∧ a'.bundle.reasonMask = a.bundle.reasonMask) : Unique s' := by
  intro type slot slot' b b' hb hb' hreason hreason'
  obtain ⟨a, ha, hmask⟩ := hsub slot b hb
  obtain ⟨a', ha', hmask'⟩ := hsub slot' b' hb'
  rw [EventBundle.hasReason, hmask] at hreason
  rw [EventBundle.hasReason, hmask'] at hreason'
  exact h ha ha' hreason hreason'

theorem reasonMask_closeCollection (a : ActiveBundle) (options : EventOptions) (now : Nanoseconds) :
    (a.closeCollection options now).bundle.reasonMask = a.bundle.reasonMask := by
  rw [ActiveBundle.closeCollection]
  split_ifs <;> rfl

theorem reasonMask_appendPostFrame (a : ActiveBundle) (snapshot : PublishedSnapshot) :
    (a.appendPostFrame snapshot).bundle.reasonMask = a.bundle.reasonMask := by
  rw [ActiveBundle.appendPostFrame]
  split_ifs <;> rfl

/-- After `expire` a slot is empty or holds its bundle, with the collection closed if it
was due. -/
theorem ExpireSlot.active_some {now : Nanoseconds} {emitted : Option ActiveBundle}
    (h : ExpireSlot s now slot s' emitted) {other : Slot} {a' : ActiveBundle}
    (ha' : s'.active other = some a') :
    ∃ a, s.active other = some a ∧ (a' = a ∨ a' = a.closeCollection s.options now) := by
  by_cases hother : other = slot
  · subst hother
    cases h with
    | free _ => exact ⟨a', ha', .inl rfl⟩
    | @kept a ha _ =>
      rw [setActive_self] at ha'
      exact ⟨a, ha, .inr (Option.some.inj ha').symm⟩
    | handed _ _ =>
      rw [setActive_self] at ha'
      cases ha'
  · rw [h.active_of_ne hother] at ha'
    exact ⟨a', ha', .inl rfl⟩

theorem Unique.expireSlot (h : Unique s) (now : Nanoseconds) (slot : Slot) :
    Unique (s.expireSlot now slot) := by
  refine h.mono fun other a' ha' => ?_
  obtain ⟨a, ha, rfl | rfl⟩ := (expireSlot_cases s now slot).active_some ha'
  · exact ⟨a', ha, rfl⟩
  · exact ⟨a, ha, reasonMask_closeCollection _ _ _⟩

theorem Unique.sighting (h : Unique s) (snapshot : PublishedSnapshot) (observedAt : Nanoseconds)
    (fresh : Bool) : Unique (s.sighting snapshot observedAt fresh).1 := by
  have hexpire : Unique (s.expire observedAt) := (h.expireSlot _ _).expireSlot _ _
  by_cases hnew : (s.expire observedAt).isNew snapshot.generation = true
  · refine hexpire.mono fun slot a' ha' => ?_
    rw [(sighting_of_new fresh hnew).1] at ha'
    obtain ⟨a, ha, rfl⟩ := Option.map_eq_some_iff.mp ha'
    exact ⟨a, ha, reasonMask_appendPostFrame _ _⟩
  · rw [EventDetector.sighting, if_neg hnew]
    exact hexpire

/-- A reason may join a bundle if no other has it. -/
theorem Unique.attach (h : Unique s) {type : EventType} {peakDbm deltaDb : Int32}
    (ha : s.active slot = some a)
    (honly : ∀ slot' a', s.active slot' = some a' → a'.bundle.hasReason type = true → slot' = slot) :
    Unique (s.setActive slot
      (some { a with bundle := a.bundle.attachReason type peakDbm deltaDb })) := by
  -- in either slot, a reason is the attached one or was there before
  have hold : ∀ type' slot' b, (s.setActive slot (some { a with
      bundle := a.bundle.attachReason type peakDbm deltaDb })).active slot' = some b →
      b.bundle.hasReason type' = true →
        slot' = slot ∧ type' = type ∨ ∃ b', s.active slot' = some b' ∧
          b'.bundle.hasReason type' = true := by
    intro type' slot' b hb hreason
    by_cases hslot : slot' = slot
    · subst hslot
      rw [setActive_self] at hb
      cases hb
      rcases (EventBundle.hasReason_attachReason ..).mp hreason with rfl | hreason
      · exact .inl ⟨rfl, rfl⟩
      · exact .inr ⟨a, ha, hreason⟩
    · rw [setActive_of_ne _ hslot] at hb
      exact .inr ⟨b, hb, hreason⟩
  intro type' slot' slot'' b b' hb hb' hreason hreason'
  rcases hold type' slot' b hb hreason with ⟨rfl, rfl⟩ | ⟨c, hc, hcreason⟩
  · rcases hold type' slot'' b' hb' hreason' with ⟨rfl, -⟩ | ⟨c', hc', hcreason'⟩
    · rfl
    · exact (honly slot'' c' hc' hcreason').symm
  · rcases hold type' slot'' b' hb' hreason' with ⟨rfl, rfl⟩ | ⟨c', hc', hcreason'⟩
    · exact honly slot' c hc hcreason
    · exact h hc hc' hcreason hcreason'

/-- A new bundle may have the reasons that no other has. -/
theorem Unique.create (h : Unique s) {bundle : EventBundle}
    (hnone : ∀ type, bundle.hasReason type = true → s.findActive type = none) :
    Unique (s.setActive slot (some ⟨bundle, 0, false⟩)) := by
  have hold : ∀ type slot' b, (s.setActive slot (some ⟨bundle, 0, false⟩)).active slot' = some b →
      b.bundle.hasReason type = true → slot' = slot ∧ s.findActive type = none ∨
        s.active slot' = some b := by
    intro type slot' b hb hreason
    by_cases hslot : slot' = slot
    · subst hslot
      rw [setActive_self] at hb
      cases hb
      exact .inl ⟨rfl, hnone type hreason⟩
    · rw [setActive_of_ne _ hslot] at hb
      exact .inr hb
  have habsent : ∀ {type slot' b}, s.findActive type = none → s.active slot' = some b →
      b.bundle.hasReason type ≠ true := by
    intro type slot' b hfind hb
    rw [findActive_eq_none hfind hb]
    exact Bool.false_ne_true
  intro type slot' slot'' b b' hb hb' hreason hreason'
  rcases hold type slot' b hb hreason with ⟨rfl, hfind⟩ | hc
  · rcases hold type slot'' b' hb' hreason' with ⟨rfl, -⟩ | hc'
    · rfl
    · exact absurd hreason' (habsent hfind hc')
  · rcases hold type slot'' b' hb' hreason' with ⟨rfl, hfind⟩ | hc'
    · exact absurd hreason (habsent hfind hc)
    · exact h hc hc' hreason hreason'

/-- Where a reason is looked up, no other slot has it. -/
theorem Unique.only (h : Unique s) {type : EventType} (hslot : s.findActive type = some slot) :
    ∀ slot' a', s.active slot' = some a' → a'.bundle.hasReason type = true → slot' = slot := by
  obtain ⟨a, ha, hreason⟩ := findActive_eq_some hslot
  intro slot' a' ha' hreason'
  exact h ha' ha hreason' hreason

/-- With both slots taken, both reasons have a bundle. -/
theorem findActive_of_full (h : Unique s) (hreasoned : s.Each Reasoned) (hfull : s.freeSlot = none)
    (type : EventType) : s.findActive type ≠ none := by
  intro hnone
  obtain ⟨a, ha⟩ := freeSlot_eq_none hfull 0
  obtain ⟨a', ha'⟩ := freeSlot_eq_none hfull 1
  obtain ⟨first, hfirst⟩ := (hreasoned ha).exists_reason
  obtain ⟨second, hsecond⟩ := (hreasoned ha').exists_reason
  have hne : first ≠ type := by
    rintro rfl
    rw [findActive_eq_none hnone ha] at hfirst
    cases hfirst
  have hne' : second ≠ type := by
    rintro rfl
    rw [findActive_eq_none hnone ha'] at hsecond
    cases hsecond
  -- there is only one other reason, and it cannot have both slots
  obtain rfl : first = second := by
    cases type <;> cases first <;> cases second <;> simp_all
  exact absurd (h ha ha' hfirst hsecond) (by decide)

/-- A reason has joined the bundle of a slot, and no other bundle had it. -/
structure Attached (s : EventDetector) (slot : Slot) (type : EventType) (s' : EventDetector) :
    Prop where
  step : ∃ a peakDbm deltaDb, s.active slot = some a ∧
    s' = s.setActive slot (some { a with bundle := a.bundle.attachReason type peakDbm deltaDb })
  only : ∀ slot' a', s.active slot' = some a' → a'.bundle.hasReason type = true → slot' = slot

theorem Attached.unique (h : Unique s) {type : EventType} (hattached : Attached s slot type s') :
    Unique s' := by
  obtain ⟨⟨a, peakDbm, deltaDb, ha, rfl⟩, honly⟩ := hattached
  exact h.attach ha honly

/-- What an observation does about its trigger when every reason has at most one bundle,
with the number of bundles it creates. -/
inductive Outcome (s : EventDetector) (trigger : Trigger) (snapshot : PublishedSnapshot)
    (observedAt observedAtUtc : Nanoseconds) : EventDetector → ℕ → Prop
  | quiet (hnone : ∀ type, trigger.raises type = false) :
      Outcome s trigger snapshot observedAt observedAtUtc s 0
  | create {slot reasonMask deltaDb} (hslot : s.active slot = none)
      (hbits : ∀ type, trigger.raises type = decide (reasonMask &&& reasonBit type ≠ 0))
      (hfree : ∀ type, trigger.raises type = true → s.findActive type = none) :
      Outcome s trigger snapshot observedAt observedAtUtc
        { s.setActive slot (some ⟨newBundle s.nextBundleId s.history reasonMask snapshot observedAt
            observedAtUtc trigger.peakDbm deltaDb, 0, false⟩) with
          nextBundleId := s.nextBundleId + 1 } 1
  | one {slot type s'} (hbits : ∀ type', trigger.raises type' = decide (type' = type))
      (hattached : Attached s slot type s') :
      Outcome s trigger snapshot observedAt observedAtUtc s' 0
  | two {slot slot' type type' s' s''} (hbits : ∀ type, trigger.raises type = true)
      (hne : type ≠ type') (hattached : Attached s slot type s')
      (hattached' : Attached s' slot' type' s'') :
      Outcome s trigger snapshot observedAt observedAtUtc s'' 0

/-- A trigger with a known reason that starts a bundle raises one. -/
theorem exists_raised {trigger : Trigger} {reasonMask : UInt8}
    (hreason : reasonMask = 1 ∨ reasonMask = 2 ∨ reasonMask = 3)
    (hbits : ∀ type, trigger.raises type = decide (reasonMask &&& reasonBit type ≠ 0)) :
    ∃ type, trigger.raises type = true := by
  simp only [hbits]
  rcases hreason with rfl | rfl | rfl
  · exact ⟨.strongDischarge, by decide⟩
  · exact ⟨.suddenChange, by decide⟩
  · exact ⟨.strongDischarge, by decide⟩

/-- A bundle is only created while a slot is free. -/
theorem Routing.freeSlot {trigger : Trigger} {routes : List Route} (h : Unique s)
    (hreasoned : s.Each Reasoned) (hroutes : Routing s trigger routes) {reasonMask : UInt8}
    {deltaDb : Int32} (hcreate : .createBundle reasonMask deltaDb ∈ routes) : s.freeSlot ≠ none := by
  intro hfull
  obtain ⟨hbits, hfree, hreason, -⟩ := hroutes.create_mem hcreate
  obtain ⟨type, hraised⟩ := exists_raised hreason hbits
  exact findActive_of_full h hreasoned hfull type (hfree type hraised)

theorem follow_attachReason (trigger : Trigger) (snapshot : PublishedSnapshot)
    (observedAt observedAtUtc : Nanoseconds) (type : EventType) (deltaDb : Int32)
    (ha : s.active slot = some a)
    (honly : ∀ slot' a', s.active slot' = some a' → a'.bundle.hasReason type = true → slot' = slot) :
    Attached s slot type (s.follow trigger snapshot observedAt observedAtUtc
      (.attachReason slot type deltaDb)) := by
  refine ⟨⟨a, trigger.peakDbm, deltaDb, ha, ?_⟩, honly⟩
  rw [follow, ha]

theorem follow_createBundle (trigger : Trigger) (snapshot : PublishedSnapshot)
    (observedAt observedAtUtc : Nanoseconds) (reasonMask : UInt8) (deltaDb : Int32)
    (hslot : s.freeSlot = some slot) :
    s.follow trigger snapshot observedAt observedAtUtc (.createBundle reasonMask deltaDb) =
      { s.setActive slot (some ⟨newBundle s.nextBundleId s.history reasonMask snapshot observedAt
          observedAtUtc trigger.peakDbm deltaDb, 0, false⟩) with
        nextBundleId := s.nextBundleId + 1 } := by
  rw [follow, createBundle, hslot]

/-- The second of two reasons finds its slot as it was before the first. -/
theorem Attached.second {type type' : EventType} {slot' : Slot} (h : Unique s)
    (hfirst : Attached s slot type s') (hne : type ≠ type')
    (hslot' : s.findActive type' = some slot' ∨ s.findActive type' = none ∧ slot' = slot) :
    (∃ a', s'.active slot' = some a') ∧
      ∀ slot'' a', s'.active slot'' = some a' → a'.bundle.hasReason type' = true →
        slot'' = slot' := by
  obtain ⟨⟨a, peakDbm, deltaDb, ha, rfl⟩, -⟩ := hfirst
  constructor
  · by_cases hsame : slot' = slot
    · subst hsame
      exact ⟨_, setActive_self _⟩
    · rw [setActive_of_ne _ hsame]
      rcases hslot' with hslot' | ⟨-, hslot'⟩
      · obtain ⟨a', ha', -⟩ := findActive_eq_some hslot'
        exact ⟨a', ha'⟩
      · exact absurd hslot' hsame
  · intro slot'' a' ha' hreason'
    -- the first reason is the other one, so this one was there before
    obtain ⟨b, hb, hreason⟩ : ∃ b, s.active slot'' = some b ∧ b.bundle.hasReason type' = true := by
      by_cases hsame : slot'' = slot
      · subst hsame
        rw [setActive_self] at ha'
        cases ha'
        rcases (EventBundle.hasReason_attachReason ..).mp hreason' with heq | hreason
        · exact absurd heq hne
        · exact ⟨a, ha, hreason⟩
      · rw [setActive_of_ne _ hsame] at ha'
        exact ⟨a', ha', hreason'⟩
    rcases hslot' with hslot' | ⟨hslot', -⟩
    · exact h.only hslot' slot'' b hb hreason
    · rw [findActive_eq_none hslot' hb] at hreason
      cases hreason

theorem outcome {trigger : Trigger} {routes : List Route} (snapshot : PublishedSnapshot)
    (observedAt observedAtUtc : Nanoseconds) (h : Unique s) (hreasoned : s.Each Reasoned)
    (hroutes : Routing s trigger routes) :
    Outcome s trigger snapshot observedAt observedAtUtc
      (routes.foldl (fun s' route =>
        s'.follow trigger snapshot observedAt observedAtUtc route) s)
      (routes.countP Route.isCreate) := by
  have hroom := hroutes
  cases hroutes with
  | quiet hnone => exact .quiet hnone
  | @create reasonMask deltaDb hbits hnone _ _ =>
    obtain ⟨slot, hslot⟩ :=
      Option.ne_none_iff_exists'.mp (hroom.freeSlot h hreasoned List.mem_cons_self)
    rw [List.foldl_cons, List.foldl_nil, follow_createBundle _ _ _ _ _ _ hslot]
    exact .create (freeSlot_eq_some hslot) hbits hnone
  | @one slot type deltaDb hbits hslot =>
    obtain ⟨a, ha, -⟩ := findActive_eq_some hslot
    exact .one hbits (follow_attachReason trigger snapshot observedAt observedAtUtc type deltaDb ha
      (h.only hslot))
  | @two slot slot' type type' deltaDb deltaDb' hbits hne hslot hslot' =>
    obtain ⟨a, ha, -⟩ := findActive_eq_some hslot
    have hfirst := follow_attachReason trigger snapshot observedAt observedAtUtc type deltaDb ha
      (h.only hslot)
    obtain ⟨⟨a', ha'⟩, honly'⟩ := hfirst.second h hne hslot'
    exact .two hbits hne hfirst (follow_attachReason trigger snapshot observedAt observedAtUtc type'
      deltaDb' ha' honly')

theorem Outcome.nextBundleId {trigger : Trigger} {snapshot : PublishedSnapshot}
    {observedAt observedAtUtc : Nanoseconds} {created : ℕ}
    (h : Outcome s trigger snapshot observedAt observedAtUtc s' created) :
    s'.nextBundleId = s.nextBundleId + UInt64.ofNat created := by
  have hattach : ∀ {s s' : EventDetector} {slot type}, Attached s slot type s' →
      s'.nextBundleId = s.nextBundleId := by
    intro s s' slot type hattached
    obtain ⟨⟨a, peakDbm, deltaDb, -, rfl⟩, -⟩ := hattached
    rfl
  cases h with
  | quiet _ => exact (UInt64.add_zero _).symm
  | create _ _ _ => rfl
  | one _ hone => exact (hattach hone).trans (UInt64.add_zero _).symm
  | two _ _ hone htwo =>
    exact ((hattach htwo).trans (hattach hone)).trans (UInt64.add_zero _).symm

theorem Outcome.unique {trigger : Trigger} {snapshot : PublishedSnapshot}
    {observedAt observedAtUtc : Nanoseconds} {created : ℕ} (h : Unique s)
    (houtcome : Outcome s trigger snapshot observedAt observedAtUtc s' created) : Unique s' := by
  cases houtcome with
  | quiet _ => exact h
  | @create slot reasonMask deltaDb hslot hbits hfree =>
    have hset : Unique (s.setActive slot (some ⟨newBundle s.nextBundleId s.history reasonMask snapshot
        observedAt observedAtUtc trigger.peakDbm deltaDb, 0, false⟩)) :=
      h.create fun type htype => hfree type ((hbits type).trans htype)
    exact hset.mono fun slot' a' ha' => ⟨a', ha', rfl⟩
  | one _ hattached => exact hattached.unique h
  | two _ _ hattached hattached' => exact hattached'.unique (hattached.unique h)

end Reasons

/-! ### Sums over the bundles -/

/-- The sum over the bundles a run has created: those still active, and those handed
over. -/
def Run.total (r : Run) (f : EventBundle → ℕ) : ℕ :=
  r.detector.activeTotal f + (r.emitted.map fun a => f a.bundle).sum

/-- A count that depends on neither the frames nor the flag. -/
structure Fixed (f : EventBundle → ℕ) : Prop where
  isPartial : ∀ bundle isPartial, f { bundle with isPartial := isPartial } = f bundle
  frames : ∀ bundle frames, f { bundle with frames := frames } = f bundle

section Sums

variable {s s' : EventDetector} {slot : Slot} {f : EventBundle → ℕ}

theorem activeTotal_setActive (s : EventDetector) (f : EventBundle → ℕ) (slot : Slot)
    (active : Option ActiveBundle) :
    (s.setActive slot active).activeTotal f + weight f (s.active slot) =
      s.activeTotal f + weight f active := by
  obtain rfl | rfl : slot = 0 ∨ slot = 1 := by
    revert slot
    decide
  · rw [activeTotal, activeTotal, setActive_self, setActive_of_ne _ (by decide)]
    omega
  · rw [activeTotal, activeTotal, setActive_self, setActive_of_ne _ (by decide)]
    omega

theorem Fixed.closeCollection (hf : Fixed f) (a : ActiveBundle) (options : EventOptions)
    (now : Nanoseconds) : f (a.closeCollection options now).bundle = f a.bundle := by
  rw [ActiveBundle.closeCollection]
  split_ifs
  · exact hf.isPartial _ _
  · rfl

theorem Fixed.appendPostFrame (hf : Fixed f) (a : ActiveBundle) (snapshot : PublishedSnapshot) :
    f (a.appendPostFrame snapshot).bundle = f a.bundle := by
  rw [ActiveBundle.appendPostFrame]
  split_ifs
  · rfl
  · exact hf.frames _ _

theorem Fixed.expireSlot (hf : Fixed f) {now : Nanoseconds} {emitted : Option ActiveBundle}
    (h : ExpireSlot s now slot s' emitted) :
    s'.activeTotal f + weight f emitted = s.activeTotal f := by
  cases h with
  | free _ => rfl
  | @kept a ha _ =>
    have hset := s.activeTotal_setActive f slot (some (a.closeCollection s.options now))
    rw [ha, weight, weight, hf.closeCollection] at hset
    exact Nat.add_right_cancel hset
  | @handed a ha _ =>
    have hset :=
      (s.enqueue (a.closeCollection s.options now).bundle).activeTotal_setActive f slot none
    rw [enqueue_active, ha] at hset
    rw [weight, hf.closeCollection]
    refine hset.trans ?_
    rw [activeTotal, enqueue_active]
    rfl

theorem Fixed.expire (hf : Fixed f) (now : Nanoseconds) :
    (s.expire now).activeTotal f + ((s.emissions now).map fun a => f a.bundle).sum =
      s.activeTotal f := by
  have hweight : ∀ emitted : Option ActiveBundle,
      (emitted.toList.map fun a => f a.bundle).sum = weight f emitted := by
    intro emitted
    cases emitted <;> rfl
  have hfirst := hf.expireSlot (expireSlot_cases s now 0)
  have hsecond := hf.expireSlot (expireSlot_cases (s.expireSlot now 0) now 1)
  rw [emissions, List.map_append, List.sum_append, hweight, hweight]
  show (EventDetector.expireSlot _ now 1).activeTotal f + _ = _
  omega

theorem Fixed.sighting (hf : Fixed f) (snapshot : PublishedSnapshot) (observedAt : Nanoseconds)
    (fresh : Bool) :
    (s.sighting snapshot observedAt fresh).1.activeTotal f = (s.expire observedAt).activeTotal f := by
  by_cases hnew : (s.expire observedAt).isNew snapshot.generation = true
  · have hslot : ∀ slot, weight f (((s.expire observedAt).appendPostFrame snapshot).active slot) =
        weight f ((s.expire observedAt).active slot) := by
      intro slot
      show weight f (((s.expire observedAt).active slot).map _) = _
      cases (s.expire observedAt).active slot with
      | none => rfl
      | some a => exact hf.appendPostFrame a snapshot
    rw [activeTotal, (sighting_of_new fresh hnew).1, hslot, hslot, activeTotal]
  · rw [EventDetector.sighting, if_neg hnew]

theorem Attached.activeTotal {type : EventType} (h : Attached s slot type s') :
    ∃ bundle peakDbm deltaDb, ∀ f : EventBundle → ℕ,
      s'.activeTotal f + f bundle =
          s.activeTotal f + f (bundle.attachReason type peakDbm deltaDb) ∧
        f (bundle.attachReason type peakDbm deltaDb) ≤ s'.activeTotal f := by
  obtain ⟨⟨a, peakDbm, deltaDb, ha, rfl⟩, -⟩ := h
  refine ⟨a.bundle, peakDbm, deltaDb, fun f => ?_⟩
  have hset := s.activeTotal_setActive f slot
    (some { a with bundle := a.bundle.attachReason type peakDbm deltaDb })
  have hle : weight f (s.active slot) ≤ s.activeTotal f := by
    rw [EventDetector.activeTotal]
    obtain rfl | rfl : slot = 0 ∨ slot = 1 := by
      clear hset ha
      revert slot
      decide
    · exact Nat.le_add_right _ _
    · exact Nat.le_add_left _ _
  rw [ha] at hset hle
  refine ⟨hset, ?_⟩
  simp only [weight] at hset hle
  omega

theorem Outcome.activeCount {trigger : Trigger} {snapshot : PublishedSnapshot}
    {observedAt observedAtUtc : Nanoseconds} {created : ℕ}
    (h : Outcome s trigger snapshot observedAt observedAtUtc s' created) :
    s'.activeTotal (fun _ => 1) = s.activeTotal (fun _ => 1) + created := by
  have hattach : ∀ {s s' : EventDetector} {slot type}, Attached s slot type s' →
      s'.activeTotal (fun _ => 1) = s.activeTotal fun _ => 1 := by
    intro s s' slot type hattached
    obtain ⟨bundle, peakDbm, deltaDb, hf⟩ := hattached.activeTotal
    exact Nat.add_right_cancel (hf _).1
  cases h with
  | quiet _ => rfl
  | @create slot reasonMask deltaDb hslot _ _ =>
    have hset := s.activeTotal_setActive (fun _ => 1) slot (some ⟨newBundle s.nextBundleId s.history
      reasonMask snapshot observedAt observedAtUtc trigger.peakDbm deltaDb, 0, false⟩)
    rw [hslot] at hset
    exact hset
  | one _ hone => exact hattach hone
  | two _ _ hone htwo => exact (hattach htwo).trans (hattach hone)

end Sums

/-! ### Counting triggers -/

def countOf (type : EventType) (bundle : EventBundle) : ℕ := (bundle.stats type).triggerCount.toNat

/-- One for a bundle whose counter has reached its largest value. -/
def saturated (type : EventType) (bundle : EventBundle) : ℕ :=
  if countOf type bundle = 2 ^ 32 - 1 then 1 else 0

theorem countOf_fixed (type : EventType) : Fixed (countOf type) := by
  cases type <;> exact ⟨fun _ _ => rfl, fun _ _ => rfl⟩

theorem saturated_fixed (type : EventType) : Fixed (saturated type) := by
  cases type <;> exact ⟨fun _ _ => rfl, fun _ _ => rfl⟩

theorem countOf_attachReason (type type' : EventType) (bundle : EventBundle)
    (peakDbm deltaDb : Int32) :
    countOf type (bundle.attachReason type' peakDbm deltaDb) =
      if type' = type ∧ countOf type bundle < 2 ^ 32 - 1 then countOf type bundle + 1
      else countOf type bundle := by
  have hstats : ∀ (stats : EventReasonStats) deltaDb,
      (stats.updateStats peakDbm deltaDb).triggerCount.toNat =
        if stats.triggerCount.toNat < 2 ^ 32 - 1 then stats.triggerCount.toNat + 1
        else stats.triggerCount.toNat := by
    intro stats deltaDb
    simp only [EventReasonStats.updateStats]
    split_ifs with hless
    · rw [UInt32.toNat_add, UInt32.toNat_one, Nat.mod_eq_of_lt (by omega)]
    · rfl
  by_cases htype : type' = type
  · subst htype
    simp only [true_and]
    cases type' with
    | strongDischarge => exact hstats bundle.strong 0
    | suddenChange => exact hstats bundle.sudden deltaDb
  · rw [if_neg (fun hboth => htype hboth.1)]
    cases type <;> cases type' <;> first | rfl | exact absurd rfl htype

theorem countOf_newBundle (type : EventType) (id : UInt64) (history : List PublishedSnapshot)
    (reasonMask : UInt8) (snapshot : PublishedSnapshot) (observedAt observedAtUtc : Nanoseconds)
    (peakDbm deltaDb : Int32) :
    countOf type (newBundle id history reasonMask snapshot observedAt observedAtUtc peakDbm deltaDb) =
      if reasonMask &&& reasonBit type ≠ 0 then 1 else 0 := by
  cases type with
  | strongDischarge =>
    show (if reasonMask &&& kStrongReason ≠ 0 then _ else _ : EventReasonStats).triggerCount.toNat = _
    rw [reasonBit]
    split_ifs <;> rfl
  | suddenChange =>
    show (if reasonMask &&& kSuddenReason ≠ 0 then _ else _ : EventReasonStats).triggerCount.toNat = _
    rw [reasonBit]
    split_ifs <;> rfl

/-- A number of triggers is the sum of the counters and `count` more, unless a counter, or
one of `full` others, has stopped. -/
def Tally (type : EventType) (count full raised : ℕ) (s : EventDetector) : Prop :=
  raised = s.activeTotal (countOf type) + count ∨ 0 < s.activeTotal (saturated type) + full

section Tally

variable {s s' : EventDetector} {slot : Slot} {type type' : EventType} {count full raised : ℕ}

theorem Tally.attach (h : Tally type count full raised s) (hattached : Attached s slot type' s') :
    Tally type count full (raised + if type' = type then 1 else 0) s' := by
  obtain ⟨bundle, peakDbm, deltaDb, htotal⟩ := hattached.activeTotal
  obtain ⟨hcount, -⟩ := htotal (countOf type)
  obtain ⟨hfull, hpart⟩ := htotal (saturated type)
  have hless : countOf type bundle < 2 ^ 32 := UInt32.toNat_lt _
  rw [countOf_attachReason] at hcount
  simp only [saturated, countOf_attachReason] at hfull hpart
  rw [Tally] at h ⊢
  by_cases htype : type' = type
  · simp only [htype, true_and, if_true] at hcount hfull hpart ⊢
    by_cases hstop : countOf type bundle < 2 ^ 32 - 1
    · simp only [hstop, if_true] at hcount hfull hpart
      rw [if_neg (by omega)] at hfull
      rcases h with h | h
      · exact .inl (by omega)
      · exact .inr (by omega)
    · -- the counter of this bundle has stopped, so nothing is promised any more
      simp only [hstop, if_false] at hpart
      rw [if_pos (by omega)] at hpart
      exact .inr (by omega)
  · simp only [htype, false_and, if_false] at hcount hfull ⊢
    rcases h with h | h
    · exact .inl (by omega)
    · exact .inr (by omega)

theorem Tally.outcome {trigger : Trigger} {snapshot : PublishedSnapshot}
    {observedAt observedAtUtc : Nanoseconds} {created : ℕ} (h : Tally type count full raised s)
    (houtcome : Outcome s trigger snapshot observedAt observedAtUtc s' created) :
    Tally type count full (raised + if trigger.raises type = true then 1 else 0) s' := by
  cases houtcome with
  | quiet hnone =>
    rw [hnone, if_neg Bool.false_ne_true]
    exact h
  | @create slot reasonMask deltaDb hslot hbits hfree =>
    have hset := fun f => s.activeTotal_setActive f slot (some ⟨newBundle s.nextBundleId s.history
      reasonMask snapshot observedAt observedAtUtc trigger.peakDbm deltaDb, 0, false⟩)
    have hcount := hset (countOf type)
    have hfull := hset (saturated type)
    rw [hslot] at hcount hfull
    simp only [weight, countOf_newBundle] at hcount
    simp only [weight, saturated, countOf_newBundle] at hfull
    rw [hbits]
    simp only [decide_eq_true_eq]
    rw [Tally] at h ⊢
    rcases h with h | h
    · refine .inl ?_
      rw [h]
      show _ = (s.setActive slot _).activeTotal _ + count
      omega
    · refine .inr ?_
      show 0 < (s.setActive slot _).activeTotal _ + full
      omega
  | @one slot type' s' hbits hattached =>
    simp only [hbits, decide_eq_true_eq, @eq_comm _ type type']
    exact h.attach hattached
  | @two slot slot' first second s₁ s₂ hbits hne hattached hattached' =>
    have htwo := (h.attach hattached).attach hattached'
    have hother : (if first = type then 1 else 0) + (if second = type then 1 else 0) = 1 := by
      cases type <;> cases first <;> cases second <;> first | rfl | exact absurd rfl hne
    rw [hbits, if_pos rfl]
    rwa [Nat.add_assoc, hother] at htwo

end Tally

/-! ### The queue -/

section Queue

variable {s s' : EventDetector} {slot : Slot} {now : Nanoseconds} {emitted : Option ActiveBundle}

/-- Bundles waiting to be taken, and bundles given up. -/
def settled (s : EventDetector) : ℕ := s.completed.length + s.droppedBundleCount

def Fits (s : EventDetector) : Prop := s.completed.length ≤ s.options.maxPendingBundles

theorem settled_enqueue (s : EventDetector) (bundle : EventBundle) :
    (s.enqueue bundle).settled = s.settled + 1 := by
  rw [enqueue]
  split_ifs with hnone hfull
  · simp only [settled]
    omega
  · simp only [settled, List.length_append, List.length_tail, List.length_singleton]
    omega
  · simp only [settled, List.length_append, List.length_singleton]
    omega

theorem Fits.enqueue (h : Fits s) (bundle : EventBundle) : Fits (s.enqueue bundle) := by
  rw [Fits] at h
  rw [EventDetector.enqueue]
  split_ifs with hnone hfull
  · exact h
  · simp only [Fits, List.length_append, List.length_tail, List.length_singleton]
    omega
  · simp only [Fits, List.length_append, List.length_singleton]
    omega

theorem ExpireSlot.settled (h : ExpireSlot s now slot s' emitted) :
    s'.settled = s.settled + emitted.toList.length := by
  cases h with
  | free _ => rfl
  | kept _ _ => rfl
  | handed _ _ => exact settled_enqueue s _

theorem ExpireSlot.fits (h : ExpireSlot s now slot s' emitted) (hfits : Fits s) : Fits s' := by
  cases h with
  | free _ => exact hfits
  | kept _ _ => exact hfits
  | handed _ _ => exact hfits.enqueue _

theorem settled_expire (s : EventDetector) (now : Nanoseconds) :
    (s.expire now).settled = s.settled + (s.emissions now).length := by
  rw [expire, (expireSlot_cases _ now 1).settled, (expireSlot_cases s now 0).settled, emissions,
    List.length_append, Nat.add_assoc]

theorem Fits.expire (h : Fits s) (now : Nanoseconds) :
    Fits (s.expireSlot now 0) ∧ Fits (s.expire now) := by
  have hfirst := (expireSlot_cases s now 0).fits h
  exact ⟨hfirst, (expireSlot_cases _ now 1).fits hfirst⟩

/-- An observation leaves the queue as `expire` left it. -/
theorem observe_queue (s : EventDetector) (snapshot : PublishedSnapshot) (observedAt : Nanoseconds)
    (fresh : Bool) (observedAtUtc : Nanoseconds) :
    (s.observe snapshot observedAt fresh observedAtUtc).completed = (s.expire observedAt).completed ∧
      (s.observe snapshot observedAt fresh observedAtUtc).droppedBundleCount =
        (s.expire observedAt).droppedBundleCount ∧
      (s.observe snapshot observedAt fresh observedAtUtc).options = s.options := by
  have hoptions := (s.expire_sameMemory observedAt).options
  cases hnew : (s.expire observedAt).isNew snapshot.generation with
  | false =>
    rw [observe_of_old fresh observedAtUtc hnew]
    exact ⟨rfl, rfl, hoptions⟩
  | true =>
    obtain ⟨active, id, armed, peak, hobserve⟩ := observe_of_new fresh observedAtUtc hnew
    rw [hobserve]
    exact ⟨rfl, rfl, hoptions⟩

/-- The state after the calls an observation makes about its trigger. -/
def routed (s : EventDetector) (snapshot : PublishedSnapshot) (observedAt : Nanoseconds)
    (fresh : Bool) (observedAtUtc : Nanoseconds) : EventDetector :=
  (s.routesOf snapshot observedAt fresh).foldl (fun s' route =>
    s'.follow (s.sighting snapshot observedAt fresh).2 snapshot observedAt observedAtUtc route)
    (s.sighting snapshot observedAt fresh).1

/-- The slots after an observation are those its trigger has led to. -/
theorem observe_routed (s : EventDetector) (snapshot : PublishedSnapshot) (observedAt : Nanoseconds)
    (fresh : Bool) (observedAtUtc : Nanoseconds) :
    (s.observe snapshot observedAt fresh observedAtUtc).active =
        (s.routed snapshot observedAt fresh observedAtUtc).active ∧
      (s.observe snapshot observedAt fresh observedAtUtc).nextBundleId =
        (s.routed snapshot observedAt fresh observedAtUtc).nextBundleId := by
  rw [observe_eq]
  split_ifs with hnew
  · exact ⟨rfl, rfl⟩
  · have hnone : (s.expire observedAt).routes {} = [] := by
      rw [routes, if_neg (by decide), if_neg (by decide), if_neg (by decide)]
    rw [routed, routesOf, sighting, if_neg hnew, hnone]
    exact ⟨rfl, rfl⟩

end Queue

/-! ### The account -/

/-- The books of a run. -/
structure Accounted (r : Run) : Prop where
  unique : Unique r.detector
  tally : ∀ type, r.raised type = r.total (countOf type) ∨ 0 < r.total (saturated type)
  created : r.created = r.total fun _ => 1
  nextBundleId : r.detector.nextBundleId = UInt64.ofNat (r.created + 1)
  queue : r.emitted.length = r.detector.settled + r.taken.length
  limit : r.lowered = false → Fits r.detector

theorem reasoned_lifecycle (options : EventOptions) :
    Lifecycle options (fun _ => Reasoned) (fun _ => Reasoned) where
  close := by
    intro _ eventOptions now a h
    rwa [Reasoned, reasonMask_closeCollection]
  finish _ _ h := h
  later _ _ _ h := h
  keep _ _ _ _ h := h
  post := by
    intro _ snapshot _ _ _ a _ h
    rwa [Reasoned, reasonMask_appendPostFrame]
  attach := by
    intro _ a type peakDbm deltaDb h
    have hmask : (a.bundle.attachReason type peakDbm deltaDb).reasonMask =
        a.bundle.reasonMask ||| reasonBit type := by
      cases type <;> rfl
    rw [Reasoned] at h ⊢
    rw [hmask]
    rcases h with h | h | h <;> rw [h] <;> cases type <;> decide
  create := by
    intro calls snapshot observedAt fresh _ reasonMask deltaDb _ hroute
    have hroutes := routesOf_cases (run options calls).detector snapshot observedAt fresh
    obtain ⟨-, -, hreason, -⟩ := hroutes.create_mem hroute
    exact hreason

theorem sighting_nextBundleId (s : EventDetector) (snapshot : PublishedSnapshot)
    (observedAt : Nanoseconds) (fresh : Bool) :
    (s.sighting snapshot observedAt fresh).1.nextBundleId = s.nextBundleId := by
  by_cases hnew : (s.expire observedAt).isNew snapshot.generation = true
  · exact (sighting_of_new fresh hnew).2.1
  · rw [sighting, if_neg hnew]
    exact (s.expire_sameMemory observedAt).nextBundleId

theorem sighting_reasoned {s : EventDetector} (h : s.Each Reasoned) (snapshot : PublishedSnapshot)
    (observedAt : Nanoseconds) (fresh : Bool) :
    (s.sighting snapshot observedAt fresh).1.Each Reasoned := by
  have hexpire : (s.expire observedAt).Each Reasoned := (h.expire fun a ha => by
    rwa [Reasoned, reasonMask_closeCollection]).1
  by_cases hnew : (s.expire observedAt).isNew snapshot.generation = true
  · refine Each.of_active ?_ (sighting_of_new fresh hnew).1
    refine hexpire.appendPostFrame fun a ha => ?_
    rwa [Reasoned, reasonMask_appendPostFrame]
  · rw [sighting, if_neg hnew]
    exact hexpire

section Account

variable {r : Run}

/-- An observation keeps the books. -/
theorem Accounted.observe (h : Accounted r) (hreasoned : r.detector.Each Reasoned)
    (snapshot : PublishedSnapshot) (observedAt : Nanoseconds) (fresh : Bool)
    (observedAtUtc : Nanoseconds) :
    Accounted (r.perform (.observe snapshot observedAt fresh observedAtUtc)) := by
  have houtcome : Outcome _ _ snapshot observedAt observedAtUtc
      (r.detector.routed snapshot observedAt fresh observedAtUtc) _ :=
    outcome snapshot observedAt observedAtUtc (h.unique.sighting snapshot observedAt fresh)
      (sighting_reasoned hreasoned snapshot observedAt fresh)
      (routesOf_cases r.detector snapshot observedAt fresh)
  obtain ⟨hactive, hid⟩ := observe_routed r.detector snapshot observedAt fresh observedAtUtc
  obtain ⟨hcompleted, hdropped, hoptions⟩ :=
    observe_queue r.detector snapshot observedAt fresh observedAtUtc
  have htotal : ∀ f, (r.perform (.observe snapshot observedAt fresh observedAtUtc)).total f =
      (r.detector.routed snapshot observedAt fresh observedAtUtc).activeTotal f +
        ((r.emitted ++ r.detector.emissions observedAt).map fun a => f a.bundle).sum := by
    intro f
    rw [Run.total, activeTotal, activeTotal, ← hactive]
    rfl
  have hsighted : ∀ {f}, Fixed f → r.total f =
      (r.detector.sighting snapshot observedAt fresh).1.activeTotal f +
        ((r.emitted ++ r.detector.emissions observedAt).map fun a => f a.bundle).sum := by
    intro f hf
    rw [hf.sighting, Run.total, ← hf.expire observedAt, List.map_append, List.sum_append]
    omega
  refine ⟨?_, fun type => ?_, ?_, ?_, ?_, fun hlowered => ?_⟩
  · have hunique := houtcome.unique (h.unique.sighting snapshot observedAt fresh)
    intro type slot slot' a a' ha ha'
    rw [show (r.perform (.observe snapshot observedAt fresh observedAtUtc)).detector.active = _
      from hactive] at ha ha'
    exact hunique ha ha'
  · have htally := h.tally type
    rw [hsighted (countOf_fixed type), hsighted (saturated_fixed type)] at htally
    rw [htotal, htotal]
    exact Tally.outcome htally houtcome
  · show r.created + _ = _
    rw [h.created, htotal, hsighted ⟨fun _ _ => rfl, fun _ _ => rfl⟩]
    rw [houtcome.activeCount]
    omega
  · show (r.detector.observe snapshot observedAt fresh observedAtUtc).nextBundleId =
      UInt64.ofNat (r.created + _ + 1)
    rw [hid, houtcome.nextBundleId, sighting_nextBundleId, h.nextBundleId, ← UInt64.ofNat_add,
      Nat.add_right_comm]
  · have hqueue := h.queue
    have hexpire := settled_expire r.detector observedAt
    show (r.emitted ++ r.detector.emissions observedAt).length =
      (r.detector.observe snapshot observedAt fresh observedAtUtc).settled + r.taken.length
    rw [settled, hcompleted, hdropped, ← settled, hexpire, List.length_append]
    omega
  · have hfits := ((h.limit hlowered).expire observedAt).2
    rw [Fits, (r.detector.expire_sameMemory observedAt).options] at hfits
    show Fits (r.detector.observe snapshot observedAt fresh observedAtUtc)
    rwa [Fits, hcompleted, hoptions]

theorem Accounted.perform (h : Accounted r) (hreasoned : r.detector.Each Reasoned) (call : Call) :
    Accounted (r.perform call) := by
  cases call with
  | observe snapshot observedAt fresh observedAtUtc =>
    exact h.observe hreasoned snapshot observedAt fresh observedAtUtc
  | advance now =>
    have htotal : ∀ {f}, Fixed f → (r.perform (.advance now)).total f = r.total f := by
      intro f hf
      show (r.detector.expire now).activeTotal f +
        ((r.emitted ++ r.detector.emissions now).map fun a => f a.bundle).sum = _
      have hexpire := hf.expire (s := r.detector) now
      rw [Run.total, List.map_append, List.sum_append]
      omega
    refine ⟨?_, fun type => ?_, ?_, ?_, ?_, fun _ => Nat.zero_le _⟩
    · exact ((h.unique.expireSlot now 0).expireSlot now 1).mono fun _ a ha => ⟨a, ha, rfl⟩
    · rw [htotal (countOf_fixed type), htotal (saturated_fixed type)]
      exact h.tally type
    · rw [htotal ⟨fun _ _ => rfl, fun _ _ => rfl⟩]
      exact h.created
    · exact (r.detector.expire_sameMemory now).nextBundleId.trans h.nextBundleId
    · have hqueue := h.queue
      have hexpire := settled_expire r.detector now
      show (r.emitted ++ r.detector.emissions now).length =
        0 + (r.detector.expire now).droppedBundleCount +
          (r.taken ++ (r.detector.expire now).completed).length
      rw [List.length_append, List.length_append]
      simp only [settled] at hexpire hqueue
      omega
  | takeCompleted =>
    refine ⟨h.unique, h.tally, h.created, h.nextBundleId, ?_, fun _ => Nat.zero_le _⟩
    have hqueue := h.queue
    show r.emitted.length =
      0 + r.detector.droppedBundleCount + (r.taken ++ r.detector.completed).length
    rw [List.length_append]
    simp only [settled] at hqueue
    omega
  | updateOptions options =>
    refine ⟨h.unique, h.tally, h.created, h.nextBundleId, h.queue, fun hlowered => ?_⟩
    have hlower := hlowered
    rw [show (r.perform (.updateOptions options)).lowered = (r.lowered ||
      decide (options.maxPendingBundles < r.detector.options.maxPendingBundles)) from rfl,
      Bool.or_eq_false_iff, decide_eq_false_iff_not, Nat.not_lt] at hlower
    exact Nat.le_trans (h.limit hlower.1) hlower.2

theorem run_accounted (options : EventOptions) (calls : List Call) :
    Accounted (run options calls) := by
  induction calls using List.reverseRecOn with
  | nil =>
    refine ⟨?_, fun _ => .inl rfl, rfl, rfl, rfl, fun _ => Nat.zero_le _⟩
    intro _ _ _ _ _ ha
    cases ha
  | append_singleton calls call ih =>
    rw [run_append]
    exact ih.perform ((reasoned_lifecycle options).run calls).1 call

end Account

/-! ### No trigger is lost -/

def activeBundles (s : EventDetector) : List EventBundle :=
  slots.filterMap fun slot => (s.active slot).map ActiveBundle.bundle

/-- The bundles a run has created. -/
def Run.bundles (r : Run) : List EventBundle :=
  r.detector.activeBundles ++ r.emitted.map ActiveBundle.bundle

theorem Run.sum_bundles (r : Run) (f : EventBundle → ℕ) : (r.bundles.map f).sum = r.total f := by
  have hactive : (r.detector.activeBundles.map f).sum = r.detector.activeTotal f := by
    simp only [activeBundles, activeTotal, slots, List.filterMap_cons, List.filterMap_nil]
    cases r.detector.active 0 <;> cases r.detector.active 1 <;> simp [weight]
  rw [bundles, List.map_append, List.sum_append, hactive, List.map_map]
  rfl

/-- In every state a reason has one active bundle at most, so a bundle is created only
while a slot is free.  The counters of the bundles add up to the triggers unless one of
them has stopped, every bundle is active, waiting, taken or given up, and no bundle that
is handed over makes the queue longer than its limit. -/
theorem triggers_accounted (options : EventOptions) (calls : List Call) :
    Unique (run options calls).detector ∧
    (∀ snapshot observedAt fresh reasonMask deltaDb, .createBundle reasonMask deltaDb ∈
        (run options calls).detector.routesOf snapshot observedAt fresh →
      ((run options calls).detector.sighting snapshot observedAt fresh).1.freeSlot ≠ none) ∧
    (∀ type, (∀ bundle ∈ (run options calls).bundles,
        (bundle.stats type).triggerCount.toNat < 2 ^ 32 - 1) →
      (run options calls).raised type =
        ((run options calls).bundles.map fun bundle =>
          (bundle.stats type).triggerCount.toNat).sum) ∧
    (run options calls).created = (run options calls).bundles.length ∧
    (run options calls).created = (run options calls).detector.activeBundles.length +
      (run options calls).detector.completed.length + (run options calls).taken.length +
      (run options calls).detector.droppedBundleCount ∧
    ((run options calls).lowered = false → ∀ now,
      Fits (run options calls).detector ∧ Fits ((run options calls).detector.expireSlot now 0) ∧
        Fits ((run options calls).detector.expire now)) := by
  have haccount := run_accounted options calls
  have hreasoned := ((reasoned_lifecycle options).run calls).1
  generalize run options calls = r at haccount hreasoned ⊢
  have hcreated : r.created = r.bundles.length := by
    rw [haccount.created, ← r.sum_bundles, List.map_const', List.sum_replicate_nat, Nat.mul_one]
  refine ⟨haccount.unique, ?_, ?_, hcreated, ?_, ?_⟩
  · intro snapshot observedAt fresh reasonMask deltaDb hcreate
    exact (routesOf_cases r.detector snapshot observedAt fresh).freeSlot
      (haccount.unique.sighting snapshot observedAt fresh)
      (sighting_reasoned hreasoned snapshot observedAt fresh) hcreate
  · intro type hrunning
    have hnone : r.total (saturated type) = 0 := by
      rw [← r.sum_bundles, List.sum_eq_zero_iff_forall_eq_nat]
      intro n hn
      obtain ⟨bundle, hbundle, rfl⟩ := List.mem_map.mp hn
      exact if_neg (Nat.ne_of_lt (hrunning bundle hbundle))
    rcases haccount.tally type with htally | hfull
    · rw [htally, ← r.sum_bundles]
      rfl
    · omega
  · rw [hcreated, Run.bundles, List.length_append, List.length_map, haccount.queue, settled]
    omega
  · intro hlowered now
    have hfits := haccount.limit hlowered
    exact ⟨hfits, (hfits.expire now).1, (hfits.expire now).2⟩

end EventDetector

end Uhf.Storage
