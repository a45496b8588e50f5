/-
The event detector (`storage/event_detector`).

A strong discharge is a valid peak at or over a threshold, a sudden change one that
differs enough from the valid peak before.  At most two bundles are active at once.  A
trigger joins the active bundle of its reason or starts a new one; an active bundle
collects the next three generations and is handed over when its merge window ends.

* `EventDetector.observe_eq` — an observation, stage by stage;
* `EventDetector.Run` — a run of calls, with what it has raised, created and handed over.
-/
import Mathlib.Algebra.Order.Ring.Nat
import UhfGateway.Storage.EventFile

namespace Uhf.Storage

open Domain Acquisition

inductive EventType
  | strongDischarge
  | suddenChange
  deriving DecidableEq, Repr

/-- There are two reasons. -/
theorem EventType.both {P : EventType → Prop} (strong : P .strongDischarge)
    (sudden : P .suddenChange) (type : EventType) : P type := by
  cases type with
  | strongDischarge => exact strong
  | suddenChange => exact sudden

def seconds (n : Int) : Nanoseconds := n * 1000000000

structure EventOptions where
  strongTriggerDbm : Int32 := -45
  strongRearmDbm : Int32 := -50
  suddenDeltaDb : Int32 := 10
  postCollectionTimeout : Nanoseconds := seconds 30
  mergeWindow : Nanoseconds := seconds 60
  maxPendingBundles : ℕ := 8

structure ActiveBundle where
  bundle : EventBundle
  postFrames : ℕ := 0
  collectionClosed : Bool := false

/-- One of the two places for active bundles. -/
abbrev Slot := Fin 2

structure EventDetector where
  options : EventOptions := {}
  strongArmed : Bool := true
  previousValidPeak : Option Int32 := none
  lastGeneration : Option UInt64 := none
  nextBundleId : UInt64 := 1
  history : List PublishedSnapshot := []
  active : Slot → Option ActiveBundle := fun _ => none
  completed : List EventBundle := []
  droppedBundleCount : ℕ := 0

def kPostFrameCount : ℕ := 3
def kHistoryFrameCount : ℕ := 2

def reasonBit : EventType → UInt8
  | .strongDischarge => kStrongReason
  | .suddenChange => kSuddenReason

def EventBundle.hasReason (bundle : EventBundle) (type : EventType) : Bool :=
  bundle.reasonMask &&& reasonBit type ≠ 0

def hasGeneration (frames : List PublishedSnapshot) (generation : UInt64) : Bool :=
  frames.any fun frame => frame.generation = generation

/-! ### One bundle -/

/-- Another trigger in the statistics of its reason; the count stops at its largest value. -/
def EventReasonStats.updateStats (stats : EventReasonStats) (peakDbm deltaDb : Int32) :
    EventReasonStats where
  triggerCount :=
    if stats.triggerCount.toNat < 2 ^ 32 - 1 then stats.triggerCount + 1 else stats.triggerCount
  maxPeakDbm :=
    if stats.triggerCount = 0 ∨ stats.maxPeakDbm < peakDbm then peakDbm else stats.maxPeakDbm
  maxDeltaDb := if stats.maxDeltaDb < deltaDb then deltaDb else stats.maxDeltaDb

/-- The statistics of one reason. -/
def EventBundle.stats (bundle : EventBundle) : EventType → EventReasonStats
  | .strongDischarge => bundle.strong
  | .suddenChange => bundle.sudden

def EventBundle.attachReason (bundle : EventBundle) (type : EventType) (peakDbm deltaDb : Int32) :
    EventBundle :=
  let bundle := { bundle with reasonMask := bundle.reasonMask ||| reasonBit type }
  match type with
  | .strongDischarge => { bundle with strong := bundle.strong.updateStats peakDbm 0 }
  | .suddenChange => { bundle with sudden := bundle.sudden.updateStats peakDbm deltaDb }

theorem reasonBit_and (type type' : EventType) :
    reasonBit type &&& reasonBit type' ≠ 0 ↔ type = type' := by
  cases type <;> cases type' <;> decide

theorem mask_or_and (mask bit bit' : UInt8) :
    (mask ||| bit) &&& bit' = mask &&& bit' ||| bit &&& bit' := by
  rw [← UInt8.toBitVec_inj]
  exact BitVec.and_or_distrib_right

theorem EventBundle.hasReason_attachReason (bundle : EventBundle) (type type' : EventType)
    (peakDbm deltaDb : Int32) :
    (bundle.attachReason type peakDbm deltaDb).hasReason type' = true ↔
      type = type' ∨ bundle.hasReason type' = true := by
  have hmask : (bundle.attachReason type peakDbm deltaDb).reasonMask =
      bundle.reasonMask ||| reasonBit type := by
    cases type <;> rfl
  rw [hasReason, hmask, mask_or_and, decide_eq_true_eq, ne_eq, UInt8.or_eq_zero_iff, not_and_or,
    or_comm, ← ne_eq, reasonBit_and, hasReason, decide_eq_true_eq]

/-- The bundle `create_bundle` starts with. -/
def newBundle (id : UInt64) (history : List PublishedSnapshot) (reasonMask : UInt8)
    (snapshot : PublishedSnapshot) (observedAt observedAtUtc : Nanoseconds)
    (peakDbm deltaDb : Int32) : EventBundle where
  id := id
  firstTriggeredAt := observedAt
  firstTriggeredAtUtc := observedAtUtc
  reasonMask := reasonMask
  frames := history ++ [snapshot]
  strong := if reasonMask &&& kStrongReason ≠ 0 then ⟨1, peakDbm, 0⟩ else {}
  sudden := if reasonMask &&& kSuddenReason ≠ 0 then ⟨1, peakDbm, deltaDb⟩ else {}

namespace ActiveBundle

def appendPostFrame (active : ActiveBundle) (snapshot : PublishedSnapshot) : ActiveBundle :=
  if active.collectionClosed || hasGeneration active.bundle.frames snapshot.generation then active
  else
    { active with
      bundle := { active.bundle with frames := active.bundle.frames ++ [snapshot] }
      postFrames := active.postFrames + 1
      collectionClosed := decide (kPostFrameCount ≤ active.postFrames + 1) }

/-- The end of the collection, if it is due. -/
def closeCollection (active : ActiveBundle) (options : EventOptions) (now : Nanoseconds) :
    ActiveBundle :=
  if !active.collectionClosed &&
      active.bundle.firstTriggeredAt + options.postCollectionTimeout ≤ now then
    { active with
      collectionClosed := true
      bundle := { active.bundle with isPartial := decide (active.postFrames < kPostFrameCount) } }
  else active

/-- The merge window of the bundle is over. -/
def merged (active : ActiveBundle) (options : EventOptions) (now : Nanoseconds) : Bool :=
  active.bundle.firstTriggeredAt + options.mergeWindow ≤ now

end ActiveBundle

namespace EventDetector

variable (s : EventDetector)

/-! ### Completed bundles -/

def enqueue (bundle : EventBundle) : EventDetector :=
  if s.options.maxPendingBundles = 0 then
    { s with droppedBundleCount := s.droppedBundleCount + 1 }
  else if s.options.maxPendingBundles ≤ s.completed.length then
    { s with
      completed := s.completed.tail ++ [bundle]
      droppedBundleCount := s.droppedBundleCount + 1 }
  else { s with completed := s.completed ++ [bundle] }

def setActive (slot : Slot) (active : Option ActiveBundle) : EventDetector :=
  { s with active := Function.update s.active slot active }

/-- The loop body of `expire`. -/
def expireSlot (now : Nanoseconds) (slot : Slot) : EventDetector :=
  match s.active slot with
  | none => s
  | some active =>
    let active := active.closeCollection s.options now
    if active.merged s.options now then (s.enqueue active.bundle).setActive slot none
    else s.setActive slot (some active)

def expire (now : Nanoseconds) : EventDetector := (s.expireSlot now 0).expireSlot now 1

/-! ### Triggers -/

/-- What an observation has found: the peak, the difference and the reasons. -/
structure Trigger where
  peakDbm : Int32 := 0
  deltaDb : Int32 := 0
  mask : UInt8 := 0

def validPeak (snapshot : PublishedSnapshot) (fresh : Bool) : Bool :=
  fresh && snapshot.payload.payloadStatus ≠ .notRefreshed &&
    (snapshot.payload.measurements.get 2).valid

/-- The third measurement, with its validity. -/
def peakMeasurement (snapshot : PublishedSnapshot) : Measurement :=
  snapshot.payload.measurements.get 2

/-- The third measurement of a snapshot. -/
def peakOf (snapshot : PublishedSnapshot) : Int32 :=
  Int32.ofInt (snapshot.payload.measurements.get 2).value

/-- The distance to the valid peak before, if it is enough for a sudden change. -/
def suddenDelta (peakDbm : Int32) : Option Int32 :=
  match s.previousValidPeak with
  | none => none
  | some previous =>
    let difference : Int := peakDbm.toInt - previous.toInt
    let absoluteDifference := if difference < 0 then -difference else difference
    if s.options.suddenDeltaDb.toInt ≤ absoluteDifference then
      some (Int32.ofInt absoluteDifference)
    else none

/-- The part of `observe` between the post frame and the bundles. -/
def detect (snapshot : PublishedSnapshot) (fresh : Bool) : EventDetector × Trigger :=
  if validPeak snapshot fresh then
    let peakDbm := peakOf snapshot
    let armed := if !s.strongArmed && peakDbm < s.options.strongRearmDbm then true else s.strongArmed
    let strong := armed && decide (s.options.strongTriggerDbm ≤ peakDbm)
    let sudden := s.suddenDelta peakDbm
    ({ s with
        strongArmed := if strong then false else armed
        previousValidPeak := some peakDbm },
      { peakDbm := peakDbm
        deltaDb := sudden.getD 0
        mask := (if strong then kStrongReason else 0) ||| if sudden.isSome then kSuddenReason else 0 })
  else (s, {})

/-- The slots in the order of the loops. -/
def slots : List Slot := [0, 1]

def findActive (type : EventType) : Option Slot :=
  slots.find? fun slot =>
    match s.active slot with
    | none => false
    | some active => active.bundle.hasReason type

/-- What is done about a trigger. -/
inductive Route
  | attachReason (slot : Slot) (type : EventType) (deltaDb : Int32)
  | createBundle (reasonMask : UInt8) (deltaDb : Int32)
  deriving DecidableEq

/-- The calls the branches of `observe` make; the slots are looked up before the first. -/
def routes (trigger : Trigger) : List Route :=
  if trigger.mask &&& kStrongReason ≠ 0 ∧ trigger.mask &&& kSuddenReason ≠ 0 then
    match s.findActive .strongDischarge, s.findActive .suddenChange with
    | some strongSlot, some suddenSlot =>
      if strongSlot ≠ suddenSlot then
        [.attachReason strongSlot .strongDischarge trigger.deltaDb,
          .attachReason suddenSlot .suddenChange trigger.deltaDb]
      else
        [.attachReason strongSlot .strongDischarge 0,
          .attachReason strongSlot .suddenChange trigger.deltaDb]
    | some strongSlot, none =>
      [.attachReason strongSlot .strongDischarge 0,
        .attachReason strongSlot .suddenChange trigger.deltaDb]
    | none, some suddenSlot =>
      [.attachReason suddenSlot .suddenChange trigger.deltaDb,
        .attachReason suddenSlot .strongDischarge 0]
    | none, none => [.createBundle trigger.mask trigger.deltaDb]
  else if trigger.mask &&& kStrongReason ≠ 0 then
    match s.findActive .strongDischarge with
    | some slot => [.attachReason slot .strongDischarge 0]
    | none => [.createBundle kStrongReason 0]
  else if trigger.mask &&& kSuddenReason ≠ 0 then
    match s.findActive .suddenChange with
    | some slot => [.attachReason slot .suddenChange trigger.deltaDb]
    | none => [.createBundle kSuddenReason trigger.deltaDb]
  else []

/-- The first free slot. -/
def freeSlot : Option Slot := slots.find? fun slot => (s.active slot).isNone

/-- With no free slot the bundle is given up. -/
def createBundle (reasonMask : UInt8) (snapshot : PublishedSnapshot)
    (observedAt observedAtUtc : Nanoseconds) (peakDbm deltaDb : Int32) :
    EventDetector × Option Slot :=
  match s.freeSlot with
  | none => (s, none)
  | some slot =>
    let bundle := newBundle s.nextBundleId s.history reasonMask snapshot observedAt observedAtUtc
      peakDbm deltaDb
    ({ s.setActive slot (some { bundle := bundle }) with nextBundleId := s.nextBundleId + 1 },
      some slot)

def follow (trigger : Trigger) (snapshot : PublishedSnapshot)
    (observedAt observedAtUtc : Nanoseconds) : Route → EventDetector
  | .attachReason slot type deltaDb =>
    match s.active slot with
    | none => s
    | some active =>
      s.setActive slot
        (some { active with bundle := active.bundle.attachReason type trigger.peakDbm deltaDb })
  | .createBundle reasonMask deltaDb =>
    (s.createBundle reasonMask snapshot observedAt observedAtUtc trigger.peakDbm deltaDb).1

/-! ### The calls -/

def isNew (generation : UInt64) : Bool :=
  generation ≠ 0 && s.lastGeneration.all (· < generation)

def appendPostFrame (snapshot : PublishedSnapshot) : EventDetector :=
  { s with active := fun slot => (s.active slot).map (·.appendPostFrame snapshot) }

/-- The last frames are kept for the next bundle. -/
def remember (snapshot : PublishedSnapshot) : EventDetector :=
  { s with
    history := (s.history ++ [snapshot]).drop ((s.history ++ [snapshot]).length - kHistoryFrameCount)
    lastGeneration := some snapshot.generation }

def observe (snapshot : PublishedSnapshot) (observedAt : Nanoseconds) (fresh : Bool)
    (observedAtUtc : Nanoseconds) : EventDetector :=
  let s := s.expire observedAt
  if !s.isNew snapshot.generation then s
  else
    let (s, trigger) := (s.appendPostFrame snapshot).detect snapshot fresh
    let s := (s.routes trigger).foldl
      (fun s route => s.follow trigger snapshot observedAt observedAtUtc route) s
    s.remember snapshot

def takeCompleted : EventDetector × List EventBundle := ({ s with completed := [] }, s.completed)

def advance (now : Nanoseconds) : EventDetector × List EventBundle := (s.expire now).takeCompleted

def updateOptions (options : EventOptions) : EventDetector := { s with options := options }

/-! ### Runs -/

inductive Call
  | observe (snapshot : PublishedSnapshot) (observedAt : Nanoseconds) (fresh : Bool)
      (observedAtUtc : Nanoseconds)
  | advance (now : Nanoseconds)
  | takeCompleted
  | updateOptions (options : EventOptions)

/-- The bundle `expire` hands over from a slot, with its counter of frames. -/
def emission (now : Nanoseconds) (slot : Slot) : Option ActiveBundle :=
  match s.active slot with
  | none => none
  | some active =>
    let active := active.closeCollection s.options now
    if active.merged s.options now then some active else none

def emissions (now : Nanoseconds) : List ActiveBundle :=
  (s.emission now 0).toList ++ ((s.expireSlot now 0).emission now 1).toList

/-- The state and the trigger from which an observation goes on to the bundles. -/
def sighting (snapshot : PublishedSnapshot) (observedAt : Nanoseconds) (fresh : Bool) :
    EventDetector × Trigger :=
  if (s.expire observedAt).isNew snapshot.generation then
    ((s.expire observedAt).appendPostFrame snapshot).detect snapshot fresh
  else (s.expire observedAt, {})

/-- An observation raises a reason. -/
def raises (snapshot : PublishedSnapshot) (observedAt : Nanoseconds) (fresh : Bool)
    (type : EventType) : Bool :=
  (s.sighting snapshot observedAt fresh).2.mask &&& reasonBit type ≠ 0

/-- The calls of an observation about its trigger. -/
def routesOf (snapshot : PublishedSnapshot) (observedAt : Nanoseconds) (fresh : Bool) : List Route :=
  (s.sighting snapshot observedAt fresh).1.routes (s.sighting snapshot observedAt fresh).2

def Route.isCreate : Route → Bool
  | .attachReason .. => false
  | .createBundle .. => true

/-- An observation, from where the trigger is known. -/
theorem observe_eq (snapshot : PublishedSnapshot) (observedAt : Nanoseconds) (fresh : Bool)
    (observedAtUtc : Nanoseconds) :
    s.observe snapshot observedAt fresh observedAtUtc =
      if (s.expire observedAt).isNew snapshot.generation then
        ((s.routesOf snapshot observedAt fresh).foldl (fun s' route =>
          s'.follow (s.sighting snapshot observedAt fresh).2 snapshot observedAt observedAtUtc route)
          (s.sighting snapshot observedAt fresh).1).remember snapshot
      else s.expire observedAt := by
  rw [observe, routesOf, sighting]
  by_cases hnew : (s.expire observedAt).isNew snapshot.generation
  · rw [if_pos hnew, if_pos hnew]
    simp only [hnew, Bool.not_true, Bool.false_eq_true, if_false]
  · rw [if_neg hnew]
    simp only [Bool.not_eq_true] at hnew
    simp only [hnew, Bool.not_false, if_true]

/-! ### What the stages leave alone -/

section Frame

variable {s} {now observedAt observedAtUtc : Nanoseconds} {slot other : Slot}

@[simp] theorem setActive_self (active : Option ActiveBundle) :
    (s.setActive slot active).active slot = active := Function.update_self ..

theorem setActive_of_ne (active : Option ActiveBundle) (h : other ≠ slot) :
    (s.setActive slot active).active other = s.active other := Function.update_of_ne h ..

/-- Everything but the bundles is the same. -/
structure SameMemory (s s' : EventDetector) : Prop where
  options : s'.options = s.options
  strongArmed : s'.strongArmed = s.strongArmed
  previousValidPeak : s'.previousValidPeak = s.previousValidPeak
  lastGeneration : s'.lastGeneration = s.lastGeneration
  nextBundleId : s'.nextBundleId = s.nextBundleId
  history : s'.history = s.history

theorem SameMemory.trans {s s' s'' : EventDetector} (h : SameMemory s s')
    (h' : SameMemory s' s'') : SameMemory s s'' :=
  ⟨h'.options.trans h.options, h'.strongArmed.trans h.strongArmed,
    h'.previousValidPeak.trans h.previousValidPeak, h'.lastGeneration.trans h.lastGeneration,
    h'.nextBundleId.trans h.nextBundleId, h'.history.trans h.history⟩

theorem enqueue_active (bundle : EventBundle) : (s.enqueue bundle).active = s.active := by
  rw [enqueue]
  split_ifs <;> rfl

theorem enqueue_sameMemory (bundle : EventBundle) : SameMemory s (s.enqueue bundle) := by
  rw [enqueue]
  split_ifs <;> exact ⟨rfl, rfl, rfl, rfl, rfl, rfl⟩

theorem setActive_sameMemory (active : Option ActiveBundle) :
    SameMemory s (s.setActive slot active) := ⟨rfl, rfl, rfl, rfl, rfl, rfl⟩

/-- What `expire` does to a slot: nothing, the collection is closed, or the bundle is
handed over. -/
inductive ExpireSlot (s : EventDetector) (now : Nanoseconds) (slot : Slot) :
    EventDetector → Option ActiveBundle → Prop
  | free (h : s.active slot = none) : ExpireSlot s now slot s none
  | kept {active} (h : s.active slot = some active)
      (hopen : (active.closeCollection s.options now).merged s.options now = false) :
      ExpireSlot s now slot (s.setActive slot (some (active.closeCollection s.options now))) none
  | handed {active} (h : s.active slot = some active)
      (hover : (active.closeCollection s.options now).merged s.options now = true) :
      ExpireSlot s now slot
        ((s.enqueue (active.closeCollection s.options now).bundle).setActive slot none)
        (some (active.closeCollection s.options now))

theorem expireSlot_cases (s : EventDetector) (now : Nanoseconds) (slot : Slot) :
    ExpireSlot s now slot (s.expireSlot now slot) (s.emission now slot) := by
  rw [expireSlot, emission]
  cases h : s.active slot with
  | none => exact .free h
  | some active =>
    simp only
    split_ifs with hover
    · exact .handed h hover
    · exact .kept h (Bool.eq_false_iff.mpr hover)

theorem ExpireSlot.sameMemory {s' : EventDetector} {emitted : Option ActiveBundle}
    (h : ExpireSlot s now slot s' emitted) : SameMemory s s' := by
  cases h with
  | free _ => exact ⟨rfl, rfl, rfl, rfl, rfl, rfl⟩
  | kept _ _ => exact setActive_sameMemory _
  | handed _ _ => exact (enqueue_sameMemory _).trans (setActive_sameMemory _)

/-- The other slot is left as it is. -/
theorem ExpireSlot.active_of_ne {s' : EventDetector} {emitted : Option ActiveBundle}
    (h : ExpireSlot s now slot s' emitted) (hne : other ≠ slot) :
    s'.active other = s.active other := by
  cases h with
  | free _ => rfl
  | kept _ _ => exact setActive_of_ne _ hne
  | handed _ _ => rw [setActive_of_ne _ hne, enqueue_active]

theorem expire_sameMemory (s : EventDetector) (now : Nanoseconds) : SameMemory s (s.expire now) :=
  (expireSlot_cases s now 0).sameMemory.trans (expireSlot_cases _ now 1).sameMemory

/-- Each slot is looked at as it was before. -/
theorem emissions_eq : s.emissions now = (s.emission now 0).toList ++ (s.emission now 1).toList := by
  have hfirst := expireSlot_cases s now 0
  rw [emissions, emission, emission, emission, hfirst.active_of_ne (by decide),
    hfirst.sameMemory.options]

theorem appendPostFrame_sameMemory (snapshot : PublishedSnapshot) :
    SameMemory s (s.appendPostFrame snapshot) := ⟨rfl, rfl, rfl, rfl, rfl, rfl⟩

/-! ### Where a trigger goes -/

theorem mem_slots (slot : Slot) : slot ∈ slots := by
  revert slot
  decide

theorem findActive_eq_some {type : EventType} (h : s.findActive type = some slot) :
    ∃ active, s.active slot = some active ∧ active.bundle.hasReason type = true := by
  have hslot := List.find?_some h
  cases hactive : s.active slot with
  | none => simp only [hactive, Bool.false_eq_true] at hslot
  | some active =>
    simp only [hactive] at hslot
    exact ⟨active, rfl, hslot⟩

theorem findActive_eq_none {type : EventType} (h : s.findActive type = none) {active : ActiveBundle}
    (hactive : s.active slot = some active) : active.bundle.hasReason type = false := by
  have hslot := List.find?_eq_none.mp h slot (mem_slots slot)
  simpa only [hactive, Bool.not_eq_true] using hslot

theorem freeSlot_eq_some (h : s.freeSlot = some slot) : s.active slot = none :=
  Option.isNone_iff_eq_none.mp (List.find?_some (p := fun slot => (s.active slot).isNone) h)

theorem freeSlot_eq_none (h : s.freeSlot = none) (slot : Slot) :
    ∃ active, s.active slot = some active := by
  have hslot := List.find?_eq_none.mp h slot (mem_slots slot)
  rwa [Bool.not_eq_true, Option.isNone_eq_false_iff, Option.isSome_iff_exists] at hslot

def Trigger.raises (trigger : Trigger) (type : EventType) : Bool :=
  trigger.mask &&& reasonBit type ≠ 0

/-- The branches of `observe`, by what they look up.  A second reason goes to the slot of
its own bundle or, if it has none, joins the first. -/
inductive Routing (s : EventDetector) (trigger : Trigger) : List Route → Prop
  | quiet (hnone : ∀ type, trigger.raises type = false) : Routing s trigger []
  | create {reasonMask deltaDb}
      (hbits : ∀ type, trigger.raises type = decide (reasonMask &&& reasonBit type ≠ 0))
      (hfree : ∀ type, trigger.raises type = true → s.findActive type = none)
      (hreason : reasonMask = 1 ∨ reasonMask = 2 ∨ reasonMask = 3)
      (hdelta : trigger.raises .suddenChange = true → deltaDb = trigger.deltaDb) :
      Routing s trigger [.createBundle reasonMask deltaDb]
  | one {slot type deltaDb} (hbits : ∀ type', trigger.raises type' = decide (type' = type))
      (hslot : s.findActive type = some slot) : Routing s trigger [.attachReason slot type deltaDb]
  | two {slot slot' type type' deltaDb deltaDb'} (hbits : ∀ type, trigger.raises type = true)
      (hne : type ≠ type') (hslot : s.findActive type = some slot)
      (hslot' : s.findActive type' = some slot' ∨ s.findActive type' = none ∧ slot' = slot) :
      Routing s trigger [.attachReason slot type deltaDb, .attachReason slot' type' deltaDb']

/-- A bundle that is created: it has the reasons raised, none of which has a bundle. -/
theorem Routing.create_mem {trigger : Trigger} {routes : List Route}
    (h : Routing s trigger routes) {reasonMask : UInt8} {deltaDb : Int32}
    (hcreate : .createBundle reasonMask deltaDb ∈ routes) :
    (∀ type, trigger.raises type = decide (reasonMask &&& reasonBit type ≠ 0)) ∧
      (∀ type, trigger.raises type = true → s.findActive type = none) ∧
      (reasonMask = 1 ∨ reasonMask = 2 ∨ reasonMask = 3) ∧
      (trigger.raises .suddenChange = true → deltaDb = trigger.deltaDb) := by
  cases h with
  | quiet _ => cases hcreate
  | create hbits hfree hreason hdelta =>
    simp only [List.mem_singleton, Route.createBundle.injEq] at hcreate
    obtain ⟨rfl, rfl⟩ := hcreate
    exact ⟨hbits, hfree, hreason, hdelta⟩
  | one _ _ => simp at hcreate
  | two _ _ _ _ => simp at hcreate

theorem Routing.countP_isCreate_le {trigger : Trigger} {routes : List Route}
    (h : Routing s trigger routes) : routes.countP Route.isCreate ≤ 1 := by
  cases h with
  | quiet _ => exact Nat.zero_le 1
  | create _ _ _ _ => exact Nat.le_refl 1
  | one _ _ => exact Nat.zero_le 1
  | two _ _ _ _ => exact Nat.zero_le 1

/-- A trigger has no other reasons than the two. -/
def Trigger.Known (trigger : Trigger) : Prop :=
  trigger.mask = 0 ∨ trigger.mask = 1 ∨ trigger.mask = 2 ∨ trigger.mask = 3

theorem Trigger.Known.of_both {trigger : Trigger} (h : trigger.Known)
    (hstrong : trigger.raises .strongDischarge = true)
    (hsudden : trigger.raises .suddenChange = true) : trigger.mask = 3 := by
  rw [raises, decide_eq_true_eq] at hstrong hsudden
  rcases h with hmask | hmask | hmask | hmask
  · exact absurd (show trigger.mask &&& 1 = 0 by rw [hmask]; decide) hstrong
  · exact absurd (show trigger.mask &&& 2 = 0 by rw [hmask]; decide) hsudden
  · exact absurd (show trigger.mask &&& 1 = 0 by rw [hmask]; decide) hstrong
  · exact hmask

theorem routes_cases (s : EventDetector) {trigger : Trigger} (h : trigger.Known) :
    Routing s trigger (s.routes trigger) := by
  have hne : EventType.strongDischarge ≠ .suddenChange := by decide
  have hraises : ∀ type, trigger.raises type = decide (trigger.mask &&& reasonBit type ≠ 0) :=
    fun _ => rfl
  rw [routes]
  by_cases hstrong : trigger.mask &&& kStrongReason ≠ 0
  · have hbit : trigger.raises .strongDischarge = true := decide_eq_true hstrong
    by_cases hsudden : trigger.mask &&& kSuddenReason ≠ 0
    · have hbit' : trigger.raises .suddenChange = true := decide_eq_true hsudden
      have hboth : ∀ type, trigger.raises type = true := EventType.both hbit hbit'
      rw [if_pos ⟨hstrong, hsudden⟩]
      cases hstrongSlot : s.findActive .strongDischarge with
      | some strongSlot =>
        cases hsuddenSlot : s.findActive .suddenChange with
        | some suddenSlot =>
          simp only
          split_ifs with hslots
          · exact .two hboth hne hstrongSlot (.inl hsuddenSlot)
          · obtain rfl := not_not.mp hslots
            exact .two hboth hne hstrongSlot (.inl hsuddenSlot)
        | none => exact .two hboth hne hstrongSlot (.inr ⟨hsuddenSlot, rfl⟩)
      | none =>
        cases hsuddenSlot : s.findActive .suddenChange with
        | some suddenSlot => exact .two hboth hne.symm hsuddenSlot (.inr ⟨hstrongSlot, rfl⟩)
        | none =>
          exact .create hraises
            (EventType.both (fun _ => hstrongSlot) (fun _ => hsuddenSlot))
            (.inr (.inr (h.of_both hbit hbit'))) (fun _ => rfl)
    · have hbit' : trigger.raises .suddenChange = false := decide_eq_false hsudden
      have hbits : ∀ type, trigger.raises type = decide (type = .strongDischarge) :=
        EventType.both hbit hbit'
      rw [if_neg (fun hboth => hsudden hboth.2), if_pos hstrong]
      cases hslot : s.findActive .strongDischarge with
      | some slot => exact .one hbits hslot
      | none =>
        have hquiet : trigger.raises .suddenChange ≠ true := by
          rw [hbit']
          exact Bool.false_ne_true
        exact .create (EventType.both hbit hbit')
          (EventType.both (fun _ => hslot) (fun hraised => absurd hraised hquiet)) (.inl rfl)
          (fun hraised => absurd hraised hquiet)
  · have hbit : trigger.raises .strongDischarge = false := decide_eq_false hstrong
    rw [if_neg (fun hboth => hstrong hboth.1), if_neg hstrong]
    by_cases hsudden : trigger.mask &&& kSuddenReason ≠ 0
    · have hbit' : trigger.raises .suddenChange = true := decide_eq_true hsudden
      have hbits : ∀ type, trigger.raises type = decide (type = .suddenChange) :=
        EventType.both hbit hbit'
      rw [if_pos hsudden]
      cases hslot : s.findActive .suddenChange with
      | some slot => exact .one hbits hslot
      | none =>
        have hquiet : trigger.raises .strongDischarge ≠ true := by
          rw [hbit]
          exact Bool.false_ne_true
        exact .create (EventType.both hbit hbit')
          (EventType.both (fun hraised => absurd hraised hquiet) (fun _ => hslot)) (.inr (.inl rfl))
          (fun _ => rfl)
    · rw [if_neg hsudden]
      exact .quiet (EventType.both hbit (decide_eq_false hsudden))

/-! ### A property of every active bundle -/

/-- Every active bundle has a property. -/
def Each (s : EventDetector) (Q : ActiveBundle → Prop) : Prop :=
  ∀ ⦃slot active⦄, s.active slot = some active → Q active

variable {Q Q' : ActiveBundle → Prop} {snapshot : PublishedSnapshot} {fresh : Bool}

theorem Each.setActive (h : s.Each Q) {active : Option ActiveBundle}
    (hactive : ∀ a, active = some a → Q a) : (s.setActive slot active).Each Q := by
  intro other a ha
  by_cases hother : other = slot
  · subst hother
    rw [setActive_self] at ha
    exact hactive a ha
  · rw [setActive_of_ne _ hother] at ha
    exact h ha

theorem Each.of_active {s s' : EventDetector} (h : s.Each Q) (hactive : s'.active = s.active) :
    s'.Each Q := by
  intro slot a ha
  rw [hactive] at ha
  exact h ha

theorem Each.expireSlot {s' : EventDetector} {emitted : Option ActiveBundle} (h : s.Each Q)
    (hclose : ∀ a, Q a → Q (a.closeCollection s.options now))
    (hslot : ExpireSlot s now slot s' emitted) : s'.Each Q ∧ ∀ a, emitted = some a → Q a := by
  cases hslot with
  | free _ => exact ⟨h, fun _ ha => nomatch ha⟩
  | @kept active hactive _ =>
    refine ⟨h.setActive ?_, fun _ ha => nomatch ha⟩
    rintro _ ⟨⟩
    exact hclose _ (h hactive)
  | @handed active hactive _ =>
    refine ⟨(h.of_active (enqueue_active _)).setActive (fun _ ha => nomatch ha), ?_⟩
    rintro _ ⟨⟩
    exact hclose _ (h hactive)

/-- What closing the collection keeps holds after `expire`, and of what was handed over. -/
theorem Each.expire (h : s.Each Q) (hclose : ∀ a, Q a → Q (a.closeCollection s.options now)) :
    (s.expire now).Each Q ∧ ∀ a ∈ s.emissions now, Q a := by
  have hcases := expireSlot_cases s now 0
  obtain ⟨hfirst, hemitted⟩ := h.expireSlot hclose hcases
  rw [← hcases.sameMemory.options] at hclose
  obtain ⟨hsecond, hemitted'⟩ := hfirst.expireSlot hclose (expireSlot_cases _ now 1)
  refine ⟨hsecond, fun a ha => ?_⟩
  rcases List.mem_append.mp ha with ha | ha
  · exact hemitted a (Option.mem_toList.mp ha)
  · exact hemitted' a (Option.mem_toList.mp ha)

theorem Each.appendPostFrame (h : s.Each Q) (hpost : ∀ a, Q a → Q' (a.appendPostFrame snapshot)) :
    (s.appendPostFrame snapshot).Each Q' := by
  intro slot a ha
  obtain ⟨active, hactive, rfl⟩ := Option.map_eq_some_iff.mp ha
  exact hpost _ (h hactive)

theorem detect_active : (s.detect snapshot fresh).1.active = s.active := by
  rw [detect]
  split_ifs <;> rfl

theorem detect_known : (s.detect snapshot fresh).2.Known := by
  rw [detect]
  split_ifs with hvalid
  · simp only [Trigger.Known]
    split_ifs <;> decide
  · exact .inl rfl

theorem Each.attach (h : s.Each Q) (trigger : Trigger) (snapshot : PublishedSnapshot)
    (observedAt observedAtUtc : Nanoseconds) (slot : Slot) (type : EventType) (deltaDb : Int32)
    (hattach : ∀ a type peakDbm deltaDb, Q a →
      Q { a with bundle := a.bundle.attachReason type peakDbm deltaDb }) :
    (s.follow trigger snapshot observedAt observedAtUtc (.attachReason slot type deltaDb)).Each Q := by
  rw [follow]
  cases hslot : s.active slot with
  | none => exact h
  | some active =>
    refine h.setActive ?_
    rintro _ ⟨⟩
    exact hattach _ _ _ _ (h hslot)

theorem Each.create (h : s.Each Q) (trigger : Trigger) {reasonMask : UInt8} {deltaDb : Int32}
    (hnew : Q ⟨newBundle s.nextBundleId s.history reasonMask snapshot observedAt observedAtUtc
      trigger.peakDbm deltaDb, 0, false⟩) :
    (s.follow trigger snapshot observedAt observedAtUtc
      (.createBundle reasonMask deltaDb)).Each Q := by
  rw [follow, createBundle]
  cases s.freeSlot with
  | none => exact h
  | some slot =>
    have hset : (s.setActive slot (some ⟨_, 0, false⟩)).Each Q := h.setActive (by
      rintro _ ⟨⟩
      exact hnew)
    exact hset.of_active rfl

/-- `detect` moves the arming and the peak only. -/
theorem detect_eq (s : EventDetector) (snapshot : PublishedSnapshot) (fresh : Bool) :
    ∃ armed peak, (s.detect snapshot fresh).1 =
      { s with strongArmed := armed, previousValidPeak := peak } := by
  rw [detect]
  split_ifs
  · exact ⟨_, _, rfl⟩
  · exact ⟨s.strongArmed, s.previousValidPeak, rfl⟩

theorem sighting_known : (s.sighting snapshot observedAt fresh).2.Known := by
  rw [sighting]
  split_ifs
  · exact detect_known
  · exact .inl rfl

theorem routesOf_cases (s : EventDetector) (snapshot : PublishedSnapshot)
    (observedAt : Nanoseconds) (fresh : Bool) :
    Routing (s.sighting snapshot observedAt fresh).1 (s.sighting snapshot observedAt fresh).2
      (s.routesOf snapshot observedAt fresh) := routes_cases _ sighting_known

/-- A new generation is sighted with the bundles after its post frame, and the rest as
before. -/
theorem sighting_of_new (fresh : Bool)
    (hnew : (s.expire observedAt).isNew snapshot.generation = true) :
    (s.sighting snapshot observedAt fresh).1.active =
        ((s.expire observedAt).appendPostFrame snapshot).active ∧
      (s.sighting snapshot observedAt fresh).1.nextBundleId = s.nextBundleId ∧
      (s.sighting snapshot observedAt fresh).1.history = s.history ∧
      (s.sighting snapshot observedAt fresh).1.options = s.options ∧
      (s.sighting snapshot observedAt fresh).1.completed = (s.expire observedAt).completed ∧
      (s.sighting snapshot observedAt fresh).1.droppedBundleCount =
        (s.expire observedAt).droppedBundleCount := by
  have hexpire := s.expire_sameMemory observedAt
  obtain ⟨armed, peak, hdetect⟩ :=
    detect_eq ((s.expire observedAt).appendPostFrame snapshot) snapshot fresh
  rw [sighting, if_pos hnew, hdetect]
  exact ⟨rfl, hexpire.nextBundleId, hexpire.history, hexpire.options, rfl, rfl⟩

/-- A property of the active bundles over an observation: closing the collection keeps it,
and it is carried on by the post frame, by a reason that is attached and to a new bundle. -/
theorem Each.observe (h : s.Each Q)
    (hclose : ∀ a, Q a → Q (a.closeCollection s.options observedAt))
    (hkeep : (s.expire observedAt).isNew snapshot.generation = false → ∀ a, Q a → Q' a)
    (hpost : (s.expire observedAt).isNew snapshot.generation = true →
      ∀ a, Q a → Q' (a.appendPostFrame snapshot))
    (hattach : ∀ a type peakDbm deltaDb, Q' a →
      Q' { a with bundle := a.bundle.attachReason type peakDbm deltaDb })
    (hcreate : (s.expire observedAt).isNew snapshot.generation = true → ∀ reasonMask deltaDb,
      .createBundle reasonMask deltaDb ∈ s.routesOf snapshot observedAt fresh →
        Q' ⟨newBundle s.nextBundleId s.history reasonMask snapshot observedAt observedAtUtc
          (s.sighting snapshot observedAt fresh).2.peakDbm deltaDb, 0, false⟩) :
    (s.observe snapshot observedAt fresh observedAtUtc).Each Q' := by
  have hexpired := (h.expire hclose).1
  rw [observe_eq]
  split_ifs with hnew
  · obtain ⟨hactive, hid, hhistory, -⟩ := sighting_of_new fresh hnew
    have hsighted : (s.sighting snapshot observedAt fresh).1.Each Q' :=
      (hexpired.appendPostFrame (hpost hnew)).of_active hactive
    have hroutes := routesOf_cases s snapshot observedAt fresh
    replace hcreate := hcreate hnew
    -- `remember` does not touch the slots
    show Each (List.foldl _ _ _) Q'
    generalize s.routesOf snapshot observedAt fresh = routes at hroutes hcreate ⊢
    cases hroutes with
    | quiet _ => exact hsighted
    | @create reasonMask deltaDb _ _ _ _ =>
      refine hsighted.create _ ?_
      rw [hid, hhistory]
      exact hcreate _ _ List.mem_cons_self
    | one _ _ => exact hsighted.attach _ snapshot observedAt observedAtUtc _ _ _ hattach
    | @two slot slot' type type' deltaDb deltaDb' _ _ _ _ =>
      have hfirst := hsighted.attach (s.sighting snapshot observedAt fresh).2 snapshot observedAt
        observedAtUtc slot type deltaDb hattach
      exact hfirst.attach _ snapshot observedAt observedAtUtc slot' type' deltaDb' hattach
  · intro slot a ha
    exact hkeep (Bool.eq_false_iff.mpr hnew) a (hexpired ha)

/-- Following a trigger moves the bundles and the next id only. -/
theorem follow_eq (s : EventDetector) (trigger : Trigger) (snapshot : PublishedSnapshot)
    (observedAt observedAtUtc : Nanoseconds) (route : Route) :
    ∃ active id, s.follow trigger snapshot observedAt observedAtUtc route =
      { s with active := active, nextBundleId := id } := by
  cases route with
  | attachReason slot type deltaDb =>
    rw [follow]
    cases s.active slot with
    | none => exact ⟨s.active, s.nextBundleId, rfl⟩
    | some active => exact ⟨_, s.nextBundleId, rfl⟩
  | createBundle reasonMask deltaDb =>
    rw [follow, createBundle]
    cases s.freeSlot with
    | none => exact ⟨s.active, s.nextBundleId, rfl⟩
    | some slot => exact ⟨_, _, rfl⟩

theorem foldl_follow_eq (trigger : Trigger) (snapshot : PublishedSnapshot)
    (observedAt observedAtUtc : Nanoseconds) (routes : List Route) (s : EventDetector) :
    ∃ active id, routes.foldl (fun s' route =>
        s'.follow trigger snapshot observedAt observedAtUtc route) s =
      { s with active := active, nextBundleId := id } := by
  induction routes generalizing s with
  | nil => exact ⟨s.active, s.nextBundleId, rfl⟩
  | cons route routes ih =>
    obtain ⟨active, id, hroute⟩ := follow_eq s trigger snapshot observedAt observedAtUtc route
    obtain ⟨active', id', hroutes⟩ := ih { s with active := active, nextBundleId := id }
    rw [List.foldl_cons, hroute, hroutes]
    exact ⟨active', id', rfl⟩

/-- A new generation is remembered; the queue and the options are left as `expire` left
them. -/
theorem observe_of_new (fresh : Bool) (observedAtUtc : Nanoseconds)
    (hnew : (s.expire observedAt).isNew snapshot.generation = true) :
    ∃ active id armed peak, s.observe snapshot observedAt fresh observedAtUtc =
      { (s.expire observedAt).remember snapshot with
        active := active, nextBundleId := id, strongArmed := armed, previousValidPeak := peak } := by
  obtain ⟨armed, peak, hdetect⟩ :=
    detect_eq ((s.expire observedAt).appendPostFrame snapshot) snapshot fresh
  obtain ⟨active, id, hfollow⟩ := foldl_follow_eq (s.sighting snapshot observedAt fresh).2 snapshot
    observedAt observedAtUtc (s.routesOf snapshot observedAt fresh)
    (s.sighting snapshot observedAt fresh).1
  rw [observe_eq, if_pos hnew, hfollow, sighting, if_pos hnew, hdetect]
  exact ⟨active, id, armed, peak, rfl⟩

theorem observe_of_old (fresh : Bool) (observedAtUtc : Nanoseconds)
    (hold : (s.expire observedAt).isNew snapshot.generation = false) :
    s.observe snapshot observedAt fresh observedAtUtc = s.expire observedAt := by
  rw [observe_eq, if_neg (Bool.eq_false_iff.mp hold)]

end Frame

/-! ### The record of a run -/

/-- A detector with what has happened to it. -/
structure Run where
  detector : EventDetector
  /-- The snapshots of new generations, oldest first. -/
  observed : List PublishedSnapshot := []
  /-- How often a reason was raised. -/
  raised : EventType → ℕ := fun _ => 0
  /-- How often `create_bundle` was called. -/
  created : ℕ := 0
  /-- The bundles `expire` has handed over. -/
  emitted : List ActiveBundle := []
  /-- The bundles `advance` and `take_completed` have returned. -/
  taken : List EventBundle := []
  /-- The limit has been lowered since the queue was last emptied. -/
  lowered : Bool := false

/-- A generation that is not zero and larger than all before. -/
def newGeneration (observed : List PublishedSnapshot) (generation : UInt64) : Bool :=
  generation ≠ 0 && observed.all (·.generation < generation)

def Run.perform (r : Run) : Call → Run
  | .observe snapshot observedAt fresh observedAtUtc =>
    { r with
      detector := r.detector.observe snapshot observedAt fresh observedAtUtc
      observed :=
        if newGeneration r.observed snapshot.generation then r.observed ++ [snapshot]
        else r.observed
      raised := fun type =>
        r.raised type + if r.detector.raises snapshot observedAt fresh type then 1 else 0
      created :=
        r.created + (r.detector.routesOf snapshot observedAt fresh).countP Route.isCreate
      emitted := r.emitted ++ r.detector.emissions observedAt }
  | .advance now =>
    { r with
      detector := (r.detector.advance now).1
      emitted := r.emitted ++ r.detector.emissions now
      taken := r.taken ++ (r.detector.advance now).2
      lowered := false }
  | .takeCompleted =>
    { r with
      detector := r.detector.takeCompleted.1
      taken := r.taken ++ r.detector.takeCompleted.2
      lowered := false }
  | .updateOptions options =>
    { r with
      detector := r.detector.updateOptions options
      lowered := r.lowered ||
        decide (options.maxPendingBundles < r.detector.options.maxPendingBundles) }

/-- What a slot adds to a sum over the bundles. -/
def weight (f : EventBundle → ℕ) : Option ActiveBundle → ℕ
  | none => 0
  | some a => f a.bundle

def activeTotal (f : EventBundle → ℕ) (s : EventDetector) : ℕ :=
  weight f (s.active 0) + weight f (s.active 1)

/-- The run of some calls on a new detector. -/
def run (options : EventOptions) (calls : List Call) : Run :=
  calls.foldl Run.perform { detector := { options := options } }

theorem run_append (options : EventOptions) (calls : List Call) (call : Call) :
    run options (calls ++ [call]) = (run options calls).perform call := by
  rw [run, List.foldl_append]
  rfl

end EventDetector

end Uhf.Storage
