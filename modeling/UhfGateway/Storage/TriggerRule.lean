/-
The rule by which events are triggered, and the detector that follows it.

The rule knows nothing of snapshots: it goes over a sequence of peaks with an arming flag and the
peak before.  The detector sees snapshots, of which some are not fresh, not refreshed or have no
valid peak, while it collects frames and merges bundles.

* `Agrees.observe` — one observation is one step of the rule, or none;
* `triggers_follow_rule` — so are all observations of a run, and what is left out or put in between
  the usable ones makes no difference.
-/
import UhfGateway.Storage.EventDetector

namespace Uhf.Storage

open Domain Acquisition

/-! ### The rule -/

/-- What the rule remembers: whether a strong discharge would be reported, and the peak before. -/
structure Watch where
  armed : Bool := true
  previous : Option Int := none
  deriving DecidableEq, Repr

namespace Watch

variable (w : Watch) (options : EventOptions) (peak : Int)

def strong : Bool := w.armed && decide (options.strongTriggerDbm.toInt ≤ peak)

def sudden : Bool :=
  w.previous.any fun previous => decide (options.suddenDeltaDb.toInt ≤ (peak - previous).natAbs)

/-- The reasons a peak raises. -/
def mask : UInt8 :=
  (if w.strong options peak then kStrongReason else 0) |||
    if w.sudden options peak then kSuddenReason else 0

/-- A strong discharge disarms, a peak below the other threshold arms again. -/
def next : Watch where
  armed := !w.strong options peak && (w.armed || decide (peak < options.strongRearmDbm.toInt))
  previous := some peak

/-- The reasons raised by a sequence of peaks. -/
def masks (options : EventOptions) : Watch → List Int → List UInt8
  | _, [] => []
  | w, peak :: peaks => w.mask options peak :: masks options (w.next options peak) peaks

/-- The memory after a sequence of peaks. -/
def after (peaks : List Int) : Watch := peaks.foldl (fun w peak => w.next options peak) w

end Watch

/-! ### Observations -/

/-- The arguments of `observe`. -/
structure ObserveCall where
  snapshot : PublishedSnapshot
  observedAt : Nanoseconds
  fresh : Bool
  observedAtUtc : Nanoseconds

namespace ObserveCall

/-- A fresh snapshot that is refreshed and has a valid peak. -/
def usable (o : ObserveCall) : Bool := EventDetector.validPeak o.snapshot o.fresh

def peak (o : ObserveCall) : Int := (EventDetector.peakOf o.snapshot).toInt

/-- The generations are those of a store that counts its snapshots from one on. -/
def Increasing (observations : List ObserveCall) : Prop :=
  (observations.map fun o => o.snapshot.generation).Pairwise (· < ·) ∧
    ∀ o ∈ observations, o.snapshot.generation ≠ 0

/-- The peaks the rule goes over. -/
def peaks (observations : List ObserveCall) : List Int := (observations.filter usable).map peak

end ObserveCall

namespace EventDetector

variable (s : EventDetector)

def observed (o : ObserveCall) : EventDetector :=
  s.observe o.snapshot o.observedAt o.fresh o.observedAtUtc

/-- The trigger mask of an observation. -/
def maskOf (o : ObserveCall) : UInt8 := (s.sighting o.snapshot o.observedAt o.fresh).2.mask

/-- The observations of a run, each with the mask it raised. -/
def judged : EventDetector → List ObserveCall → List (ObserveCall × UInt8)
  | _, [] => []
  | s, o :: observations => (o, s.maskOf o) :: judged (s.observed o) observations

def observedAll (observations : List ObserveCall) : EventDetector :=
  observations.foldl EventDetector.observed s

end EventDetector

open EventDetector

/-! ### One observation -/

/-- The detector remembers what the rule does. -/
structure Agrees (options : EventOptions) (w : Watch) (s : EventDetector) : Prop where
  options : s.options = options
  armed : s.strongArmed = w.armed
  previous : s.previousValidPeak.map Int32.toInt = w.previous

section Step

variable {options : EventOptions} {w : Watch} {s : EventDetector}

theorem Agrees.of_sameMemory {s' : EventDetector} (h : Agrees options w s) (hmemory : SameMemory s s') :
    Agrees options w s' :=
  ⟨hmemory.options.trans h.options, hmemory.strongArmed.trans h.armed,
    by rw [hmemory.previousValidPeak, h.previous]⟩

/-- The difference is looked for in the same place. -/
theorem Agrees.sudden (h : Agrees options w s) (peak : Int32) :
    (s.suddenDelta peak).isSome = w.sudden options peak.toInt := by
  rw [suddenDelta, Watch.sudden, ← h.previous, h.options]
  cases s.previousValidPeak with
  | none => rfl
  | some previous =>
    have habs : (if peak.toInt - previous.toInt < 0 then -(peak.toInt - previous.toInt)
        else peak.toInt - previous.toInt) = ((peak.toInt - previous.toInt).natAbs : Int) := by
      split_ifs <;> omega
    simp only [habs, Option.map_some, Option.any_some]
    by_cases hdelta : options.suddenDeltaDb.toInt ≤ ((peak.toInt - previous.toInt).natAbs : Int)
    · rw [if_pos hdelta, decide_eq_true hdelta]
      rfl
    · rw [if_neg hdelta, decide_eq_false hdelta]
      rfl

/-- A usable snapshot is a step of the rule. -/
theorem Agrees.detect (h : Agrees options w s) (hrearm : options.strongRearmDbm < options.strongTriggerDbm)
    {snapshot : PublishedSnapshot} {fresh : Bool} (hvalid : validPeak snapshot fresh = true) :
    (s.detect snapshot fresh).2.mask = w.mask options (peakOf snapshot).toInt ∧
      Agrees options (w.next options (peakOf snapshot).toInt) (s.detect snapshot fresh).1 := by
  have hlt := Int32.lt_iff_toInt_lt.mp hrearm
  have hsudden := h.sudden (peakOf snapshot)
  have hrearmed : decide (peakOf snapshot < options.strongRearmDbm) =
      decide ((peakOf snapshot).toInt < options.strongRearmDbm.toInt) :=
    decide_eq_decide.mpr Int32.lt_iff_toInt_lt
  have hstrong : decide (options.strongTriggerDbm ≤ peakOf snapshot) =
      decide (options.strongTriggerDbm.toInt ≤ (peakOf snapshot).toInt) :=
    decide_eq_decide.mpr Int32.le_iff_toInt_le
  -- a peak that arms again is too low to be a strong discharge
  have harmed : (if !s.strongArmed && decide (peakOf snapshot < s.options.strongRearmDbm) then true
      else s.strongArmed) = (w.armed || decide ((peakOf snapshot).toInt < options.strongRearmDbm.toInt)) := by
    rw [h.armed, h.options, hrearmed]
    cases w.armed <;> cases decide ((peakOf snapshot).toInt < options.strongRearmDbm.toInt) <;> rfl
  have hraised : ((w.armed || decide ((peakOf snapshot).toInt < options.strongRearmDbm.toInt)) &&
      decide (s.options.strongTriggerDbm ≤ peakOf snapshot)) =
        w.strong options (peakOf snapshot).toInt := by
    rw [h.options, hstrong, Watch.strong]
    by_cases hlow : (peakOf snapshot).toInt < options.strongRearmDbm.toInt
    · have hnot : ¬ options.strongTriggerDbm.toInt ≤ (peakOf snapshot).toInt := by omega
      simp [hnot]
    · simp [hlow]
  rw [EventDetector.detect, if_pos hvalid]
  simp only [harmed, hraised]
  refine ⟨?_, h.options, ?_, rfl⟩
  · rw [Watch.mask, hsudden]
  · show (if w.strong options (peakOf snapshot).toInt = true then false else _) = _
    rw [Watch.next]
    cases w.strong options (peakOf snapshot).toInt <;> rfl

/-- An observation of a new generation is one step of the rule if the snapshot is usable, and none
else. -/
theorem Agrees.observe (h : Agrees options w s)
    (hrearm : options.strongRearmDbm < options.strongTriggerDbm) (o : ObserveCall)
    (hnew : s.isNew o.snapshot.generation = true) :
    (s.maskOf o = if o.usable then w.mask options o.peak else 0) ∧
      Agrees options (if o.usable then w.next options o.peak else w) (s.observed o) ∧
      (s.observed o).lastGeneration = some o.snapshot.generation := by
  have hexpire := s.expire_sameMemory o.observedAt
  have hpost : SameMemory s ((s.expire o.observedAt).appendPostFrame o.snapshot) :=
    hexpire.trans (appendPostFrame_sameMemory o.snapshot)
  have hnew' : (s.expire o.observedAt).isNew o.snapshot.generation = true := by
    rwa [isNew, hexpire.lastGeneration, ← isNew]
  have hsighting : s.sighting o.snapshot o.observedAt o.fresh =
      ((s.expire o.observedAt).appendPostFrame o.snapshot).detect o.snapshot o.fresh := if_pos hnew'
  obtain ⟨active, id, hfollow⟩ := foldl_follow_eq (s.sighting o.snapshot o.observedAt o.fresh).2
    o.snapshot o.observedAt o.observedAtUtc (s.routesOf o.snapshot o.observedAt o.fresh)
    (s.sighting o.snapshot o.observedAt o.fresh).1
  have hobserved : s.observed o =
      { (s.sighting o.snapshot o.observedAt o.fresh).1.remember o.snapshot with
        active := active, nextBundleId := id } := by
    rw [observed, observe_eq, if_pos hnew', hfollow]
    rfl
  rw [maskOf, hobserved, hsighting, ObserveCall.usable, ObserveCall.peak]
  cases hvalid : validPeak o.snapshot o.fresh with
  | true =>
    obtain ⟨hmask, hagrees⟩ := (h.of_sameMemory hpost).detect hrearm hvalid
    exact ⟨hmask, ⟨hagrees.options, hagrees.armed, hagrees.previous⟩, rfl⟩
  | false =>
    rw [EventDetector.detect, if_neg (by simp [hvalid])]
    have hsame := h.of_sameMemory hpost
    exact ⟨rfl, ⟨hsame.options, hsame.armed, hsame.previous⟩, rfl⟩

end Step

/-! ### Runs -/

/-- The triggers of a run are those of the rule on the usable peaks. -/
structure FollowsRule (options : EventOptions) (w : Watch) (s : EventDetector)
    (observations : List ObserveCall) : Prop where
  raised : ((s.judged observations).filter fun x => x.1.usable).map Prod.snd =
    w.masks options (ObserveCall.peaks observations)
  quiet : ∀ x ∈ s.judged observations, x.1.usable = false → x.2 = 0
  memory : Agrees options (w.after options (ObserveCall.peaks observations)) (s.observedAll observations)

theorem FollowsRule.of_agrees {options : EventOptions}
    (hrearm : options.strongRearmDbm < options.strongTriggerDbm) {w : Watch} {s : EventDetector}
    {observations : List ObserveCall} (h : Agrees options w s)
    (hincreasing : ObserveCall.Increasing observations)
    (hnewer : ∀ last, s.lastGeneration = some last → ∀ o ∈ observations, last < o.snapshot.generation) :
    FollowsRule options w s observations := by
  induction observations generalizing w s with
  | nil => exact ⟨rfl, List.forall_mem_nil _, h⟩
  | cons o observations ih =>
    obtain ⟨hsorted, hnonzero⟩ := hincreasing
    rw [List.map_cons, List.pairwise_cons] at hsorted
    have hnew : s.isNew o.snapshot.generation = true := by
      rw [isNew, Bool.and_eq_true]
      refine ⟨by simpa using hnonzero o List.mem_cons_self, ?_⟩
      cases hlast : s.lastGeneration with
      | none => rfl
      | some last => simpa using hnewer last hlast o List.mem_cons_self
    obtain ⟨hmask, hagrees, hlast⟩ := h.observe hrearm o hnew
    have hrest := ih hagrees ⟨hsorted.2, fun o' ho' => hnonzero o' (List.mem_cons_of_mem _ ho')⟩ (by
      intro last heq o' ho'
      rw [hlast] at heq
      obtain rfl := Option.some.inj heq
      exact hsorted.1 _ (List.mem_map_of_mem ho'))
    cases husable : o.usable with
    | true =>
      rw [husable, if_pos rfl] at hmask hrest
      have hpeaks : ObserveCall.peaks (o :: observations) = o.peak :: ObserveCall.peaks observations := by
        rw [ObserveCall.peaks, List.filter_cons_of_pos husable]
        rfl
      refine ⟨?_, ?_, ?_⟩
      · rw [judged, List.filter_cons_of_pos (p := fun x : ObserveCall × UInt8 => x.1.usable) husable, hpeaks, List.map_cons, hrest.raised, hmask]
        rfl
      · intro x hx hunusable
        rcases List.mem_cons.mp hx with rfl | hx
        · rw [husable] at hunusable
          cases hunusable
        · exact hrest.quiet x hx hunusable
      · rw [hpeaks]
        exact hrest.memory
    | false =>
      rw [husable, if_neg Bool.false_ne_true] at hmask hrest
      have hnot : ¬ o.usable = true := Bool.eq_false_iff.mp husable
      have hpeaks : ObserveCall.peaks (o :: observations) = ObserveCall.peaks observations := by
        rw [ObserveCall.peaks, List.filter_cons_of_neg hnot]
        rfl
      refine ⟨?_, ?_, ?_⟩
      · rw [judged, List.filter_cons_of_neg (p := fun x : ObserveCall × UInt8 => x.1.usable) hnot, hpeaks, hrest.raised]
      · intro x hx hunusable
        rcases List.mem_cons.mp hx with rfl | hx
        · exact hmask
        · exact hrest.quiet x hx hunusable
      · rw [hpeaks]
        exact hrest.memory

/-- The masks raised by the usable observations of a run. -/
def triggers (options : EventOptions) (observations : List ObserveCall) : List UInt8 :=
  ((judged { options := options } observations).filter fun x => x.1.usable).map Prod.snd

/-- The triggers of a new detector are those of the rule on the usable peaks, and two runs with the
same usable peaks trigger alike and remember the same, whatever else they have seen. -/
theorem triggers_follow_rule {options : EventOptions}
    (hrearm : options.strongRearmDbm < options.strongTriggerDbm) :
    (∀ observations, ObserveCall.Increasing observations →
      FollowsRule options {} { options := options } observations) ∧
    ∀ observations observations', ObserveCall.Increasing observations →
      ObserveCall.Increasing observations' →
      ObserveCall.peaks observations = ObserveCall.peaks observations' →
      triggers options observations = triggers options observations' ∧
        (observedAll { options := options } observations).strongArmed =
          (observedAll { options := options } observations').strongArmed ∧
        (observedAll { options := options } observations).previousValidPeak =
          (observedAll { options := options } observations').previousValidPeak := by
  have hfollows : ∀ observations, ObserveCall.Increasing observations →
      FollowsRule options {} { options := options } observations :=
    fun observations h => FollowsRule.of_agrees hrearm ⟨rfl, rfl, rfl⟩ h nofun
  refine ⟨hfollows, ?_⟩
  intro observations observations' h h' hpeaks
  have hrule := hfollows observations h
  have hrule' := hfollows observations' h'
  have hbaseline := hrule.memory.previous.trans ((congrArg Watch.previous
    (congrArg (Watch.after {} options) hpeaks)).trans hrule'.memory.previous.symm)
  refine ⟨?_, ?_, ?_⟩
  · rw [triggers, triggers, hrule.raised, hrule'.raised, hpeaks]
  · rw [hrule.memory.armed, hrule'.memory.armed, hpeaks]
  · exact Option.map_injective (fun _ _ => Int32.toInt_inj.mp) hbaseline

/-- A fresh sighting of a peak, or a stale one. -/
def sighted (generation : UInt64) (dbm : Int) (fresh : Bool) : ObserveCall where
  snapshot :=
    { generation := generation
      startedAt := 0
      completedAt := 0
      pollDuration := 0
      payload :=
        { parsePd1000Registers (Vector.replicate kPd1000RegisterCount 0) with
          measurements := Vector.replicate 5 ⟨0, dbm, true⟩
          payloadStatus := .good } }
  observedAt := 0
  fresh := fresh
  observedAtUtc := 0

/-- A stale snapshot between two fresh ones does not hide the change. -/
theorem triggers_past_stale :
    FollowsRule {} {} { options := {} } [sighted 1 (-60) true, sighted 2 (-20) false, sighted 3 (-45) true] ∧
      triggers {} [sighted 1 (-60) true, sighted 2 (-20) false, sighted 3 (-45) true] =
        triggers {} [sighted 1 (-60) true, sighted 3 (-45) true] := by
  have hrule := @triggers_follow_rule {} (by decide)
  have hlong : ObserveCall.Increasing
      [sighted 1 (-60) true, sighted 2 (-20) false, sighted 3 (-45) true] := ⟨by decide, by decide⟩
  have hshort : ObserveCall.Increasing [sighted 1 (-60) true, sighted 3 (-45) true] :=
    ⟨by decide, by decide⟩
  exact ⟨hrule.1 _ hlong, (hrule.2 _ _ hlong hshort rfl).1⟩

end Uhf.Storage
