/-
The bundles the event detector hands over.

* `run_story` — the frames of a bundle, from the snapshots of the run;
* `detected_bundles_storable` — every bundle that is returned can be stored;
* `partial_flag_truthful_iff` — when the flag of every bundle tells how many frames came
  after its trigger.
-/
import UhfGateway.Storage.DetectorRuns

namespace Uhf.Storage

open Domain Acquisition

namespace EventDetector

/-! ### The story of a bundle -/

/-- The observation a bundle comes from, what was observed before it, and after. -/
structure Origin (options : EventOptions) (calls : List Call) (bundle : EventBundle)
    (before : List PublishedSnapshot) (trigger : PublishedSnapshot)
    (after : List PublishedSnapshot) : Prop where
  call : ∃ earlier fresh,
    earlier ++ [.observe trigger bundle.firstTriggeredAt fresh bundle.firstTriggeredAtUtc] <+: calls ∧
      (∃ type, (run options earlier).detector.raises trigger bundle.firstTriggeredAt fresh type =
        true) ∧
      bundle.id = (run options earlier).detector.nextBundleId ∧
      (run options earlier).created < (run options calls).created ∧
      before = (run options earlier).observed
  observed : (run options calls).observed = before ++ trigger :: after

/-- The frames of a bundle: the newest two before its trigger, the trigger, and the first
ones after it, without a gap. -/
def Story (options : EventOptions) (calls : List Call) (bundle : EventBundle)
    (post : List PublishedSnapshot) : Prop :=
  ∃ before trigger after, Origin options calls bundle before trigger after ∧
    bundle.frames = lastFrames before ++ trigger :: post ∧ post <+: after ∧
    post.length ≤ kPostFrameCount

section Story

variable {options : EventOptions} {calls : List Call} {bundle bundle' : EventBundle}
  {before after : List PublishedSnapshot} {trigger : PublishedSnapshot}

theorem Origin.congr (h : Origin options calls bundle before trigger after)
    (hid : bundle'.id = bundle.id) (hat : bundle'.firstTriggeredAt = bundle.firstTriggeredAt)
    (hutc : bundle'.firstTriggeredAtUtc = bundle.firstTriggeredAtUtc) :
    Origin options calls bundle' before trigger after := by
  obtain ⟨hcall, hobserved⟩ := h
  refine ⟨?_, hobserved⟩
  rw [hid, hat, hutc]
  exact hcall

/-- What a call adds to the snapshots of the run. -/
def Call.news (observed : List PublishedSnapshot) : Call → List PublishedSnapshot
  | .observe snapshot _ _ _ => if newGeneration observed snapshot.generation then [snapshot] else []
  | _ => []

theorem observed_append (options : EventOptions) (calls : List Call) (call : Call) :
    (run options (calls ++ [call])).observed =
      (run options calls).observed ++ call.news (run options calls).observed := by
  rw [run_append]
  cases call with
  | observe snapshot observedAt fresh observedAtUtc =>
    show (if newGeneration _ snapshot.generation then _ else _) = _ ++ if _ then [snapshot] else []
    split_ifs
    · rfl
    · exact (List.append_nil _).symm
  | advance now => exact (List.append_nil _).symm
  | takeCompleted => exact (List.append_nil _).symm
  | updateOptions eventOptions => exact (List.append_nil _).symm

theorem created_le (options : EventOptions) (calls : List Call) (call : Call) :
    (run options calls).created ≤ (run options (calls ++ [call])).created := by
  rw [run_append]
  cases call with
  | observe snapshot observedAt fresh observedAtUtc => exact Nat.le_add_right _ _
  | advance now => exact Nat.le_refl _
  | takeCompleted => exact Nat.le_refl _
  | updateOptions eventOptions => exact Nat.le_refl _

/-- An origin stays one; only what comes after grows. -/
theorem Origin.append (h : Origin options calls bundle before trigger after) (call : Call) :
    Origin options (calls ++ [call]) bundle before trigger
      (after ++ call.news (run options calls).observed) := by
  obtain ⟨⟨earlier, fresh, hcalls, hraised, hid, hcreated, hbefore⟩, hobserved⟩ := h
  refine ⟨⟨earlier, fresh, hcalls.trans (List.prefix_append _ _), hraised, hid,
    Nat.lt_of_lt_of_le hcreated (created_le options calls call), hbefore⟩, ?_⟩
  rw [observed_append, hobserved, List.append_assoc, List.cons_append]

/-- An active bundle has the frames after its trigger up to where it stopped; while it
collects, it has all of them. -/
def Collecting (options : EventOptions) (calls : List Call) (a : ActiveBundle) : Prop :=
  ∃ before trigger after post, Origin options calls a.bundle before trigger after ∧
    a.bundle.frames = lastFrames before ++ trigger :: post ∧ post <+: after ∧
    post.length = a.postFrames ∧ a.postFrames ≤ kPostFrameCount ∧
    (a.collectionClosed = false → post = after ∧ a.postFrames < kPostFrameCount)

def Collected (options : EventOptions) (calls : List Call) (a : ActiveBundle) : Prop :=
  ∃ post, Story options calls a.bundle post ∧ post.length = a.postFrames

theorem lastFrames_sublist (frames : List PublishedSnapshot) : (lastFrames frames).Sublist frames :=
  List.drop_sublist _ _

/-- The frames of a bundle are snapshots of the run, in their order. -/
theorem Origin.frames_sublist {post : List PublishedSnapshot}
    (h : Origin options calls bundle before trigger after) (hpost : post <+: after) :
    (lastFrames before ++ trigger :: post).Sublist (run options calls).observed := by
  rw [h.observed]
  exact (lastFrames_sublist before).append (hpost.sublist.cons_cons trigger)

/-- A new generation is in none of the frames. -/
theorem hasGeneration_of_new {frames observed : List PublishedSnapshot} {generation : UInt64}
    (hframes : frames.Sublist observed) (hnew : newGeneration observed generation = true) :
    hasGeneration frames generation = false := by
  rw [newGeneration, Bool.and_eq_true, List.all_eq_true] at hnew
  rw [hasGeneration, List.any_eq_false]
  intro frame hframe heq
  have hless := of_decide_eq_true (hnew.2 frame (hframes.subset hframe))
  rw [of_decide_eq_true heq] at hless
  exact UInt64.lt_irrefl _ hless

theorem Collecting.appendPostFrame {a : ActiveBundle} {snapshot : PublishedSnapshot}
    {observedAt observedAtUtc : Nanoseconds} {fresh : Bool} (h : Collecting options calls a)
    (hnew : newGeneration (run options calls).observed snapshot.generation = true) :
    Collecting options (calls ++ [.observe snapshot observedAt fresh observedAtUtc])
      (a.appendPostFrame snapshot) := by
  obtain ⟨before, trigger, after, post, horigin, hframes, hpost, hlength, hfew, hopen⟩ := h
  have hnews : Call.news (run options calls).observed
      (.observe snapshot observedAt fresh observedAtUtc) = [snapshot] := if_pos hnew
  have horigin' := horigin.append (.observe snapshot observedAt fresh observedAtUtc)
  rw [hnews] at horigin'
  have habsent : hasGeneration a.bundle.frames snapshot.generation = false :=
    hasGeneration_of_new (hframes ▸ horigin.frames_sublist hpost) hnew
  rw [ActiveBundle.appendPostFrame, habsent, Bool.or_false]
  split_ifs with hclosed
  · refine ⟨before, trigger, _, post, horigin', hframes, hpost.trans (List.prefix_append _ _), hlength,
      hfew, fun hstill => ?_⟩
    rw [hclosed] at hstill
    cases hstill
  · obtain ⟨rfl, hless⟩ := hopen (Bool.eq_false_iff.mpr hclosed)
    refine ⟨before, trigger, _, post ++ [snapshot], horigin'.congr rfl rfl rfl, ?_,
      List.prefix_rfl, ?_, hless, fun hstill => ⟨rfl, ?_⟩⟩
    · show a.bundle.frames ++ [snapshot] = _
      rw [hframes, List.append_assoc, List.cons_append]
    · rw [List.length_append, hlength]
      rfl
    · exact Nat.not_le.mp (of_decide_eq_false hstill)

/-- A bundle starts with the frames the detector remembers, and its trigger. -/
theorem collecting_newBundle {snapshot : PublishedSnapshot} {observedAt observedAtUtc : Nanoseconds}
    {fresh : Bool} {reasonMask : UInt8} {deltaDb : Int32} (peakDbm : Int32)
    (hnew : newGeneration (run options calls).observed snapshot.generation = true)
    (hroute : .createBundle reasonMask deltaDb ∈
      (run options calls).detector.routesOf snapshot observedAt fresh) :
    Collecting options (calls ++ [.observe snapshot observedAt fresh observedAtUtc])
      ⟨newBundle (run options calls).detector.nextBundleId (run options calls).detector.history
        reasonMask snapshot observedAt observedAtUtc peakDbm deltaDb, 0, false⟩ := by
  have hnews : Call.news (run options calls).observed
      (.observe snapshot observedAt fresh observedAtUtc) = [snapshot] := if_pos hnew
  have hraised : ∃ type, (run options calls).detector.raises snapshot observedAt fresh type =
      true := by
    have hroutes := routesOf_cases (run options calls).detector snapshot observedAt fresh
    obtain ⟨hbits, -, hreason, -⟩ := hroutes.create_mem hroute
    exact exists_raised hreason hbits
  have hcreated : (run options calls).created <
      (run options (calls ++ [.observe snapshot observedAt fresh observedAtUtc])).created := by
    rw [run_append]
    exact Nat.lt_add_of_pos_right (List.countP_pos_iff.mpr ⟨_, hroute, rfl⟩)
  refine ⟨(run options calls).observed, snapshot, [], [], ⟨⟨calls, fresh, List.prefix_rfl, hraised,
    rfl, hcreated, rfl⟩, ?_⟩, ?_, List.prefix_rfl, rfl, Nat.zero_le _, fun _ => ⟨rfl, Nat.succ_pos 2⟩⟩
  · rw [observed_append, hnews]
  · show (run options calls).detector.history ++ [snapshot] = _
    rw [(run_remembers options calls).history]

theorem collecting_lifecycle (options : EventOptions) :
    Lifecycle options (Collecting options) (Collected options) where
  close := by
    rintro calls eventOptions now a ⟨before, trigger, after, post, horigin, hframes, hpost, hlength,
      hfew, hopen⟩
    rw [ActiveBundle.closeCollection]
    split_ifs with hdue
    · exact ⟨before, trigger, after, post, horigin.congr rfl rfl rfl, hframes, hpost, hlength, hfew,
        fun hstill => Bool.noConfusion hstill⟩
    · exact ⟨before, trigger, after, post, horigin, hframes, hpost, hlength, hfew, hopen⟩
  finish := by
    rintro calls a ⟨before, trigger, after, post, horigin, hframes, hpost, hlength, hfew, -⟩
    exact ⟨post, ⟨before, trigger, after, horigin, hframes, hpost, hlength ▸ hfew⟩, hlength⟩
  later := by
    rintro calls call a ⟨post, ⟨before, trigger, after, horigin, hframes, hpost, hfew⟩, hlength⟩
    exact ⟨post, ⟨before, trigger, _, horigin.append call, hframes,
      hpost.trans (List.prefix_append _ _), hfew⟩, hlength⟩
  keep := by
    rintro calls call a hsame ⟨before, trigger, after, post, horigin, hframes, hpost, hlength, hfew,
      hopen⟩
    have hnews : call.news (run options calls).observed = [] := by
      rw [observed_append] at hsame
      exact List.append_right_eq_self.mp hsame
    have horigin' := horigin.append call
    rw [hnews, List.append_nil] at horigin'
    exact ⟨before, trigger, after, post, horigin', hframes, hpost, hlength, hfew, hopen⟩
  post calls snapshot observedAt fresh observedAtUtc a hnew h := h.appendPostFrame hnew
  attach := by
    rintro calls a type peakDbm deltaDb ⟨before, trigger, after, post, horigin, hframes, hpost,
      hlength, hfew, hopen⟩
    cases type with
    | strongDischarge =>
      exact ⟨before, trigger, after, post, horigin.congr rfl rfl rfl, hframes, hpost, hlength, hfew,
        hopen⟩
    | suddenChange =>
      exact ⟨before, trigger, after, post, horigin.congr rfl rfl rfl, hframes, hpost, hlength, hfew,
        hopen⟩
  create calls snapshot observedAt fresh observedAtUtc reasonMask deltaDb hnew hroute :=
    collecting_newBundle _ hnew hroute

end Story

/-- Every bundle that is handed over has its story, with as many frames after the trigger
as were counted. -/
theorem run_story (options : EventOptions) (calls : List Call) :
    ∀ a ∈ (run options calls).emitted, Collected options calls a :=
  ((collecting_lifecycle options).run calls).2

/-! ### Statistics that can be stored -/

/-- The registers of every snapshot come from a reading. -/
def Readings (calls : List Call) : Prop :=
  ∀ snapshot observedAt fresh observedAtUtc,
    .observe snapshot observedAt fresh observedAtUtc ∈ calls →
      ∃ rawRegisters, snapshot.payload = parsePd1000Registers rawRegisters

/-- A peak in the range of the device. -/
def InRange (peakDbm : Int32) : Prop := -70 ≤ peakDbm.toInt ∧ peakDbm.toInt ≤ 15

theorem inRange_of_validPeak {snapshot : PublishedSnapshot} {fresh : Bool} {rawRegisters : Registers}
    (hparsed : snapshot.payload = parsePd1000Registers rawRegisters)
    (hvalid : validPeak snapshot fresh = true) :
    InRange (peakOf snapshot) := by
  have hmeasurement : snapshot.payload.measurements.get 2 =
      signedMeasurement (rawRegisters.get ⟨2, by decide⟩) (-70) 15 := by
    rw [hparsed]
    rfl
  have hinside : (signedMeasurement (rawRegisters.get ⟨2, by decide⟩) (-70) 15).valid = true := by
    rw [validPeak, Bool.and_eq_true, hmeasurement] at hvalid
    exact hvalid.2
  obtain ⟨hlow, hhigh⟩ := of_decide_eq_true (Bool.and_eq_true_iff.mp hinside).2
  rw [peakOf, hmeasurement, InRange]
  show -70 ≤ (Int32.ofInt (decodeInt16 _)).toInt ∧ (Int32.ofInt (decodeInt16 _)).toInt ≤ 15
  rw [Int32.toInt_ofInt_of_le (by omega) (by omega)]
  exact ⟨hlow, hhigh⟩

theorem suddenDelta_nonneg {s : EventDetector} {peakDbm deltaDb : Int32}
    (hprevious : ∀ previous, s.previousValidPeak = some previous → InRange previous)
    (hpeak : InRange peakDbm) (h : s.suddenDelta peakDbm = some deltaDb) : 0 ≤ deltaDb := by
  rw [suddenDelta] at h
  cases hsome : s.previousValidPeak with
  | none =>
    rw [hsome] at h
    cases h
  | some previous =>
    obtain ⟨hlow, hhigh⟩ := hprevious previous hsome
    obtain ⟨hlow', hhigh'⟩ := hpeak
    have hsmall : ∀ difference : Int, 0 ≤ difference → difference ≤ 85 →
        0 ≤ Int32.ofInt difference := by
      intro difference hnonneg hfew
      rw [Int32.le_iff_toInt_le, Int32.toInt_ofInt_of_le (by omega) (by omega)]
      exact hnonneg
    simp only [hsome] at h
    -- the distance of two peaks in the range is at most 85
    generalize hdistance : (if peakDbm.toInt - previous.toInt < 0 then
      -(peakDbm.toInt - previous.toInt) else peakDbm.toInt - previous.toInt) = distance at h
    have hbounds : 0 ≤ distance ∧ distance ≤ 85 := by
      rw [← hdistance]
      split_ifs <;> omega
    split_ifs at h
    cases h
    exact hsmall distance hbounds.1 hbounds.2

theorem sighting_previousValidPeak (s : EventDetector) (snapshot : PublishedSnapshot)
    (observedAt : Nanoseconds) :
    ((s.expire observedAt).appendPostFrame snapshot).previousValidPeak = s.previousValidPeak :=
  (s.expire_sameMemory observedAt).previousValidPeak

/-- The peak and the difference an observation finds. -/
theorem detect_inRange {s : EventDetector} {snapshot : PublishedSnapshot} {fresh : Bool}
    {rawRegisters : Registers} (hparsed : snapshot.payload = parsePd1000Registers rawRegisters)
    (hprevious : ∀ previous, s.previousValidPeak = some previous → InRange previous) :
    (∀ previous, (s.detect snapshot fresh).1.previousValidPeak = some previous → InRange previous) ∧
      0 ≤ (s.detect snapshot fresh).2.deltaDb := by
  rw [detect]
  split_ifs with hvalid
  · have hpeak := inRange_of_validPeak hparsed hvalid
    constructor
    · rintro previous ⟨⟩
      exact hpeak
    · show 0 ≤ (s.suddenDelta _).getD 0
      cases hdelta : s.suddenDelta (peakOf snapshot) with
      | none => exact Int32.le_refl 0
      | some deltaDb => exact suddenDelta_nonneg hprevious hpeak hdelta
  · exact ⟨hprevious, Int32.le_refl 0⟩

theorem Readings.of_append {calls more : List Call} (h : Readings (calls ++ more)) : Readings calls :=
  fun _ _ _ _ hcall => h _ _ _ _ (List.mem_append_left _ hcall)

/-- The previous peak of a detector that has seen readings only. -/
theorem previousValidPeak_inRange (options : EventOptions) {calls : List Call}
    (hparsed : Readings calls) :
    ∀ previous, (run options calls).detector.previousValidPeak = some previous →
      InRange previous := by
  induction calls using List.reverseRecOn with
  | nil =>
    intro previous hprevious
    cases hprevious
  | append_singleton calls call ih =>
    have hbefore := ih hparsed.of_append
    rw [run_append]
    cases call with
    | observe snapshot observedAt fresh observedAtUtc =>
      show ∀ previous, ((run options calls).detector.observe snapshot observedAt fresh
        observedAtUtc).previousValidPeak = some previous → InRange previous
      obtain ⟨rawRegisters, hpayload⟩ := hparsed _ _ _ _ (List.mem_append_right _ List.mem_cons_self)
      rw [← sighting_previousValidPeak _ snapshot observedAt] at hbefore
      cases hnew : ((run options calls).detector.expire observedAt).isNew snapshot.generation with
      | false =>
        rw [observe_of_old fresh observedAtUtc hnew]
        exact hbefore
      | true =>
        obtain ⟨active, id, hfollow⟩ := foldl_follow_eq
          ((run options calls).detector.sighting snapshot observedAt fresh).2 snapshot observedAt
          observedAtUtc ((run options calls).detector.routesOf snapshot observedAt fresh)
          ((run options calls).detector.sighting snapshot observedAt fresh).1
        rw [observe_eq, if_pos hnew, hfollow, sighting, if_pos hnew]
        exact (detect_inRange hpayload hbefore).1
    | advance now =>
      show ∀ previous, ((run options calls).detector.expire now).previousValidPeak = some previous →
        InRange previous
      rw [((run options calls).detector.expire_sameMemory now).previousValidPeak]
      exact hbefore
    | takeCompleted => exact hbefore
    | updateOptions eventOptions => exact hbefore

theorem sighting_delta_nonneg (options : EventOptions) {calls : List Call}
    {snapshot : PublishedSnapshot} {observedAt observedAtUtc : Nanoseconds} {fresh : Bool}
    (hparsed : Readings (calls ++ [.observe snapshot observedAt fresh observedAtUtc])) :
    0 ≤ ((run options calls).detector.sighting snapshot observedAt fresh).2.deltaDb := by
  obtain ⟨rawRegisters, hpayload⟩ := hparsed _ _ _ _ (List.mem_append_right _ List.mem_cons_self)
  have hbefore := previousValidPeak_inRange options hparsed.of_append
  rw [← sighting_previousValidPeak _ snapshot observedAt] at hbefore
  rw [sighting]
  split_ifs
  · exact (detect_inRange hpayload hbefore).2
  · exact Int32.le_refl 0

theorem statsAreValid_present {stats : EventReasonStats} :
    statsAreValid stats true = true ↔ 0 < stats.triggerCount ∧ 0 ≤ stats.maxDeltaDb := by
  rw [statsAreValid, Bool.not_true, if_neg Bool.false_ne_true, Bool.and_eq_true, decide_eq_true_eq,
    decide_eq_true_eq]

theorem statsAreValid_absent {stats : EventReasonStats} :
    statsAreValid stats false = true ↔ stats = {} := by
  obtain ⟨triggerCount, maxPeakDbm, maxDeltaDb⟩ := stats
  simp [statsAreValid, and_assoc]

theorem statsAreValid_updateStats {stats : EventReasonStats} {present : Bool}
    (h : statsAreValid stats present = true) (peakDbm deltaDb : Int32) :
    statsAreValid (stats.updateStats peakDbm deltaDb) true = true := by
  have hdelta : 0 ≤ stats.maxDeltaDb := by
    cases present with
    | false =>
      rw [statsAreValid_absent.mp h]
      exact Int32.le_refl 0
    | true => exact (statsAreValid_present.mp h).2
  refine statsAreValid_present.mpr ⟨?_, ?_⟩
  · show 0 < if stats.triggerCount.toNat < 2 ^ 32 - 1 then _ else _
    rw [UInt32.lt_iff_toNat_lt]
    split_ifs with hless
    · rw [UInt32.toNat_add, UInt32.toNat_one, Nat.mod_eq_of_lt (by omega)]
      exact Nat.succ_pos _
    · have hfull : 2 ^ 32 - 1 ≤ stats.triggerCount.toNat := Nat.not_lt.mp hless
      exact Nat.lt_of_lt_of_le (by decide) hfull
  · show 0 ≤ if stats.maxDeltaDb < deltaDb then _ else _
    split_ifs with hmore
    · exact Int32.le_trans hdelta (Int32.le_of_lt hmore)
    · exact hdelta

/-- Reasons and statistics that can be stored. -/
structure Storable (a : ActiveBundle) : Prop where
  reasoned : Reasoned a
  stats : ∀ type, statsAreValid (a.bundle.stats type) (a.bundle.hasReason type) = true

theorem Storable.attach {a : ActiveBundle} (h : Storable a) (type : EventType)
    (peakDbm deltaDb : Int32) (hreasoned : Reasoned { a with
      bundle := a.bundle.attachReason type peakDbm deltaDb }) :
    Storable { a with bundle := a.bundle.attachReason type peakDbm deltaDb } := by
  refine ⟨hreasoned, fun type' => ?_⟩
  by_cases htype : type = type'
  · subst htype
    rw [(EventBundle.hasReason_attachReason ..).mpr (.inl rfl)]
    cases type with
    | strongDischarge => exact statsAreValid_updateStats (h.stats .strongDischarge) peakDbm 0
    | suddenChange => exact statsAreValid_updateStats (h.stats .suddenChange) peakDbm deltaDb
  · have hreason : (a.bundle.attachReason type peakDbm deltaDb).hasReason type' =
        a.bundle.hasReason type' := by
      rw [Bool.eq_iff_iff, EventBundle.hasReason_attachReason]
      exact or_iff_right htype
    have hstats : (a.bundle.attachReason type peakDbm deltaDb).stats type' =
        a.bundle.stats type' := by
      cases type <;> cases type' <;> first | rfl | exact absurd rfl htype
    rw [hreason, hstats]
    exact h.stats type'

theorem Storable.of_eq {a a' : ActiveBundle} (h : Storable a)
    (hmask : a'.bundle.reasonMask = a.bundle.reasonMask)
    (hstats : a'.bundle.stats = a.bundle.stats) : Storable a' := by
  refine ⟨?_, fun type => ?_⟩
  · rw [Reasoned, hmask]
    exact h.reasoned
  · rw [hstats, EventBundle.hasReason, hmask]
    exact h.stats type

theorem storable_newBundle {reasonMask : UInt8} {deltaDb : Int32} (id : UInt64)
    (history : List PublishedSnapshot) (snapshot : PublishedSnapshot)
    (observedAt observedAtUtc : Nanoseconds) (peakDbm : Int32)
    (hreason : reasonMask = 1 ∨ reasonMask = 2 ∨ reasonMask = 3)
    (hdelta : reasonMask &&& kSuddenReason ≠ 0 → 0 ≤ deltaDb) :
    Storable ⟨newBundle id history reasonMask snapshot observedAt observedAtUtc peakDbm deltaDb,
      0, false⟩ := by
  have hone : (0 : UInt32) < 1 := by decide
  refine ⟨hreason, EventType.both ?_ ?_⟩
  · show statsAreValid (if reasonMask &&& kStrongReason ≠ 0 then ⟨1, peakDbm, 0⟩ else {})
      (decide (reasonMask &&& kStrongReason ≠ 0)) = true
    by_cases hbit : reasonMask &&& kStrongReason ≠ 0
    · rw [if_pos hbit, decide_eq_true hbit]
      exact statsAreValid_present.mpr ⟨hone, Int32.le_refl 0⟩
    · rw [if_neg hbit, decide_eq_false hbit]
      exact statsAreValid_absent.mpr rfl
  · show statsAreValid (if reasonMask &&& kSuddenReason ≠ 0 then ⟨1, peakDbm, deltaDb⟩ else {})
      (decide (reasonMask &&& kSuddenReason ≠ 0)) = true
    by_cases hbit : reasonMask &&& kSuddenReason ≠ 0
    · rw [if_pos hbit, decide_eq_true hbit]
      exact statsAreValid_present.mpr ⟨hone, hdelta hbit⟩
    · rw [if_neg hbit, decide_eq_false hbit]
      exact statsAreValid_absent.mpr rfl

theorem storable_lifecycle (options : EventOptions) :
    Lifecycle options (fun calls a => Readings calls → Storable a)
      (fun calls a => Readings calls → Storable a) where
  close := by
    intro calls eventOptions now a h hparsed
    refine (h hparsed).of_eq (reasonMask_closeCollection _ _ _) ?_
    rw [ActiveBundle.closeCollection]
    split_ifs <;> rfl
  finish _ _ h := h
  later _ _ _ h hparsed := h hparsed.of_append
  keep _ _ _ _ h hparsed := h hparsed.of_append
  post := by
    intro calls snapshot _ _ _ a _ h hparsed
    refine (h hparsed.of_append).of_eq (reasonMask_appendPostFrame _ _) ?_
    rw [ActiveBundle.appendPostFrame]
    split_ifs <;> rfl
  attach := by
    intro calls a type peakDbm deltaDb h hparsed
    have hreasoned := (reasoned_lifecycle options).attach calls a type peakDbm deltaDb
      (h hparsed).reasoned
    exact (h hparsed).attach type peakDbm deltaDb hreasoned
  create := by
    intro calls snapshot observedAt fresh observedAtUtc reasonMask deltaDb hnew hroute hparsed
    have hreasoned := (reasoned_lifecycle options).create calls snapshot observedAt fresh
      observedAtUtc reasonMask deltaDb hnew hroute
    refine storable_newBundle _ _ _ _ _ _ hreasoned fun hbit => ?_
    have hroutes := routesOf_cases (run options calls).detector snapshot observedAt fresh
    obtain ⟨hbits, -, -, hdelta⟩ := hroutes.create_mem hroute
    rw [hdelta ((hbits .suddenChange).trans (decide_eq_true hbit))]
    exact sighting_delta_nonneg options hparsed

/-! ### What is returned -/

theorem enqueue_completed {s : EventDetector} {bundle bundle' : EventBundle}
    (h : bundle' ∈ (s.enqueue bundle).completed) : bundle' ∈ s.completed ∨ bundle' = bundle := by
  rw [enqueue] at h
  split_ifs at h with hnone hfull
  · exact .inl h
  · rcases List.mem_append.mp h with h | h
    · exact .inl (List.mem_of_mem_tail h)
    · exact .inr (List.mem_singleton.mp h)
  · rcases List.mem_append.mp h with h | h
    · exact .inl h
    · exact .inr (List.mem_singleton.mp h)

theorem ExpireSlot.completed {s s' : EventDetector} {now : Nanoseconds} {slot : Slot}
    {emitted : Option ActiveBundle} {bundle : EventBundle} (h : ExpireSlot s now slot s' emitted)
    (hbundle : bundle ∈ s'.completed) :
    bundle ∈ s.completed ∨ ∃ a ∈ emitted.toList, a.bundle = bundle := by
  cases h with
  | free _ => exact .inl hbundle
  | kept _ _ => exact .inl hbundle
  | handed _ _ =>
    rcases enqueue_completed hbundle with hbundle | hbundle
    · exact .inl hbundle
    · exact .inr ⟨_, List.mem_singleton_self _, hbundle.symm⟩

theorem expire_completed {s : EventDetector} {now : Nanoseconds} {bundle : EventBundle}
    (hbundle : bundle ∈ (s.expire now).completed) :
    bundle ∈ s.completed ∨ ∃ a ∈ s.emissions now, a.bundle = bundle := by
  rcases (expireSlot_cases _ now 1).completed hbundle with hbundle | ⟨a, ha, rfl⟩
  · rcases (expireSlot_cases s now 0).completed hbundle with hbundle | ⟨a, ha, rfl⟩
    · exact .inl hbundle
    · exact .inr ⟨a, List.mem_append_left _ ha, rfl⟩
  · exact .inr ⟨a, List.mem_append_right _ ha, rfl⟩

/-- What waits or was returned has been handed over by `expire`. -/
theorem run_emitted (options : EventOptions) (calls : List Call) :
    ∀ bundle, bundle ∈ (run options calls).detector.completed ∨ bundle ∈ (run options calls).taken →
      ∃ a ∈ (run options calls).emitted, a.bundle = bundle := by
  induction calls using List.reverseRecOn with
  | nil =>
    rintro bundle (hbundle | hbundle) <;> cases hbundle
  | append_singleton calls call ih =>
    rw [run_append]
    generalize run options calls = r at ih ⊢
    have hexpire : ∀ now bundle, bundle ∈ (r.detector.expire now).completed →
        ∃ a ∈ r.emitted ++ r.detector.emissions now, a.bundle = bundle := by
      intro now bundle hbundle
      rcases expire_completed hbundle with hbundle | ⟨a, ha, rfl⟩
      · obtain ⟨a, ha, rfl⟩ := ih bundle (.inl hbundle)
        exact ⟨a, List.mem_append_left _ ha, rfl⟩
      · exact ⟨a, List.mem_append_right _ ha, rfl⟩
    have htaken : ∀ now bundle, bundle ∈ r.taken →
        ∃ a ∈ r.emitted ++ r.detector.emissions now, a.bundle = bundle := by
      intro now bundle hbundle
      obtain ⟨a, ha, rfl⟩ := ih bundle (.inr hbundle)
      exact ⟨a, List.mem_append_left _ ha, rfl⟩
    intro bundle hbundle
    cases call with
    | observe snapshot observedAt fresh observedAtUtc =>
      rcases hbundle with hbundle | hbundle
      · refine hexpire observedAt bundle ?_
        rw [← (observe_queue r.detector snapshot observedAt fresh observedAtUtc).1]
        exact hbundle
      · exact htaken observedAt bundle hbundle
    | advance now =>
      rcases hbundle with hbundle | hbundle
      · cases hbundle
      · rcases List.mem_append.mp hbundle with hbundle | hbundle
        · exact htaken now bundle hbundle
        · exact hexpire now bundle hbundle
    | takeCompleted =>
      rcases hbundle with hbundle | hbundle
      · cases hbundle
      · rcases List.mem_append.mp hbundle with hbundle | hbundle
        · exact ih bundle (.inr hbundle)
        · exact ih bundle (.inl hbundle)
    | updateOptions eventOptions => exact ih bundle hbundle

theorem encodeFrames_isSome {frames : List PublishedSnapshot} (previous : List UInt64)
    (hnonzero : ∀ frame ∈ frames, frame.generation ≠ 0)
    (hsorted : frames.Pairwise fun frame frame' => frame.generation < frame'.generation)
    (hprevious : ∀ generation ∈ previous, ∀ frame ∈ frames, generation < frame.generation) :
    ∃ bytes, encodeFrames previous frames = some bytes := by
  induction frames generalizing previous with
  | nil => exact ⟨[], rfl⟩
  | cons frame frames ih =>
    rw [List.pairwise_cons] at hsorted
    have hfresh : frame.generation ∉ previous := fun hmem =>
      UInt64.lt_irrefl _ (hprevious _ hmem frame List.mem_cons_self)
    obtain ⟨bytes, hbytes⟩ := ih (previous ++ [frame.generation])
      (fun frame' hframe' => hnonzero frame' (List.mem_cons_of_mem _ hframe')) hsorted.2 (by
        intro generation hgeneration frame' hframe'
        rcases List.mem_append.mp hgeneration with hgeneration | hgeneration
        · exact hprevious generation hgeneration frame' (List.mem_cons_of_mem _ hframe')
        · rw [List.mem_singleton.mp hgeneration]
          exact hsorted.1 frame' hframe')
    rw [encodeFrames, if_neg (hnonzero frame List.mem_cons_self), if_neg hfresh, hbytes]
    exact ⟨_, rfl⟩

/-- In a run over readings, every bundle that is returned passes the checks of the store;
its frames are the newest two before the trigger, the trigger, and the next ones. -/
theorem detected_bundles_storable (options : EventOptions) (calls : List Call)
    (hparsed : Readings calls)
    (hutc : ∀ earlier snapshot observedAt fresh observedAtUtc,
      earlier ++ [.observe snapshot observedAt fresh observedAtUtc] <+: calls →
      (∃ type, (run options earlier).detector.raises snapshot observedAt fresh type = true) →
        0 ≤ observedAtUtc)
    (hfew : (run options calls).created < 2 ^ 64) :
    ∀ bundle ∈ (run options calls).taken,
      bundleIsValid bundle = true ∧ (encodeBundle bundle).isSome ∧
        (bundle.frames.Pairwise fun frame frame' => frame.generation < frame'.generation) ∧
        ∃ post, Story options calls bundle post := by
  intro bundle hbundle
  obtain ⟨a, ha, rfl⟩ := run_emitted options calls bundle (.inr hbundle)
  obtain ⟨post, hstory, -⟩ := run_story options calls a ha
  have hstorable := ((storable_lifecycle options).run calls).2 a ha hparsed
  have hmemory := run_remembers options calls
  obtain ⟨before, trigger, after, horigin, hframes, hpost, hcount⟩ := id hstory
  have hsublist := horigin.frames_sublist hpost
  rw [← hframes] at hsublist
  obtain ⟨earlier, fresh, hcall, hraised, hid, hcreated, -⟩ := horigin.call
  have hsorted := hmemory.sorted.sublist hsublist
  have hnonzero : ∀ frame ∈ a.bundle.frames, frame.generation ≠ 0 := fun frame hframe =>
    hmemory.nonzero frame (hsublist.subset hframe)
  have hvalid : bundleIsValid a.bundle = true := by
    have hid' : a.bundle.id ≠ 0 := by
      rw [hid, (run_accounted options earlier).nextBundleId, ne_eq, ← UInt64.toNat_inj,
        UInt64.toNat_ofNat_of_lt' (by rw [UInt64.size]; omega)]
      exact Nat.succ_ne_zero _
    have hmask : a.bundle.reasonMask ≠ 0 ∧ a.bundle.reasonMask &&& ~~~kReasonMask = 0 := by
      rcases hstorable.reasoned with hmask | hmask | hmask <;> rw [hmask] <;> decide
    have hfewFrames : a.bundle.frames.length ≤ kMaxEventFrames := by
      simp only [kPostFrameCount] at hcount
      simp only [hframes, List.length_append, List.length_cons, lastFrames, List.length_drop,
        kHistoryFrameCount, kMaxEventFrames]
      omega
    have hsome : a.bundle.frames.isEmpty = false := by
      rw [hframes, List.isEmpty_eq_false_iff]
      exact List.append_ne_nil_of_right_ne_nil _ (List.cons_ne_nil _ _)
    simp only [bundleIsValid, Bool.and_eq_true, decide_eq_true_eq, Bool.not_eq_true']
    exact ⟨⟨⟨⟨⟨⟨hid', hmask.1⟩, hmask.2⟩, hsome⟩, hfewFrames⟩, hstorable.stats .strongDischarge⟩,
      hstorable.stats .suddenChange⟩
  have htime : ∃ milliseconds, timestampMilliseconds a.bundle.firstTriggeredAtUtc =
      some milliseconds := by
    have hepoch := hutc earlier trigger _ fresh _ hcall hraised
    refine ⟨_, if_neg (Int.not_lt.mpr ?_)⟩
    exact Int.tdiv_nonneg hepoch (by decide)
  obtain ⟨milliseconds, hmilliseconds⟩ := htime
  obtain ⟨bytes, hbytes⟩ := encodeFrames_isSome [] hnonzero hsorted (List.forall_mem_nil _)
  obtain ⟨encoded, hencoded⟩ := encodeBundle_isSome hmilliseconds hvalid hbytes
  exact ⟨hvalid, by rw [hencoded, Option.isSome_some], hsorted, post, hstory⟩

/-! ### A run with one event -/

theorem merged_closeCollection (a : ActiveBundle) (options : EventOptions) (now : Nanoseconds) :
    (a.closeCollection options now).merged options now = a.merged options now := by
  rw [ActiveBundle.closeCollection]
  split_ifs <;> rfl

/-- The bundle a first strong peak starts. -/
def firstBundle (snapshot : PublishedSnapshot) : ActiveBundle :=
  ⟨newBundle 1 [] kStrongReason snapshot 0 0
    (peakOf snapshot) 0, 0, false⟩

section First

variable {options : EventOptions} {snapshot : PublishedSnapshot}

/-- A new detector sees a strong peak. -/
theorem first_sighting (hgeneration : snapshot.generation ≠ 0)
    (hvalid : validPeak snapshot true = true)
    (hpeak : options.strongTriggerDbm ≤ peakOf snapshot) :
    (expire { options := options } 0).isNew snapshot.generation = true ∧
      sighting { options := options } snapshot 0 true =
        ({ options := options, strongArmed := false, previousValidPeak := some (peakOf snapshot) },
          { peakDbm := peakOf snapshot, deltaDb := 0, mask := kStrongReason }) := by
  have hnew : (expire { options := options } 0).isNew snapshot.generation = true := by
    show (decide (snapshot.generation ≠ 0) && true) = true
    rw [decide_eq_true hgeneration]
    rfl
  have hempty : (expire { options := options } 0).appendPostFrame snapshot =
      { options := options } := rfl
  refine ⟨hnew, ?_⟩
  rw [sighting, if_pos hnew, hempty, detect, if_pos hvalid]
  simp [hpeak, suddenDelta]

/-- It disarms, and has one active bundle. -/
theorem first_observation (hgeneration : snapshot.generation ≠ 0)
    (hvalid : validPeak snapshot true = true)
    (hpeak : options.strongTriggerDbm ≤ peakOf snapshot) :
    (observe { options := options } snapshot 0 true 0).active =
        Function.update (fun _ => none) 0 (some (firstBundle snapshot)) ∧
      (observe { options := options } snapshot 0 true 0).strongArmed = false := by
  obtain ⟨hnew, hsighting⟩ := first_sighting hgeneration hvalid hpeak
  have hroutes : routesOf { options := options } snapshot 0 true =
      [.createBundle kStrongReason 0] := by
    rw [routesOf, hsighting, routes, if_neg (show ¬ (kStrongReason &&& kStrongReason ≠ 0 ∧
      kStrongReason &&& kSuddenReason ≠ 0) by decide), if_pos (show kStrongReason &&&
      kStrongReason ≠ 0 by decide)]
    rfl
  rw [observe_eq, if_pos hnew, hroutes, hsighting]
  exact ⟨rfl, rfl⟩

end First

/-- A reading of zeros, with a peak of 0 dBm. -/
def sampleSnapshot : PublishedSnapshot where
  generation := 1
  startedAt := 0
  completedAt := 0
  pollDuration := 0
  payload := parsePd1000Registers (Vector.replicate kPd1000RegisterCount 0)

theorem sampleSnapshot_peak : sampleSnapshot.payload.measurements.get 2 = ⟨0, 0, true⟩ := by
  show signedMeasurement (Vector.get (Vector.replicate kPd1000RegisterCount 0) ⟨2, _⟩) (-70) 15 = _
  decide

theorem sampleSnapshot_valid : validPeak sampleSnapshot true = true := by
  have hstatus : sampleSnapshot.payload.payloadStatus ≠ .notRefreshed := by
    rw [sampleSnapshot]
    simp only [parsePd1000Registers]
    rw [if_neg]
    · split_ifs <;> decide
    · rw [Vector.all_eq_true]
      intro h
      have hfirst : (0 : UInt16) = kNotRefreshedMarker := by
        simpa [Vector.get] using of_decide_eq_true (h 0 (by decide))
      exact absurd hfirst (by decide)
  rw [validPeak, sampleSnapshot_peak]
  simpa using hstatus

/-- The bundle of a single strong peak is returned when its merge window is over. -/
theorem single_event (options : EventOptions) (snapshot : PublishedSnapshot) (now : Nanoseconds)
    (hgeneration : snapshot.generation ≠ 0) (hvalid : validPeak snapshot true = true)
    (hpeak : options.strongTriggerDbm ≤ peakOf snapshot)
    (hlimit : options.maxPendingBundles ≠ 0) (hover : options.mergeWindow ≤ now) :
    (run options [.observe snapshot 0 true 0, .advance now]).emitted =
        [(firstBundle snapshot).closeCollection options now] ∧
      (run options [.observe snapshot 0 true 0, .advance now]).taken =
        [((firstBundle snapshot).closeCollection options now).bundle] := by
  have hactive := (first_observation hgeneration hvalid hpeak).1
  obtain ⟨hcompleted, -, hoptions⟩ := observe_queue { options := options } snapshot 0 true 0
  show [] ++ [] ++ (observe { options := options } snapshot 0 true 0).emissions now = _ ∧
    [] ++ ((observe { options := options } snapshot 0 true 0).expire now).completed = _
  generalize observe { options := options } snapshot 0 true 0 = s at hactive hcompleted hoptions ⊢
  replace hoptions : s.options = options := hoptions
  have hfirst : s.active 0 = some (firstBundle snapshot) := by rw [hactive]; rfl
  have hsecond : s.active 1 = none := by rw [hactive]; rfl
  have hmerged : ((firstBundle snapshot).closeCollection s.options now).merged s.options now = true := by
    rw [merged_closeCollection, hoptions]
    exact decide_eq_true (show (0 : Int) + _ ≤ _ by rwa [Int.zero_add])
  have hslot : s.expireSlot now 0 =
      (s.enqueue ((firstBundle snapshot).closeCollection s.options now).bundle).setActive 0 none := by
    simp only [expireSlot, hfirst, hmerged, if_true]
  have hrest : (s.expireSlot now 0).active 1 = none := by
    rw [hslot, setActive_of_ne _ (by decide), enqueue_active, hsecond]
  constructor
  · rw [emissions_eq, emission, emission, hfirst, hsecond]
    simp only [hmerged, if_true]
    rw [hoptions]
    rfl
  · have hsame : s.expire now = s.expireSlot now 0 := by
      rw [expire, expireSlot, hrest]
    have hempty : s.completed = [] := hcompleted
    rw [hsame, hslot, enqueue, if_neg (hoptions ▸ hlimit), hempty, hoptions,
      if_neg (show ¬ options.maxPendingBundles ≤ ([] : List EventBundle).length from
        fun hle => hlimit (Nat.le_zero.mp hle))]
    rfl

/-- A call creates one bundle at most. -/
theorem created_le_length (options : EventOptions) (calls : List Call) :
    (run options calls).created ≤ calls.length := by
  induction calls using List.reverseRecOn with
  | nil => exact Nat.le_refl 0
  | append_singleton calls call ih =>
    rw [run_append, List.length_append, List.length_singleton]
    cases call with
    | observe snapshot observedAt fresh observedAtUtc =>
      exact Nat.add_le_add ih (routesOf_cases _ snapshot observedAt fresh).countP_isCreate_le
    | advance now => exact Nat.le_succ_of_le ih
    | takeCompleted => exact Nat.le_succ_of_le ih
    | updateOptions eventOptions => exact Nat.le_succ_of_le ih

theorem strong_peak_storable :
    ∃ bundle ∈ (run {} [.observe sampleSnapshot 0 true 0, .advance (seconds 60)]).taken,
      bundleIsValid bundle = true ∧ (encodeBundle bundle).isSome := by
  obtain ⟨-, htaken⟩ := single_event {} sampleSnapshot (seconds 60) (by decide)
    sampleSnapshot_valid (by rw [peakOf, sampleSnapshot_peak]; decide) (by decide) (by decide)
  have hstorable := detected_bundles_storable {}
    [.observe sampleSnapshot 0 true 0, .advance (seconds 60)] ?_ ?_ ?_
  · obtain ⟨hvalid, hencoded, -⟩ := hstorable _ (htaken ▸ List.mem_singleton_self _)
    exact ⟨_, htaken ▸ List.mem_singleton_self _, hvalid, hencoded⟩
  · intro snapshot observedAt fresh observedAtUtc hcall
    simp only [List.mem_cons, Call.observe.injEq, reduceCtorEq, List.not_mem_nil, or_false] at hcall
    rw [hcall.1]
    exact ⟨_, rfl⟩
  · intro earlier snapshot observedAt fresh observedAtUtc hcalls _
    have hcall := hcalls.subset (List.mem_append_right earlier List.mem_cons_self)
    simp only [List.mem_cons, Call.observe.injEq, reduceCtorEq, List.not_mem_nil, or_false] at hcall
    exact Int.le_of_eq hcall.2.2.2.symm
  · exact Nat.lt_of_le_of_lt (created_le_length _ _) (by decide)

/-! ### The partial flag -/

/-- The flag is set when the collection is closed with frames missing. -/
structure Flagged (a : ActiveBundle) : Prop where
  flag : a.bundle.isPartial = (a.collectionClosed && decide (a.postFrames < kPostFrameCount))
  still : a.collectionClosed = false → a.postFrames < kPostFrameCount

/-- The flag says whether fewer than three frames came after the trigger. -/
def Truthful (a : ActiveBundle) : Prop := a.bundle.isPartial = true ↔ a.postFrames < kPostFrameCount

theorem Flagged.truthful_iff {a : ActiveBundle} (h : Flagged a) :
    Truthful a ↔ a.collectionClosed = true := by
  rw [Truthful, h.flag]
  cases hclosed : a.collectionClosed with
  | false => simp [h.still hclosed]
  | true => simp

theorem flagged_lifecycle (options : EventOptions) :
    Lifecycle options (fun _ => Flagged) (fun _ => Flagged) where
  close := by
    intro _ eventOptions now a h
    rw [ActiveBundle.closeCollection]
    split_ifs with hdue
    · exact ⟨rfl, fun hstill => Bool.noConfusion hstill⟩
    · exact h
  finish _ _ h := h
  later _ _ _ h := h
  keep _ _ _ _ h := h
  post := by
    intro _ snapshot _ _ _ a _ h
    rw [ActiveBundle.appendPostFrame]
    split_ifs with hskip
    · exact h
    · rw [Bool.not_eq_true, Bool.or_eq_false_iff] at hskip
      refine ⟨?_, fun hstill => Nat.not_le.mp (of_decide_eq_false hstill)⟩
      -- a collection that ends with its last frame is not partial
      show a.bundle.isPartial = (decide (kPostFrameCount ≤ a.postFrames + 1) &&
        decide (a.postFrames + 1 < kPostFrameCount))
      rw [h.flag, hskip.1, Bool.false_and, ← Bool.decide_and, eq_comm, decide_eq_false_iff_not]
      exact fun hboth => Nat.not_lt.mpr hboth.1 hboth.2
  attach := by
    intro _ a type peakDbm deltaDb h
    cases type with
    | strongDischarge => exact ⟨h.flag, h.still⟩
    | suddenChange => exact ⟨h.flag, h.still⟩
  create _ _ _ _ _ _ _ _ _ := ⟨rfl, fun _ => Nat.succ_pos 2⟩

/-- No merge window ends while its bundle is collecting and the timeout has not come. -/
def ClosesFirst (s : EventDetector) (now : Nanoseconds) : Prop :=
  ∀ slot a, s.active slot = some a → a.merged s.options now = true →
    a.collectionClosed = true ∨
      a.bundle.firstTriggeredAt + s.options.postCollectionTimeout ≤ now

/-- What has to hold before a call: `expire` hands over closed collections only. -/
def Timely (s : EventDetector) : Call → Prop
  | .observe _ observedAt _ _ => s.ClosesFirst observedAt
  | .advance now => s.ClosesFirst now
  | .takeCompleted => True
  | .updateOptions _ => True

theorem mem_emissions {s : EventDetector} {now : Nanoseconds} {a' : ActiveBundle} :
    a' ∈ s.emissions now ↔ ∃ slot a, s.active slot = some a ∧ a.merged s.options now = true ∧
      a' = a.closeCollection s.options now := by
  have hslot : ∀ slot, a' ∈ (s.emission now slot).toList ↔ ∃ a, s.active slot = some a ∧
      a.merged s.options now = true ∧ a' = a.closeCollection s.options now := by
    intro slot
    rw [Option.mem_toList, emission]
    cases s.active slot with
    | none => simp
    | some a =>
      simp only [merged_closeCollection]
      split_ifs with hover
      · constructor
        · intro h
          exact ⟨a, rfl, hover, (Option.some.inj h).symm⟩
        · rintro ⟨_, ⟨⟩, -, rfl⟩
          rfl
      · simp [hover]
  rw [emissions_eq, List.mem_append, hslot, hslot]
  constructor
  · rintro (h | h)
    · exact ⟨0, h⟩
    · exact ⟨1, h⟩
  · rintro ⟨slot, h⟩
    obtain rfl | rfl : slot = 0 ∨ slot = 1 := by
      clear h
      revert slot
      decide
    · exact .inl h
    · exact .inr h

theorem closed_closeCollection (a : ActiveBundle) (options : EventOptions) (now : Nanoseconds) :
    (a.closeCollection options now).collectionClosed = true ↔ a.collectionClosed = true ∨
      a.bundle.firstTriggeredAt + options.postCollectionTimeout ≤ now := by
  rw [ActiveBundle.closeCollection]
  cases hclosed : a.collectionClosed with
  | true => simp [hclosed]
  | false =>
    by_cases hdue : a.bundle.firstTriggeredAt + options.postCollectionTimeout ≤ now
    · simp [hdue]
    · simp [hdue, hclosed]

theorem closesFirst_iff {s : EventDetector} {now : Nanoseconds} :
    s.ClosesFirst now ↔ ∀ a ∈ s.emissions now, a.collectionClosed = true := by
  constructor
  · intro h a' ha'
    obtain ⟨slot, a, ha, hover, rfl⟩ := mem_emissions.mp ha'
    exact (closed_closeCollection a s.options now).mpr (h slot a ha hover)
  · intro h slot a ha hover
    exact (closed_closeCollection a s.options now).mp
      (h _ (mem_emissions.mpr ⟨slot, a, ha, hover, rfl⟩))

/-- The merge window ends no earlier than the collection. -/
theorem closesFirst_of_mergeWindow (s : EventDetector) (now : Nanoseconds)
    (h : s.options.postCollectionTimeout ≤ s.options.mergeWindow) : s.ClosesFirst now := by
  intro slot a _ hover
  have hmerged : a.bundle.firstTriggeredAt + s.options.mergeWindow ≤ now := of_decide_eq_true hover
  exact .inr (Int.le_trans (Int.add_le_add_left h _) hmerged)

/-- The closed collections of a run, call by call. -/
theorem emitted_closed_iff (options : EventOptions) (calls : List Call) :
    (∀ a ∈ (run options calls).emitted, a.collectionClosed = true) ↔
      ∀ earlier call, earlier ++ [call] <+: calls → (run options earlier).detector.Timely call := by
  induction calls using List.reverseRecOn with
  | nil =>
    refine ⟨fun _ earlier call hcall => ?_, fun _ => List.forall_mem_nil _⟩
    exact absurd (List.prefix_nil.mp hcall)
      (List.append_ne_nil_of_right_ne_nil earlier (List.cons_ne_nil call []))
  | append_singleton calls call ih =>
    -- the new call is timely exactly if what it hands over is closed
    have hnow : (∀ a ∈ (run options (calls ++ [call])).emitted, a.collectionClosed = true) ↔
        (∀ a ∈ (run options calls).emitted, a.collectionClosed = true) ∧
          (run options calls).detector.Timely call := by
      rw [run_append]
      cases call with
      | observe snapshot observedAt fresh observedAtUtc =>
        exact List.forall_mem_append.trans (and_congr_right' closesFirst_iff.symm)
      | advance now => exact List.forall_mem_append.trans (and_congr_right' closesFirst_iff.symm)
      | takeCompleted => exact (and_iff_left trivial).symm
      | updateOptions eventOptions => exact (and_iff_left trivial).symm
    rw [hnow, ih]
    constructor
    · rintro ⟨hbefore, hcall⟩ earlier call' hcalls
      rcases List.prefix_concat_iff.mp hcalls with heq | hcalls
      · obtain ⟨rfl, hlast⟩ := List.append_inj' heq rfl
        obtain rfl := List.singleton_inj.mp hlast
        exact hcall
      · exact hbefore earlier call' hcalls
    · intro h
      exact ⟨fun earlier call' hcalls => h earlier call' (hcalls.trans (List.prefix_append _ _)),
        h calls call List.prefix_rfl⟩

/-- A bundle has the frames its counter says, and the flag of every bundle tells the truth
exactly if no merge window ends while a collection is open before its timeout. -/
theorem partial_flag_truthful_iff (options : EventOptions) (calls : List Call) :
    (∀ a ∈ (run options calls).emitted,
      ∃ post, Story options calls a.bundle post ∧ post.length = a.postFrames) ∧
    ((∀ a ∈ (run options calls).emitted,
        (a.bundle.isPartial = true ↔ a.postFrames < kPostFrameCount)) ↔
      ∀ earlier call, earlier ++ [call] <+: calls →
        (run options earlier).detector.Timely call) := by
  refine ⟨run_story options calls, ?_⟩
  rw [← emitted_closed_iff]
  have hflagged := ((flagged_lifecycle options).run calls).2
  constructor
  · intro h a ha
    exact (hflagged a ha).truthful_iff.mp (h a ha)
  · intro h a ha
    exact (hflagged a ha).truthful_iff.mpr (h a ha)

/-- With a merge window of ten seconds, a bundle without any frame after its trigger is
returned as complete. -/
theorem complete_without_post_frames :
    ¬ (∀ a ∈ (run { mergeWindow := seconds 10 }
        [.observe sampleSnapshot 0 true 0, .advance (seconds 10)]).emitted,
      (a.bundle.isPartial = true ↔ a.postFrames < kPostFrameCount)) ∧
    ∃ bundle ∈ (run { mergeWindow := seconds 10 }
        [.observe sampleSnapshot 0 true 0, .advance (seconds 10)]).taken,
      bundle.isPartial = false ∧ bundle.frames = [sampleSnapshot] := by
  obtain ⟨hemitted, htaken⟩ := single_event { mergeWindow := seconds 10 } sampleSnapshot (seconds 10)
    (by decide) sampleSnapshot_valid
    (by rw [peakOf, sampleSnapshot_peak]; decide) (by decide) (by decide)
  rw [hemitted, htaken]
  have hopen : (firstBundle sampleSnapshot).closeCollection { mergeWindow := seconds 10 } (seconds 10) =
      firstBundle sampleSnapshot := if_neg (by decide)
  rw [hopen]
  constructor
  · intro h
    exact absurd ((h _ (List.mem_singleton_self _)).mpr (by decide)) Bool.false_ne_true
  · exact ⟨_, List.mem_singleton_self _, rfl, rfl⟩

end EventDetector

end Uhf.Storage
