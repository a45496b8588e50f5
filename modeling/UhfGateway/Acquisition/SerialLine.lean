/-
Which bytes a published block is decoded from.

The line is a stream of bytes with the time at which each arrives; what has arrived
and has not been read waits in the receive buffer, which is read in order.  Time is
counted in acts of the engine, so that "after the request was written" has its exact
meaning.

* `published_blocks_follow_iff` — the published blocks are decoded from bytes that
  arrived after their requests if and only if the buffer was empty at these requests;
* `surplus_response_published` — a response that is sent twice becomes the next block.
-/
import Mathlib.Data.List.Induction
import UhfGateway.Acquisition.Requests

namespace Uhf.Acquisition

open Domain Effects

/-! ### The line -/

/-- A stream of bytes; byte `j` arrives during act `arrival j` of the engine. -/
structure SerialLine where
  byte : ℕ → UInt8
  arrival : ℕ → ℕ
  ordered : ∀ i j, i ≤ j → arrival i ≤ arrival j

namespace SerialLine

/-- The reads of the trace take the bytes of the line in order, after their arrival. -/
def Carries (line : SerialLine) (trace : Trace pollCalls) : Prop :=
  ∀ before act after, trace = before ++ act :: after → ∀ k < (taken act).length,
    (taken act)[k]? = some (line.byte ((received before).length + k)) ∧
      line.arrival ((received before).length + k) ≤ before.length

/-- Byte `j` is in the receive buffer when the act after `before` is over, unless this
act has read it. -/
def Waiting (line : SerialLine) (before : Trace pollCalls) (j : ℕ) : Prop :=
  (received before).length ≤ j ∧ line.arrival j ≤ before.length

theorem Carries.received {line : SerialLine} {trace : Trace pollCalls} (h : line.Carries trace)
    {before after : Trace pollCalls} (htrace : trace = before ++ after) {j : ℕ}
    (hj : j < (received before).length) : (received before)[j]? = some (line.byte j) := by
  induction before using List.reverseRecOn generalizing after with
  | nil => exact absurd hj (Nat.not_lt_zero j)
  | append_singleton before act ih =>
    rw [List.append_assoc, List.singleton_append] at htrace
    rw [received_append, received_cons] at hj ⊢
    rw [show Acquisition.received ([] : Trace pollCalls) = [] from rfl, List.append_nil] at hj ⊢
    by_cases hbefore : j < (Acquisition.received before).length
    · rw [List.getElem?_append_left hbefore]
      exact ih htrace hbefore
    · rw [List.length_append] at hj
      obtain ⟨k, rfl⟩ : ∃ k, j = (Acquisition.received before).length + k :=
        ⟨_, (Nat.add_sub_of_le (by omega)).symm⟩
      rw [List.getElem?_append_right (by omega), Nat.add_sub_cancel_left]
      exact (h before act after htrace k (by omega)).1

end SerialLine

/-! ### Blocks and the bytes before their requests -/

/-- Byte `j` of the line belongs to the response accepted for the block whose last
request comes after `before`. -/
def DecodedFrom (before : Trace pollCalls) (index j : ℕ) : Prop :=
  (received before).length ≤ j ∧ j < (received before).length + (5 + blockSize index * 2)

/-- Every block is decoded from bytes that arrived after its last request. -/
def BlocksFollowRequests (options : AcquisitionOptions) (line : SerialLine)
    (trace : Trace pollCalls) : Prop :=
  ∀ index < kPd1000RequestCount, ∀ before after,
    LastRequest trace (plannedRequest options.slaveId index).wireFrame before after →
      ∀ j, DecodedFrom before index j → before.length < line.arrival j

/-- No block is decoded from a byte that was waiting when some request was written. -/
def SurplusUnused (options : AcquisitionOptions) (line : SerialLine) (trace : Trace pollCalls) :
    Prop :=
  ∀ data ok first rest, trace = first ++ Did.writeAll data ok :: rest →
    ∀ j, line.Waiting first j → ∀ index < kPd1000RequestCount, ∀ before after,
      LastRequest trace (plannedRequest options.slaveId index).wireFrame before after →
        ¬ DecodedFrom before index j

/-- The receive buffer is empty when the last request for each block is written. -/
def EmptyAtRequests (options : AcquisitionOptions) (line : SerialLine) (trace : Trace pollCalls) :
    Prop :=
  ∀ index < kPd1000RequestCount, ∀ before after,
    LastRequest trace (plannedRequest options.slaveId index).wireFrame before after →
      ∀ j, ¬ line.Waiting before j

/-- What is received before the next request is received before any later one. -/
theorem length_received_untilWrite_le (mid after : Trace pollCalls) (data : Bytes) (ok : Bool) :
    (received (untilWrite (mid ++ Did.writeAll data ok :: after))).length ≤
      (received mid).length := by
  induction mid with
  | nil => exact Nat.zero_le _
  | cons act mid ih =>
    rw [List.cons_append, untilWrite, List.takeWhile_cons]
    split
    · rw [received_cons, received_cons, List.length_append, List.length_append]
      exact Nat.add_le_add_left ih _
    · exact Nat.zero_le _

/-- By a later request, the whole response to the last request for a block has been
read. -/
theorem LastRequest.read_before {trace before after first rest : Trace pollCalls}
    {frame data : Bytes} {ok : Bool} (h : LastRequest trace frame before after)
    (hlater : trace = first ++ Did.writeAll data ok :: rest)
    (hlt : before.length < first.length) :
    (received before).length + (received (untilWrite after)).length ≤
      (received first).length := by
  have heq := h.split.symm.trans hlater
  obtain ⟨mid, hfirst, hafter⟩ | ⟨mid, hbefore, _⟩ := List.append_eq_append_iff.mp heq
  · cases mid with
    | nil =>
      rw [List.append_nil] at hfirst
      rw [hfirst] at hlt
      omega
    | cons act mid =>
      rw [List.cons_append] at hafter
      obtain ⟨rfl, rfl⟩ := List.cons.inj hafter
      have hread := length_received_untilWrite_le mid rest data ok
      rw [hfirst, received_append, received_cons, List.length_append, List.length_append]
      omega
  · rw [hbefore, List.length_append] at hlt
    omega

/-- Each word of a published block stands in the stream where the bytes read before
its last request end. -/
def DecodedInPlace (options : AcquisitionOptions) (line : SerialLine) (trace : Trace pollCalls)
    (payload : ParsedSnapshot) : Prop :=
  ∀ index < kPd1000RequestCount, ∃ before after,
    LastRequest trace (plannedRequest options.slaveId index).wireFrame before after ∧
    ∀ k < blockSize index, payload.rawRegisters[blockOffset index + k]? = some (bigEndian
      (line.byte ((received before).length + (kResponseHeaderBytes + k * 2)))
      (line.byte ((received before).length + (kResponseHeaderBytes + k * 2 + 1))))

theorem PublishingTrace.decoded {options : AcquisitionOptions} {trace : Trace pollCalls}
    {startedAt completedAt : Nanoseconds} {responses : List Bytes} {line : SerialLine}
    (h : PublishingTrace options trace startedAt completedAt responses)
    (hline : line.Carries trace) :
    DecodedInPlace options line trace (parsePd1000Registers (imageOf options responses)) := by
  intro index hindex
  have hlen : responses.length = kPd1000RequestCount := by
    obtain ⟨_, _, _, hblocks⟩ := h
    rw [hblocks.length, pd1000RequestPlan, List.length_map, List.length_range]
  obtain ⟨before, after, hlast, hreceived, hvalid, _⟩ := h.answer hindex
  refine ⟨before, after, hlast, fun k hk => ?_⟩
  -- the response is the stretch of the stream after the bytes read before
  have hbyte : ∀ i < 5 + blockSize index * 2,
      (responses.getD index []).getD i 0 = line.byte ((received before).length + i) := by
    intro i hi
    obtain ⟨reads, rest, hsplit, hreads⟩ : ∃ reads rest, after = reads ++ rest ∧
        received reads = responses.getD index [] :=
      ⟨untilWrite after, after.dropWhile fun act => !isWrite act,
        (List.takeWhile_append_dropWhile ..).symm, hreceived⟩
    have htrace : trace = (before ++ Did.writeAll
        (plannedRequest options.slaveId index).wireFrame true :: reads) ++ rest := by
      rw [hlast.split, hsplit]
      simp
    have hread : (received before).length + i < (received (before ++ Did.writeAll
        (plannedRequest options.slaveId index).wireFrame true :: reads)).length := by
      rw [received_append, received_cons, List.length_append, List.length_append, hreads,
        hvalid.length]
      omega
    have hstream := hline.received htrace hread
    rw [received_append, received_cons, hreads, List.getElem?_append_right (by omega),
      Nat.add_sub_cancel_left] at hstream
    rw [List.getD_eq_getElem?_getD, show (responses.getD index [])[i]? = _ from hstream]
    rfl
  have hin : blockOffset index + k < kPd1000RegisterCount := by
    have hend := blockOffset_add_le hindex
    rw [kPd1000RegisterCount]
    omega
  rw [parsePd1000Registers_rawRegisters, Vector.getElem?_eq_getElem hin,
    imageOf_block hlen hindex hk hin, responseWord]
  rw [hbyte _ (by rw [kResponseHeaderBytes]; omega), hbyte _ (by rw [kResponseHeaderBytes]; omega)]

/-! ### A line for a given trace -/

/-- The act that takes byte `j`. -/
def takenAt : Trace pollCalls → ℕ → ℕ
  | [], _ => 0
  | act :: trace, j =>
    if j < (taken act).length then 0 else takenAt trace (j - (taken act).length) + 1

theorem takenAt_mono (trace : Trace pollCalls) {i j : ℕ} (h : i ≤ j) :
    takenAt trace i ≤ takenAt trace j := by
  induction trace generalizing i j with
  | nil => exact Nat.le_refl _
  | cons act trace ih =>
    rw [takenAt, takenAt]
    by_cases hi : i < (taken act).length
    · rw [if_pos hi]
      exact Nat.zero_le _
    · rw [if_neg hi, if_neg (by omega)]
      exact Nat.add_le_add_right (ih (by omega)) 1

theorem takenAt_append (before rest : Trace pollCalls) (k : ℕ) :
    takenAt (before ++ rest) ((received before).length + k) = before.length + takenAt rest k := by
  induction before with
  | nil => simp [received]
  | cons act before ih =>
    rw [List.cons_append, takenAt, received_cons, List.length_append, if_neg (by omega),
      show (taken act).length + (received before).length + k - (taken act).length =
        (received before).length + k by omega, ih, List.length_cons]
    omega

theorem takenAt_lt {before rest : Trace pollCalls} {j : ℕ} (h : j < (received before).length) :
    takenAt (before ++ rest) j < before.length := by
  induction before generalizing j with
  | nil => exact absurd h (Nat.not_lt_zero j)
  | cons act before ih =>
    rw [received_cons, List.length_append] at h
    rw [List.cons_append, takenAt, List.length_cons]
    split
    · omega
    · exact Nat.add_lt_add_right (ih (by omega)) 1

/-- The line on which the bytes of a trace arrive, byte `j` when byte `due j` is read. -/
def lineOf (trace : Trace pollCalls) (due : ℕ → ℕ) (hdue : ∀ i j, i ≤ j → due i ≤ due j) :
    SerialLine where
  byte j := (received trace).getD j 0
  arrival j := takenAt trace (due j)
  ordered i j h := takenAt_mono trace (hdue i j h)

theorem lineOf_carries {trace : Trace pollCalls} {due : ℕ → ℕ}
    {hdue : ∀ i j, i ≤ j → due i ≤ due j} (hearly : ∀ j, due j ≤ j) :
    (lineOf trace due hdue).Carries trace := by
  rintro before act after rfl k hk
  constructor
  · show (taken act)[k]? = some ((received (before ++ act :: after)).getD _ 0)
    rw [received_append, received_cons, List.getD_append_right _ _ _ _ (by omega),
      Nat.add_sub_cancel_left, List.getD_append _ _ _ _ hk, List.getElem?_eq_getElem hk,
      List.getD_eq_getElem _ _ hk]
  · have hread := takenAt_append before (act :: after) k
    rw [takenAt, if_pos hk] at hread
    have hdue' := takenAt_mono (before ++ act :: after)
      (hearly ((received before).length + k))
    show takenAt _ (due _) ≤ before.length
    omega

/-- On a line whose bytes arrive as they are read, nothing waits at a request. -/
theorem lineOf_empty (options : AcquisitionOptions) (trace : Trace pollCalls) :
    EmptyAtRequests options (lineOf trace id fun _ _ h => h) trace := by
  intro index _ before after hlast j hwaiting
  obtain ⟨k, rfl⟩ : ∃ k, j = (received before).length + k :=
    ⟨_, (Nat.add_sub_of_le hwaiting.1).symm⟩
  have harrived : takenAt trace ((received before).length + k) ≤ before.length := hwaiting.2
  rw [hlast.split, takenAt_append, takenAt, taken_writeAll, List.length_nil,
    if_neg (Nat.not_lt_zero _)] at harrived
  omega

/-! ### Responses and requests -/

/-- A published cycle is decoded from the stream in place; the blocks come from bytes
that arrived after their requests, and no byte that waited at a request becomes part
of one, exactly if the buffer was empty at the last request for each block. -/
theorem published_blocks_follow_iff {options : AcquisitionOptions} {fuel : ℕ}
    {trace : Trace pollCalls} {line : SerialLine}
    (h : (pollOnce options fuel).Exec trace (.returned true [])) (hline : line.Carries trace) :
    (∃ payload startedAt completedAt, publications trace = [⟨payload, startedAt, completedAt⟩] ∧
        DecodedInPlace options line trace payload) ∧
      (BlocksFollowRequests options line trace ∧ SurplusUnused options line trace ↔
        EmptyAtRequests options line trace) := by
  obtain ⟨startedAt, completedAt, responses, hpublishing, _, _⟩ | ⟨failure, ended, _, hresult⟩ :=
    pollOnce_cases h
  · refine ⟨⟨_, startedAt, completedAt, (hpublishing.effects {}).1, hpublishing.decoded hline⟩,
      fun hboth index hindex before after hlast j hwaiting => ?_, fun hempty => ⟨?_, ?_⟩⟩
    · -- the first byte of the response arrived after the request, so all later ones did
      have hfirst := hboth.1 index hindex before after hlast (received before).length
        ⟨Nat.le_refl _, by omega⟩
      have hordered := line.ordered _ _ hwaiting.1
      have harrived := hwaiting.2
      omega
    · intro index hindex before after hlast j hdecoded
      have hnot := hempty index hindex before after hlast j
      rw [SerialLine.Waiting, not_and, Nat.not_le] at hnot
      exact hnot hdecoded.1
    · intro data ok first rest hrequest j hwaiting index hindex before after hlast hdecoded
      by_cases hlt : before.length < first.length
      · -- a request after the block: the response has been read by then
        obtain ⟨before', after', hlast', hreceived, hvalid, _⟩ := hpublishing.answer hindex
        obtain ⟨rfl, rfl⟩ := hlast.unique hlast'
        have hread := hlast.read_before hrequest hlt
        rw [hreceived, hvalid.length] at hread
        have hwait := hwaiting.1
        have hend := hdecoded.2
        omega
      · -- an earlier one: the byte would still wait at the last request for the block
        have harrived := hwaiting.2
        exact hempty index hindex before after hlast j ⟨hdecoded.1, by omega⟩
  · rw [afterQuarantine] at hresult
    split at hresult <;> cases hresult

/-- A cycle on a line whose bytes arrive as they are read. -/
theorem published_blocks_follow_punctual :
    ∃ trace line, (pollOnce {} 0).Exec trace (.returned true []) ∧ line.Carries trace ∧
      BlocksFollowRequests {} line trace ∧ SurplusUnused {} line trace := by
  obtain ⟨trace, hexec, _, _⟩ := exists_cooperative_cycle (Vector.replicate _ 0) 0
  have hcarries : (lineOf trace id fun _ _ h => h).Carries trace :=
    lineOf_carries fun j => Nat.le_refl j
  exact ⟨trace, _, hexec, hcarries,
    (published_blocks_follow_iff hexec hcarries).2.mpr (lineOf_empty {} trace)⟩

/-- The bytes of the `size` places from `start` on arrive with the byte before them. -/
def early (start size j : ℕ) : ℕ := if start ≤ j ∧ j < start + size then start - 1 else j

theorem early_mono (start size i j : ℕ) (h : i ≤ j) : early start size i ≤ early start size j := by
  rw [early, early]
  split <;> split <;> omega

/-- A response of 120 registers is sent twice: the second copy is in the buffer when
the next request is written, and is published as the answer to it. -/
theorem surplus_response_published :
    ∃ trace line, (pollOnce {} 0).Exec trace (.returned true []) ∧ line.Carries trace ∧
      ¬ BlocksFollowRequests {} line trace := by
  obtain ⟨trace, hexec, hpublishing, _⟩ := exists_cooperative_cycle (Vector.replicate _ 0) 0
  obtain ⟨before, after, hlast, _, _, hearlier⟩ :=
    hpublishing.answer (show 2 < kPd1000RequestCount by decide)
  have hsome := hearlier (by omega)
  refine ⟨trace, lineOf trace (early (received before).length 245) (early_mono _ _), hexec,
    lineOf_carries fun j => ?_, fun hfollow => ?_⟩
  · rw [early]
    split <;> omega
  · have hlate : before.length <
        takenAt trace (early (received before).length 245 (received before).length) :=
      hfollow 2 (by decide) before after hlast _ ⟨Nat.le_refl _, by omega⟩
    rw [early, if_pos (by omega), hlast.split] at hlate
    have hread : takenAt (before ++ Did.writeAll (plannedRequest 1 2).wireFrame true :: after)
        ((received before).length - 1) < before.length := takenAt_lt (by omega)
    exact absurd hlate (Nat.not_lt.mpr (Nat.le_of_lt hread))

end Uhf.Acquisition
