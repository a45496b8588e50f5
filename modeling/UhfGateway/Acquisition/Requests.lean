/-
Requests and the bytes that come after them.

In the trace of a published cycle every block of the plan has a last request, and
the response accepted for the block is what is received from there to the next
request.

* `PublishingTrace.answer` — this, for every block;
* `LastRequest.unique` — a trace has one last request for a frame;
* `PublishingTrace.image_eq` — if the device answers with its registers, they are what
  is published;
* `exists_cooperative_cycle` — there is such a cycle for every register image.
-/
import UhfGateway.Acquisition.AllOrNothing

namespace Uhf.Acquisition

open Domain Effects

/-! ### Bytes received, requests written -/

/-- The bytes one act has taken from the line. -/
def taken : Act pollCalls → Bytes
  | ⟨.readSome _ _, answer⟩ => answer.bytes
  | _ => []

/-- The bytes taken from the line, oldest first. -/
def received (trace : Trace pollCalls) : Bytes := trace.flatMap taken

def isWrite : Act pollCalls → Bool
  | ⟨.writeAll _, _⟩ => true
  | _ => false

/-- The acts before the next request. -/
def untilWrite (trace : Trace pollCalls) : Trace pollCalls :=
  trace.takeWhile fun act => !isWrite act

theorem received_append (trace later : Trace pollCalls) :
    received (trace ++ later) = received trace ++ received later := List.flatMap_append

theorem received_cons (act : Act pollCalls) (trace : Trace pollCalls) :
    received (act :: trace) = taken act ++ received trace := List.flatMap_cons

theorem taken_writeAll (data : Bytes) (ok : Bool) : taken (Did.writeAll data ok) = [] := rfl

theorem writeAll_data {data data' : Bytes} {ok ok' : Bool}
    (h : Did.writeAll data ok = Did.writeAll data' ok') : data = data' := by
  cases h
  rfl

/-- The stretch holds no request. -/
def NoWrite (trace : Trace pollCalls) : Prop := ∀ act ∈ trace, isWrite act = false

theorem untilWrite_append {trace : Trace pollCalls} (h : NoWrite trace) (later : Trace pollCalls) :
    untilWrite (trace ++ later) = trace ++ untilWrite later := by
  refine List.takeWhile_append_of_pos fun act hact => ?_
  rw [h act hact, Bool.not_false]

theorem untilWrite_write (data : Bytes) (ok : Bool) (later : Trace pollCalls) :
    untilWrite (Did.writeAll data ok :: later) = [] := rfl

theorem NoWrite.append {trace later : Trace pollCalls} (h : NoWrite trace) (h' : NoWrite later) :
    NoWrite (trace ++ later) := List.forall_mem_append.mpr ⟨h, h'⟩

theorem NoWrite.cons {act : Act pollCalls} {trace : Trace pollCalls}
    (hact : isWrite act = false) (h : NoWrite trace) : NoWrite (act :: trace) :=
  List.forall_mem_cons.mpr ⟨hact, h⟩

theorem NoWrite.nil : NoWrite [] := fun _ h => absurd h List.not_mem_nil

/-- The trace up to and from the last request with this frame. -/
structure LastRequest (trace : Trace pollCalls) (frame : Bytes) (before after : Trace pollCalls) :
    Prop where
  split : trace = before ++ Did.writeAll frame true :: after
  last : Did.writeAll frame true ∉ after

theorem LastRequest.unique {trace : Trace pollCalls} {frame : Bytes}
    {before after before' after' : Trace pollCalls} (h : LastRequest trace frame before after)
    (h' : LastRequest trace frame before' after') : before = before' ∧ after = after' := by
  have heq := h.split.symm.trans h'.split
  obtain ⟨mid, hb, ha⟩ | ⟨mid, hb, ha⟩ := List.append_eq_append_iff.mp heq
  -- an earlier one of the two would see the other one after it
  · cases mid with
    | nil =>
      rw [List.nil_append] at ha
      rw [List.append_nil] at hb
      exact ⟨hb.symm, (List.cons.inj ha).2⟩
    | cons act mid =>
      rw [List.cons_append] at ha
      refine absurd ?_ h.last
      rw [(List.cons.inj ha).2]
      simp
  · cases mid with
    | nil =>
      rw [List.nil_append] at ha
      rw [List.append_nil] at hb
      exact ⟨hb, (List.cons.inj ha).2.symm⟩
    | cons act mid =>
      rw [List.cons_append] at ha
      refine absurd ?_ h'.last
      rw [(List.cons.inj ha).2]
      simp

/-! ### The response to the last request of a block -/

theorem Delivered.reads {deadline : Nanoseconds} {size : ℕ} {trace : Trace pollCalls}
    {bytes : Bytes} (h : Delivered deadline size trace bytes) :
    received trace = bytes ∧ NoWrite trace := by
  induction h with
  | all => exact ⟨rfl, .nil⟩
  | chunk _ _ _ _ ih =>
    refine ⟨?_, .cons rfl (.cons rfl ih.2)⟩
    rw [received_cons, received_cons, ih.1]
    rfl

theorem Arrives.reads {deadline : Nanoseconds} {trace : Trace pollCalls} {response : Bytes}
    (h : Arrives deadline trace response) : received trace = response ∧ NoWrite trace := by
  obtain ⟨first, rest, header, body, rfl, rfl, hheader, hbody⟩ := h
  refine ⟨?_, hheader.reads.2.append hbody.reads.2⟩
  rw [received_append, hheader.reads.1, hbody.reads.1]

section Blocks

variable {options : AcquisitionOptions} {deadline : Nanoseconds} {planIndex : ℕ}
  {request : ModbusReadRequest}

theorem Pause.quiet {attempt : ℕ} {trace : Trace pollCalls}
    (h : Pause options deadline planIndex attempt trace) :
    received trace = [] ∧ NoWrite trace := by
  cases h with
  | none => exact ⟨rfl, .nil⟩
  | slept => exact ⟨rfl, .cons rfl (.cons rfl (.cons rfl .nil))⟩

/-- One attempt: nothing is received before its request. -/
theorem Asked.split {attempt : ℕ} {asking : Trace pollCalls} {sent : Nanoseconds}
    (h : Asked options deadline planIndex request attempt asking sent) :
    ∃ before, asking = before ++ [Did.writeAll request.wireFrame true, Did.now sent] ∧
      received before = [] ∧ NoWrite before := by
  obtain @⟨pause, check, sent, hpaused, _⟩ := h
  refine ⟨pause ++ [Did.now check], ?_, ?_, hpaused.quiet.2.append (.cons rfl .nil)⟩
  · rw [List.append_assoc]
    rfl
  · rw [received_append, hpaused.quiet.1]
    rfl

/-- An accepted block: the response is all that is received after the last request,
which is the last of the requests, all for this block. -/
theorem AcceptedBlock.answer {attempt : ℕ} {trace : Trace pollCalls} {response : Bytes}
    (h : AcceptedBlock options deadline planIndex request attempt trace response) :
    (∃ before after, trace = before ++ Did.writeAll request.wireFrame true :: after ∧
        NoWrite after ∧ received after = response) ∧
      (∀ later, received (untilWrite (trace ++ later)) = []) ∧
      (∀ data ok, Did.writeAll data ok ∈ trace → data = request.wireFrame) ∧
      ValidResponse options.slaveId request.registerCount.toNat response := by
  induction h with
  | @answered attempt asking reads sent response _ asked arrives valid =>
    obtain ⟨before, rfl, hbefore, hquiet⟩ := asked.split
    have hreads := arrives.reads
    have hafter : NoWrite (Did.now sent :: reads) := .cons rfl hreads.2
    have htrace : before ++ [Did.writeAll request.wireFrame true, Did.now sent] ++ reads =
        before ++ Did.writeAll request.wireFrame true :: (Did.now sent :: reads) := by
      rw [List.append_assoc]
      rfl
    rw [htrace]
    refine ⟨⟨before, _, rfl, hafter, hreads.1⟩, fun later => ?_, fun data ok hmem => ?_, valid⟩
    · rw [List.append_assoc, untilWrite_append hquiet, List.cons_append, untilWrite_write,
        List.append_nil, hbefore]
    · rw [List.mem_append, List.mem_cons] at hmem
      obtain hmem | hmem | hmem := hmem
      · exact absurd (hquiet _ hmem) Bool.noConfusion
      · exact writeAll_data hmem
      · exact absurd (hafter _ hmem) Bool.noConfusion
  | @retried attempt asking reads rest sent rejected response _ asked arrives _ _ ih =>
    obtain ⟨first, rfl, hfirst, hquiet⟩ := asked.split
    have hreads := arrives.reads
    have hbetween : NoWrite (Did.now sent :: reads) := .cons rfl hreads.2
    have htrace : first ++ [Did.writeAll request.wireFrame true, Did.now sent] ++ (reads ++ rest) =
        first ++ Did.writeAll request.wireFrame true :: (Did.now sent :: reads ++ rest) := by
      rw [List.append_assoc]
      rfl
    -- the last request is in the later attempts, the first one opens the trace
    obtain ⟨⟨before, after, hrest, hafter, hresponse⟩, _, hwrites, hvalid⟩ := ih
    rw [htrace]
    refine ⟨⟨first ++ Did.writeAll request.wireFrame true :: (Did.now sent :: reads ++ before),
      after, ?_, hafter, hresponse⟩, fun later => ?_, fun data ok hmem => ?_, hvalid⟩
    · rw [hrest]
      simp
    · rw [List.append_assoc, untilWrite_append hquiet, List.cons_append, untilWrite_write,
        List.append_nil, hfirst]
    · rw [List.mem_append, List.mem_cons, List.mem_append] at hmem
      obtain hmem | hmem | hmem | hmem := hmem
      · exact absurd (hquiet _ hmem) Bool.noConfusion
      · exact writeAll_data hmem
      · exact absurd (hbetween _ hmem) Bool.noConfusion
      · exact hwrites data ok hmem

end Blocks

theorem AcceptedBlocks.answers {options : AcquisitionOptions} {deadline : Nanoseconds}
    {index count : ℕ} {trace : Trace pollCalls} {responses : List Bytes}
    (h : AcceptedBlocks options deadline index (planFrom options.slaveId index count) trace
      responses) (hplan : index + count ≤ kPd1000RequestCount) {tail : Trace pollCalls}
    (htail : received (untilWrite tail) = []) (hnone : NoWrite tail) :
    received (untilWrite (trace ++ tail)) = [] ∧
      (∀ data ok, Did.writeAll data ok ∈ trace ++ tail → ∃ i, index ≤ i ∧
        i < kPd1000RequestCount ∧ data = (plannedRequest options.slaveId i).wireFrame) ∧
      ∀ k < count, ∃ before after,
        LastRequest (trace ++ tail) (plannedRequest options.slaveId (index + k)).wireFrame
          before after ∧
        received (untilWrite after) = responses.getD k [] ∧
        ValidResponse options.slaveId (blockSize (index + k)) (responses.getD k []) ∧
        (0 < k → 0 < (received before).length) := by
  induction count generalizing index trace responses with
  | zero =>
    cases h
    refine ⟨htail, fun data ok hmem => ?_, fun k hk => absurd hk (Nat.not_lt_zero k)⟩
    exact absurd (hnone _ hmem) Bool.noConfusion
  | succ count ih =>
    rw [planFrom_succ] at h
    obtain _ | @⟨_, _, _, first, later, response, responses, hfirst, hlater⟩ := h
    obtain ⟨hstart, hwrites, hrest⟩ := ih hlater (by omega)
    obtain ⟨⟨before, after, rfl, hafter, hresponse⟩, hquiet, hown, hvalid⟩ := hfirst.answer
    refine ⟨?_, fun data ok hmem => ?_, fun k hk => ?_⟩
    · rw [List.append_assoc]
      exact hquiet _
    · rw [List.append_assoc, List.mem_append] at hmem
      obtain hmem | hmem := hmem
      · exact ⟨index, by omega, by omega, hown data ok hmem⟩
      · obtain ⟨i, hi, hmax, hdata⟩ := hwrites data ok hmem
        exact ⟨i, by omega, hmax, hdata⟩
    · cases k with
      | zero =>
        refine ⟨before, after ++ (later ++ tail), ⟨by simp, ?_⟩, ?_, ?_, fun hpos => ?_⟩
        · intro hmem
          rw [List.mem_append] at hmem
          obtain hmem | hmem := hmem
          · exact absurd (hafter _ hmem) Bool.noConfusion
          · obtain ⟨i, hi, hmax, hframe⟩ := hwrites _ _ hmem
            have := wireFrame_injective options.slaveId (by omega) hmax hframe
            omega
        · rw [untilWrite_append hafter, received_append, hstart, List.append_nil, hresponse]
          rfl
        · rw [plannedRequest_count] at hvalid
          exact hvalid
        · omega
      | succ k =>
        obtain ⟨before', after', hlast, hreceived, hvalid', _⟩ := hrest k (by omega)
        rw [show index + (k + 1) = index + 1 + k by omega]
        refine ⟨before ++ Did.writeAll (plannedRequest options.slaveId index).wireFrame true ::
          (after ++ before'), after', ⟨?_, hlast.last⟩, hreceived, hvalid', fun _ => ?_⟩
        · rw [List.append_assoc, hlast.split]
          simp
        · -- the response to the first of these blocks comes before
          have hlength := hvalid.length
          rw [received_append, received_cons, received_append, hresponse, List.length_append,
            List.length_append, List.length_append]
          omega

theorem PublishingTrace.answer {options : AcquisitionOptions} {trace : Trace pollCalls}
    {startedAt completedAt : Nanoseconds} {responses : List Bytes}
    (h : PublishingTrace options trace startedAt completedAt responses) {index : ℕ}
    (hindex : index < kPd1000RequestCount) :
    ∃ before after,
      LastRequest trace (plannedRequest options.slaveId index).wireFrame before after ∧
      received (untilWrite after) = responses.getD index [] ∧
      ValidResponse options.slaveId (blockSize index) (responses.getD index []) ∧
      (0 < index → 0 < (received before).length) := by
  obtain ⟨body, rfl, _, hblocks⟩ := h
  rw [pd1000RequestPlan_eq] at hblocks
  have htail : received (untilWrite [Did.now completedAt, Did.publish
      (parsePd1000Registers (imageOf options responses)) startedAt completedAt]) = [] := rfl
  have hanswers :=
    (hblocks.answers (by omega) htail (.cons rfl (.cons rfl .nil))).2.2 index hindex
  rw [Nat.zero_add] at hanswers
  obtain ⟨before, after, hlast, hreceived, hvalid, hearlier⟩ := hanswers
  refine ⟨Did.now startedAt :: before, after, ⟨?_, hlast.last⟩, hreceived, hvalid, hearlier⟩
  rw [hlast.split]
  rfl

/-! ### A device that answers -/

/-- The registers of a block in an image. -/
def blockWords (image : Registers) (index : ℕ) : List UInt16 :=
  (image.toList.drop (blockOffset index)).take (blockSize index)

/-- The frame in which a device with this image answers the request for a block. -/
def encodeResponse (slaveId : UInt8) (image : Registers) (index : ℕ) : Bytes :=
  withCrc (slaveId :: kReadInputRegistersFunction :: UInt8.ofNat (blockSize index * 2) ::
    wordBytes (blockWords image index))

theorem length_blockWords (image : Registers) {index : ℕ} (hindex : index < kPd1000RequestCount) :
    (blockWords image index).length = blockSize index := by
  have hend := blockOffset_add_le hindex
  rw [blockWords, List.length_take, List.length_drop, Vector.length_toList, kPd1000RegisterCount]
  omega

theorem length_encodeResponse (slaveId : UInt8) (image : Registers) {index : ℕ}
    (hindex : index < kPd1000RequestCount) :
    (encodeResponse slaveId image index).length = 5 + blockSize index * 2 := by
  rw [encodeResponse, length_withCrc, List.length_cons, List.length_cons, List.length_cons,
    length_wordBytes, length_blockWords image hindex]
  omega

theorem validResponse_encodeResponse (slaveId : UInt8) (image : Registers) {index : ℕ}
    (hindex : index < kPd1000RequestCount) :
    ValidResponse slaveId (blockSize index) (encodeResponse slaveId image index) where
  length := length_encodeResponse slaveId image hindex
  slave := rfl
  function := rfl
  byteCount := by
    have hsize := blockSize_le index
    show (UInt8.ofNat (blockSize index * 2)).toNat = blockSize index * 2
    rw [UInt8.toNat_ofNat']
    omega
  crc := crcMatches_withCrc _

theorem responseWord_wordBytes (a b c : UInt8) (words : List UInt16) (crc : Bytes) {k : ℕ}
    (hk : k < words.length) :
    responseWord (a :: b :: c :: wordBytes words ++ crc) k = words[k] := by
  have hat : ∀ (words : List UInt16) (k : ℕ), k < words.length →
      bigEndian ((wordBytes words ++ crc).getD (k * 2) 0)
        ((wordBytes words ++ crc).getD (k * 2 + 1) 0) = words.getD k 0 := by
    intro words
    induction words with
    | nil => intro k hk; exact absurd hk (Nat.not_lt_zero k)
    | cons w words ih =>
      intro k hk
      cases k with
      | zero => exact bigEndian_bytes w
      | succ k =>
        rw [List.length_cons] at hk
        rw [List.getD_cons_succ, ← ih k (by omega), wordBytes_cons,
          show (k + 1) * 2 = k * 2 + 1 + 1 by omega]
        rfl
  have hword := hat words k hk
  rw [List.getD_eq_getElem _ _ hk] at hword
  rw [responseWord, kResponseHeaderBytes, show 3 + k * 2 = k * 2 + 1 + 1 + 1 by omega]
  exact hword

/-- Until the next request, the device sends at most its answer to the one before. -/
def DeviceAnswers (options : AcquisitionOptions) (image : Registers) (trace : Trace pollCalls) :
    Prop :=
  ∀ index < kPd1000RequestCount, ∀ before after,
    trace = before ++ Did.writeAll (plannedRequest options.slaveId index).wireFrame true :: after →
      received (untilWrite after) <+: encodeResponse options.slaveId image index

/-- What a published cycle takes for the answers are the answers of the device. -/
theorem PublishingTrace.image_eq {options : AcquisitionOptions} {trace : Trace pollCalls}
    {startedAt completedAt : Nanoseconds} {responses : List Bytes}
    (h : PublishingTrace options trace startedAt completedAt responses) {image : Registers}
    (hdevice : DeviceAnswers options image trace) : imageOf options responses = image := by
  have hlen : responses.length = kPd1000RequestCount := by
    obtain ⟨_, _, _, hblocks⟩ := h
    rw [hblocks.length, pd1000RequestPlan, List.length_map, List.length_range]
  have hresponse : ∀ index < kPd1000RequestCount,
      responses.getD index [] = encodeResponse options.slaveId image index := by
    intro index hindex
    obtain ⟨before, after, hlast, hreceived, hvalid, _⟩ := h.answer hindex
    have hsent := hdevice index hindex before after hlast.split
    rw [hreceived] at hsent
    refine hsent.eq_of_length ?_
    rw [hvalid.length, length_encodeResponse _ _ hindex]
  ext a ha
  obtain ⟨index, ⟨hindex, hle, hlt⟩, _⟩ := blockOffset_tiles ha
  obtain ⟨k, rfl⟩ : ∃ k, a = blockOffset index + k := ⟨_, (Nat.add_sub_of_le hle).symm⟩
  have hk : k < (blockWords image index).length := by
    rw [length_blockWords image hindex]
    omega
  rw [imageOf_block hlen hindex (by omega) ha, hresponse index hindex, encodeResponse, withCrc,
    responseWord_wordBytes _ _ _ _ _ hk]
  simp [blockWords]

/-! ### A cycle in which everything goes well -/

/-- The clock stands at zero throughout. -/
def AtZero (trace : Trace pollCalls) : Prop := ∀ t ∈ clockReadings trace, t = 0

theorem AtZero.steady {trace : Trace pollCalls} (h : AtZero trace) : SteadyClock trace := by
  refine List.pairwise_of_forall_mem_list fun t ht u hu => ?_
  exact Int.le_of_eq ((h t ht).trans (h u hu).symm)

theorem AtZero.append {trace later : Trace pollCalls} (h : AtZero trace) (h' : AtZero later) :
    AtZero (trace ++ later) := by
  rw [AtZero, clockReadings_append]
  exact List.forall_mem_append.mpr ⟨h, h'⟩

/-- A response can be read at once, header and rest. -/
theorem exists_arrives {deadline : Nanoseconds} (hdeadline : 0 < deadline) {response : Bytes}
    (hlen : 3 < response.length) : ∃ trace, Arrives deadline trace response ∧ AtZero trace := by
  have hchunk : ∀ bytes : Bytes, bytes ≠ [] → ∃ trace,
      Delivered deadline bytes.length trace bytes ∧ AtZero trace := by
    intro bytes hbytes
    have hall : Delivered deadline (bytes.length - bytes.length) [] [] := by
      rw [Nat.sub_self]
      exact .all
    have hread : Delivered deadline bytes.length
        [Did.now 0, Did.readSome (readTimeout (deadline - 0)) ⟨true, bytes, Nat.le_refl _⟩]
        (bytes ++ []) := .chunk hdeadline rfl hbytes hall
    rw [List.append_nil] at hread
    exact ⟨_, hread, fun t ht => List.mem_singleton.mp ht⟩
  -- the header in one chunk, the rest of the frame in another
  obtain ⟨first, hfirst, hzero⟩ := hchunk (response.take 3) (by
    intro hnil
    have := congrArg List.length hnil
    rw [List.length_take, List.length_nil] at this
    omega)
  obtain ⟨rest, hrest, hzero'⟩ := hchunk (response.drop 3) (by
    intro hnil
    have := congrArg List.length hnil
    rw [List.length_drop, List.length_nil] at this
    omega)
  rw [List.length_take, Nat.min_eq_left (by omega)] at hfirst
  have harrives := arrives_of_delivered hfirst hrest
  rw [List.take_append_drop] at harrives
  exact ⟨_, harrives, hzero.append hzero'⟩

/-- A request further on in a trace that begins with none. -/
theorem NoWrite.split {trace later before after : Trace pollCalls} {data : Bytes} {ok : Bool}
    (h : NoWrite trace) (heq : trace ++ later = before ++ Did.writeAll data ok :: after) :
    ∃ mid, later = mid ++ Did.writeAll data ok :: after := by
  obtain ⟨mid, _, ha⟩ | ⟨mid, hb, ha⟩ := List.append_eq_append_iff.mp heq
  · exact ⟨mid, ha⟩
  · cases mid with
    | nil => exact ⟨[], ha.symm⟩
    | cons act mid =>
      rw [List.cons_append] at ha
      refine absurd (h (Did.writeAll data ok) ?_) Bool.noConfusion
      rw [hb, (List.cons.inj ha).1]
      simp

/-- The answers of a device with this image to the requests of the plan. -/
def deviceResponses (slaveId : UInt8) (image : Registers) (index count : ℕ) : List Bytes :=
  (List.range' index count).map (encodeResponse slaveId image)

/-- A block can be accepted at the first attempt. -/
theorem exists_acceptedBlock (options : AcquisitionOptions) {deadline : Nanoseconds}
    (hdeadline : 0 < deadline) (htimeout : 0 < options.responseTimeout) (image : Registers)
    {index : ℕ} (hindex : index < kPd1000RequestCount) :
    ∃ before after, AcceptedBlock options deadline index (plannedRequest options.slaveId index) 0
        (before ++ Did.writeAll (plannedRequest options.slaveId index).wireFrame true :: after)
        (encodeResponse options.slaveId image index) ∧
      AtZero (before ++
        Did.writeAll (plannedRequest options.slaveId index).wireFrame true :: after) ∧
      NoWrite before ∧ received before = [] ∧ NoWrite after ∧
      received after = encodeResponse options.slaveId image index := by
  have hvalid := validResponse_encodeResponse options.slaveId image hindex
  have hwait : 0 < responseDeadline options deadline 0 := by
    refine Int.lt_min.mpr ⟨hdeadline, ?_⟩
    show (0 : Int) < 0 + options.responseTimeout * 1000000
    omega
  have hlong : 3 < (encodeResponse options.slaveId image index).length := by
    rw [hvalid.length]
    omega
  obtain ⟨reads, harrives, hreads⟩ := exists_arrives hwait hlong
  -- the clock stands still at 0, so the pause takes no time
  obtain ⟨pause, hpause, hpaused⟩ : ∃ pause, Pause options deadline index 0 pause ∧
      AtZero pause := by
    by_cases hfirst : index = 0
    · exact ⟨[], .none hfirst rfl, fun t ht => absurd ht List.not_mem_nil⟩
    · refine ⟨[Did.now 0, Did.sleepFor (pauseLength options deadline 0 0), Did.now 0],
        .slept (.inl hfirst), fun t ht => ?_⟩
      simpa [clockReadings, Did.now, Did.sleepFor] using ht
  have hasked : Asked options deadline index (plannedRequest options.slaveId index) 0
      (pause ++ [Did.now 0, Did.writeAll (plannedRequest options.slaveId index).wireFrame true,
        Did.now 0]) 0 := .asked hpause hdeadline
  have hcount := plannedRequest_count options.slaveId index
  have hblock := AcceptedBlock.answered (Nat.zero_le _) hasked harrives (by
    rw [hcount]
    exact hvalid)
  have htrace : pause ++ [Did.now 0,
        Did.writeAll (plannedRequest options.slaveId index).wireFrame true, Did.now 0] ++ reads =
      (pause ++ [Did.now 0]) ++
        Did.writeAll (plannedRequest options.slaveId index).wireFrame true ::
          (Did.now 0 :: reads) := by
    simp
  have hzero : AtZero (pause ++ [Did.now 0,
      Did.writeAll (plannedRequest options.slaveId index).wireFrame true, Did.now 0] ++ reads) := by
    refine (hpaused.append fun t ht => ?_).append hreads
    simpa [clockReadings, Did.now, Did.writeAll] using ht
  rw [htrace] at hblock hzero
  refine ⟨pause ++ [Did.now 0], Did.now 0 :: reads, hblock, hzero,
    hpause.quiet.2.append (.cons rfl .nil), ?_, .cons rfl harrives.reads.2, harrives.reads.1⟩
  rw [received_append, hpause.quiet.1]
  rfl

/-- So can all of them, and then every request is followed by its answer. -/
theorem exists_acceptedBlocks (options : AcquisitionOptions) {deadline : Nanoseconds}
    (hdeadline : 0 < deadline) (htimeout : 0 < options.responseTimeout) (image : Registers)
    {index count : ℕ} (hplan : index + count ≤ kPd1000RequestCount) :
    ∃ trace, AcceptedBlocks options deadline index (planFrom options.slaveId index count) trace
        (deviceResponses options.slaveId image index count) ∧ AtZero trace ∧
      ∀ tail, NoWrite tail → received tail = [] →
        received (untilWrite (trace ++ tail)) = [] ∧
          DeviceAnswers options image (trace ++ tail) := by
  induction count generalizing index with
  | zero =>
    refine ⟨[], .none, fun t ht => absurd ht List.not_mem_nil, fun tail htail hnone => ⟨?_, ?_⟩⟩
    · rw [List.nil_append, ← List.append_nil tail, untilWrite_append htail, received_append, hnone]
      rfl
    · intro i _ before after heq
      have hmem : Did.writeAll (plannedRequest options.slaveId i).wireFrame true ∈ tail := by
        rw [List.nil_append] at heq
        rw [heq]
        simp
      exact absurd (htail _ hmem) Bool.noConfusion
  | succ count ih =>
    have hindex : index < kPd1000RequestCount := by omega
    obtain ⟨later, hlater, hzero, hanswers⟩ := @ih (index + 1) (by omega)
    obtain ⟨before, after, hblock, hfirst, hbefore, hnone, hafter, hreceived⟩ :=
      exists_acceptedBlock options hdeadline htimeout image hindex
    refine ⟨_, ?_, hfirst.append hzero, fun tail htail hempty => ?_⟩
    · rw [planFrom_succ, deviceResponses, List.range'_succ, List.map_cons]
      exact .block hblock hlater
    obtain ⟨hquiet, hdevice⟩ := hanswers tail htail hempty
    rw [List.append_assoc, List.append_assoc, List.cons_append]
    constructor
    · rw [untilWrite_append hbefore, untilWrite_write, List.append_nil, hnone]
    · intro i hi first rest heq
      obtain ⟨mid, hmid⟩ := hbefore.split heq
      cases mid with
      | nil =>
        -- the request of this block
        obtain ⟨hact, hrest⟩ := List.cons.inj hmid
        refine ⟨[], ?_⟩
        rw [List.append_nil, ← hrest, untilWrite_append hafter, received_append, hquiet,
          List.append_nil, hreceived,
          wireFrame_injective options.slaveId hindex hi (writeAll_data hact)]
      | cons act mid =>
        -- a request of a later block
        rw [List.cons_append] at hmid
        obtain ⟨mid', hlast⟩ := hafter.split (List.cons.inj hmid).2
        exact hdevice i hi mid' rest hlast

/-- A cycle whose acts are those of a publication is one. -/
theorem PublishingTrace.exec {options : AcquisitionOptions} {trace : Trace pollCalls}
    {startedAt completedAt : Nanoseconds} {responses : List Bytes}
    (h : PublishingTrace options trace startedAt completedAt responses)
    (hin : completedAt ≤ cycleEnd options startedAt) (hclock : SteadyClock trace) (fuel : ℕ) :
    (pollOnce options fuel).Exec trace (.returned true []) := by
  obtain ⟨body, rfl, _, hblocks⟩ := h
  have hsplit : SteadyClock ([Did.now startedAt] ++ (body ++ [Did.now completedAt, Did.publish
      (parsePd1000Registers (imageOf options responses)) startedAt completedAt])) := hclock
  have hran : (pollBlocks options (cycleEnd options startedAt) 0
      (pd1000RequestPlan options.slaveId) (Vector.replicate kPd1000RegisterCount 0)).Exec body
      (.ok (imageOf options responses)) :=
    hblocks.pollBlocks (plan_slaveId _) hsplit.split.2.1.split.1
  refine exec_readClock.mpr ⟨startedAt, _, rfl, hran.bind ?_⟩
  refine exec_readClock.mpr ⟨completedAt, _, rfl, ?_⟩
  rw [cycleEnd] at hin
  rw [if_neg (Int.not_lt.mpr hin)]
  exact Prog.exec_call.mpr ⟨(), [], rfl, .done _⟩

/-- There is a cycle in which a device with the given image answers every request. -/
theorem exists_cooperative_cycle (image : Registers) (fuel : ℕ) :
    ∃ trace, (pollOnce {} fuel).Exec trace (.returned true []) ∧
      PublishingTrace {} trace 0 0 (deviceResponses 1 image 0 kPd1000RequestCount) ∧
      DeviceAnswers {} image trace := by
  obtain ⟨body, hblocks, hzero, hanswers⟩ := exists_acceptedBlocks {}
    (show 0 < cycleEnd {} 0 by decide) (by decide) image
    (show 0 + kPd1000RequestCount ≤ kPd1000RequestCount by omega)
  have hline : AllOnLine body :=
    (pollBlocks_onLine {} (cycleEnd {} 0) 0 (planFrom 1 0 kPd1000RequestCount)
      (Vector.replicate kPd1000RegisterCount 0)).trace
      (hblocks.pollBlocks (fun request hmem => by
        obtain ⟨index, _, rfl⟩ := List.mem_map.mp hmem
        rfl) hzero.steady)
  have hplan : pd1000RequestPlan 1 = planFrom 1 0 kPd1000RequestCount := pd1000RequestPlan_eq 1
  -- kept as a name: the published snapshot would otherwise be computed
  generalize hend : [Did.now 0, Did.publish (parsePd1000Registers (imageOf {}
    (deviceResponses 1 image 0 kPd1000RequestCount))) 0 0] = tail
  have hpublishing : PublishingTrace {} (Did.now 0 :: (body ++ tail)) 0 0
      (deviceResponses 1 image 0 kPd1000RequestCount) := by
    refine ⟨body, by rw [← hend], hline, ?_⟩
    show AcceptedBlocks {} (cycleEnd {} 0) 0 (pd1000RequestPlan 1) body _
    rw [hplan]
    exact hblocks
  have hwrites : NoWrite tail := by
    rw [← hend]
    exact .cons rfl (.cons rfl .nil)
  have hquiet : received tail = [] := by
    rw [← hend]
    rfl
  have hclock : AtZero (Did.now 0 :: (body ++ tail)) := by
    have hlast : AtZero tail := by
      rw [← hend]
      intro t ht
      exact List.mem_singleton.mp ht
    exact List.forall_mem_cons.mpr ⟨rfl, hzero.append hlast⟩
  refine ⟨_, hpublishing.exec (by decide) hclock.steady fuel, hpublishing, ?_⟩
  intro i hi before after heq
  have hfirst : NoWrite [Did.now 0] := .cons rfl .nil
  obtain ⟨mid, hmid⟩ := hfirst.split heq
  exact (hanswers tail hwrites hquiet).2 i hi mid after hmid

end Uhf.Acquisition
