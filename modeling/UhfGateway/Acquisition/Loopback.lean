/-
The simulated PD1000 (`acquisition/loopback_pd1000`) under the acquisition engine.

The simulator answers the requests of the plan in their order, each one once, and counts which
is next; a request out of turn is refused.  Its answers wait in a queue from which the engine
reads.

* `LoopbackPd1000Port.writeAll`, `LoopbackPd1000Port.readSome` — the simulated line;
* `simulation` — the engine's surroundings with it, for a relation of what the clock may show
  after what;
* `simulated_cycles_publish` — an engine that looks at the clock often enough publishes the
  registers of the simulator, cycle after cycle;
* `simulation_out_of_step` — a simulator that a cycle has left in the middle of the plan is never
  read again.
-/
import Mathlib.Data.List.Forall2
import UhfGateway.Acquisition.Requests
import UhfGateway.Acquisition.StoreHistory
import UhfGateway.Effects.Layer

namespace Uhf.Acquisition

open Domain Effects

/-! ### The line -/

structure LoopbackPd1000Port where
  registers : Registers
  pendingResponse : Bytes := []
  nextRequestIndex : ℕ := 0

/-- The registers the simulator is built with. -/
def loopbackRegisters : Registers :=
  Vector.ofFn fun index =>
    if index.val = 0 then UInt16.ofInt (-55)
    else if index.val = 1 then 12
    else if index.val = 2 then UInt16.ofInt (-50)
    else if index.val = 3 then 180
    else if index.val = 4 then 240
    else if index.val < kPd1000SpectrumOffset then 0
    else UInt16.ofInt (-60 + ((index.val - kPd1000SpectrumOffset) % 6 : ℕ))

namespace LoopbackPd1000Port

variable (port : LoopbackPd1000Port)

/-- The answer to a request of the plan. -/
def response (request : ModbusReadRequest) : Bytes :=
  let startIndex := request.startAddress.toNat - kPd1000FirstAddress.toNat
  withCrc (request.slaveId :: request.function ::
    UInt8.ofNat (request.registerCount.toNat * 2) ::
      wordBytes ((List.range request.registerCount.toNat).map fun index =>
        port.registers.toList.getD (startIndex + index) 0))

def writeAll (data : Bytes) : Bool × LoopbackPd1000Port :=
  if data.length ≠ 8 then (false, port)
  else
    let request := plannedRequest (data.getD 0 0) port.nextRequestIndex
    if request.wireFrame ≠ data then (false, port)
    else
      (true, { port with
        pendingResponse := port.pendingResponse ++ port.response request
        nextRequestIndex := (port.nextRequestIndex + 1) % kPd1000RequestCount })

/-- The bytes `read_some` delivers; if there are none it has waited for them. -/
def readSome (capacity : ℕ) : Bytes × LoopbackPd1000Port :=
  (port.pendingResponse.take capacity,
    { port with pendingResponse := port.pendingResponse.drop capacity })

end LoopbackPd1000Port

/-! ### The engine's surroundings -/

structure Simulation where
  port : LoopbackPd1000Port
  /-- The clock in nanoseconds, as far as it has been looked at or slept. -/
  time : Int
  /-- What the engine has reported to the snapshot store. -/
  history : List StoreCall := []

/-- How far a sleep moves the clock; what it takes longer is for the next look at it. -/
def slept (duration : Int) : Int := max 0 duration

/-- The simulated line and a clock that shows after the time `t` what `shows t` allows. -/
def simulation (shows : Int → Int → Prop) : World pollCalls Simulation where
  answers
    | .now, s, t, s' => shows s.time t ∧ s' = { s with time := t }
    | .sleepFor duration, s, _, s' => s' = { s with time := s.time + slept duration }
    | .writeAll data, s, ok, s' =>
      ok = (s.port.writeAll data).1 ∧ s' = { s with port := (s.port.writeAll data).2 }
    | .readSome capacity _, s, answer, s' =>
      answer.ok = true ∧ answer.bytes = (s.port.readSome capacity).1 ∧
        ∃ time, s.time ≤ time ∧ (s.port.pendingResponse ≠ [] → time = s.time) ∧
          s' = { s with port := (s.port.readSome capacity).2, time := time }
    | .publish payload startedAt completedAt, s, _, s' =>
      s' = { s with history := s.history ++ [.publish payload startedAt completedAt] }
    | .recordFailure attemptedAt error reason, s, _, s' =>
      s' = { s with history := s.history ++ [.recordFailure ⟨attemptedAt, error, reason⟩] }
  cut _ _ _ := False
  dies _ := False

/-- An engine that is never held up for longer than `lag` between two looks at the clock. -/
def Prompt (lag t t' : Int) : Prop := t ≤ t' ∧ t' ≤ t + lag

/-- Cycles one after the other, each with the options of its time. -/
def simulator (fuel : ℕ) : Service pollCalls Unit AcquisitionOptions PollResult where
  program _ options := pollOnce options fuel >>= fun result => .done (result, ())
  fresh := id

/-- Between two cycles time passes. -/
def TimePasses : Unit → Simulation → Unit → Simulation → Prop :=
  fun _ s _ s' => ∃ time, s.time ≤ time ∧ s' = { s with time := time }

section Rules

variable {α : Type} {shows : Int → Int → Prop} {Q : α → Simulation → Prop}
  {s : Simulation}

/-- What every run of a cycle with the simulator ends in. -/
abbrev Simulates (shows : Int → Int → Prop) (Q : α → Simulation → Prop)
    (p : Prog pollCalls α) (s : Simulation) : Prop :=
  p.Ensures (simulation shows) (fun _ => False) Q s

theorem simulates_done {a : α} (h : Q a s) : Simulates shows Q (.done a) s := ⟨fun hd => hd, h⟩

theorem simulates_readClock {k : Nanoseconds → Prog pollCalls α}
    (h : ∀ t : Int, shows s.time t → Simulates shows Q (k t) { s with time := t }) :
    Simulates shows Q (readClock k) s := by
  refine ⟨fun hd => hd, fun _ hc => hc, ?_⟩
  rintro t s' ⟨hshows, rfl⟩
  exact h t hshows

theorem simulates_sleepFor {duration : Nanoseconds} {k : Prog pollCalls α}
    (h : Simulates shows Q k { s with time := s.time + slept duration }) :
    Simulates shows Q (sleepFor duration k) s := by
  refine ⟨fun hd => hd, fun _ hc => hc, ?_⟩
  rintro ⟨⟩ s' rfl
  exact h

theorem simulates_writeAll {data : Bytes} {k : Bool → Prog pollCalls α}
    (h : Simulates shows Q (k (s.port.writeAll data).1)
      { s with port := (s.port.writeAll data).2 }) : Simulates shows Q (writeAll data k) s := by
  refine ⟨fun hd => hd, fun _ hc => hc, ?_⟩
  rintro ok s' ⟨rfl, rfl⟩
  exact h

theorem simulates_readSome {capacity : ℕ} {timeout : Int} {k : ReadSome capacity → Prog pollCalls α}
    (h : ∀ answer : ReadSome capacity, answer.ok = true →
      answer.bytes = s.port.pendingResponse.take capacity → ∀ time, s.time ≤ time →
      (s.port.pendingResponse ≠ [] → time = s.time) → Simulates shows Q (k answer)
        { s with
          port := { s.port with pendingResponse := s.port.pendingResponse.drop capacity }
          time := time }) :
    Simulates shows Q (readSome capacity timeout k) s := by
  refine ⟨fun hd => hd, fun _ hc => hc, ?_⟩
  rintro answer s' ⟨hok, hbytes, time, hpast, hwaits, rfl⟩
  exact h answer hok hbytes time hpast hwaits

theorem simulates_publish {payload : ParsedSnapshot} {startedAt completedAt : Nanoseconds}
    {k : Prog pollCalls α}
    (h : Simulates shows Q k
      { s with history := s.history ++ [.publish payload startedAt completedAt] }) :
    Simulates shows Q (publish payload startedAt completedAt k) s := by
  refine ⟨fun hd => hd, fun _ hc => hc, ?_⟩
  rintro ⟨⟩ s' rfl
  exact h

theorem simulates_recordFailure {attemptedAt : Nanoseconds} {error : Bytes} {reason : FailureReason}
    {k : Prog pollCalls α}
    (h : Simulates shows Q k
      { s with history := s.history ++ [.recordFailure ⟨attemptedAt, error, reason⟩] }) :
    Simulates shows Q (recordFailure attemptedAt error reason k) s := by
  refine ⟨fun hd => hd, fun _ hc => hc, ?_⟩
  rintro ⟨⟩ s' rfl
  exact h

theorem simulator_ensures {fuel : ℕ} {options : AcquisitionOptions}
    {Q : PollResult → Simulation → Prop} (h : Simulates shows Q (pollOnce options fuel) s) :
    ((simulator fuel).program () options).Ensures (simulation shows) (fun _ => False)
      (fun r => Q r.1) s :=
  Prog.ensures_bind (Prog.ensures_mono (fun _ h => h) (fun _ _ h => simulates_done h) h)

/-- The simulator answers every call. -/
theorem simulation_answers (hshows : ∀ t, ∃ t', shows t t') (o : PollCall) (s : Simulation) :
    ∃ a s', (simulation shows).answers o s a s' := by
  cases o with
  | now =>
    obtain ⟨t, ht⟩ := hshows s.time
    exact ⟨t, _, ht, rfl⟩
  | sleepFor duration => exact ⟨(), _, rfl⟩
  | writeAll data => exact ⟨_, _, rfl, rfl⟩
  | readSome capacity timeout =>
    exact ⟨⟨true, s.port.pendingResponse.take capacity, List.length_take_le _ _⟩, _, rfl, rfl,
      s.time, Int.le_refl _, fun _ => rfl, rfl⟩
  | publish payload startedAt completedAt => exact ⟨(), _, rfl⟩
  | recordFailure attemptedAt error reason => exact ⟨(), _, rfl⟩

end Rules

/-! ### A request in its turn -/

section Turn

variable {image : Registers} {slaveId : UInt8} {index : ℕ}

theorem wireFrame_length : (plannedRequest slaveId index).wireFrame.length = 8 := by
  show (withCrc _).length = 8
  rw [length_withCrc]
  rfl

theorem wireFrame_slave : (plannedRequest slaveId index).wireFrame.getD 0 0 = slaveId := rfl

/-- The words of a block, picked one by one. -/
theorem map_getD_blockWords (hindex : index < kPd1000RequestCount) :
    (List.range (blockSize index)).map (fun k => image.toList.getD (blockOffset index + k) 0) =
      blockWords image index := by
  refine List.ext_getElem ?_ fun k hk hk' => ?_
  · rw [List.length_map, List.length_range, length_blockWords image hindex]
  · rw [List.length_map, List.length_range] at hk
    have hend := blockOffset_add_le hindex
    have hin : blockOffset index + k < image.toList.length := by
      rw [Vector.length_toList, kPd1000RegisterCount]
      omega
    rw [List.getElem_map, List.getElem_range, List.getD_eq_getElem _ _ hin]
    simp only [blockWords, List.getElem_take, List.getElem_drop]

/-- The simulator answers as a device with its registers does. -/
theorem response_planned (port : LoopbackPd1000Port) (hindex : index < kPd1000RequestCount) :
    port.response (plannedRequest slaveId index) = encodeResponse slaveId port.registers index := by
  have hstart : (plannedRequest slaveId index).startAddress.toNat - kPd1000FirstAddress.toNat =
      blockOffset index := by
    have hfirst : kPd1000FirstAddress.toNat = 10001 := rfl
    have hplanned := plannedRequest_start slaveId hindex
    omega
  rw [LoopbackPd1000Port.response, hstart, plannedRequest_count, map_getD_blockWords hindex]
  rfl

theorem writeAll_in_turn (hindex : index < kPd1000RequestCount) :
    (LoopbackPd1000Port.mk image [] index).writeAll (plannedRequest slaveId index).wireFrame =
      (true, ⟨image, encodeResponse slaveId image index, (index + 1) % kPd1000RequestCount⟩) := by
  rw [LoopbackPd1000Port.writeAll, if_neg (not_not.mpr wireFrame_length)]
  show (if (plannedRequest slaveId index).wireFrame ≠ (plannedRequest slaveId index).wireFrame then
    _ else _) = _
  rw [if_neg (not_not.mpr rfl), List.nil_append, response_planned _ hindex]
  rfl

/-- Out of its turn a request of the plan is refused. -/
theorem writeAll_out_of_turn {port : LoopbackPd1000Port} (hindex : index < kPd1000RequestCount)
    (hnext : port.nextRequestIndex < kPd1000RequestCount) (hother : port.nextRequestIndex ≠ index) :
    port.writeAll (plannedRequest slaveId index).wireFrame = (false, port) := by
  have hdiffer : (plannedRequest slaveId port.nextRequestIndex).wireFrame ≠
      (plannedRequest slaveId index).wireFrame :=
    fun heq => hother (wireFrame_injective slaveId hnext hindex heq)
  rw [LoopbackPd1000Port.writeAll, if_neg (not_not.mpr wireFrame_length)]
  exact if_pos hdiffer

/-- The answers of the simulator, put in their places, are its registers. -/
theorem imageOf_deviceResponses (options : AcquisitionOptions) (image : Registers) :
    imageOf options (deviceResponses options.slaveId image 0 kPd1000RequestCount) = image := by
  have hlen : (deviceResponses options.slaveId image 0 kPd1000RequestCount).length =
      kPd1000RequestCount := by
    rw [deviceResponses, List.length_map, List.length_range']
  ext a ha
  obtain ⟨index, ⟨hindex, hle, hlt⟩, _⟩ := blockOffset_tiles ha
  obtain ⟨k, rfl⟩ : ∃ k, a = blockOffset index + k := ⟨_, (Nat.add_sub_of_le hle).symm⟩
  have hk : k < (blockWords image index).length := by
    rw [length_blockWords image hindex]
    omega
  have hresponse : (deviceResponses options.slaveId image 0 kPd1000RequestCount).getD index [] =
      encodeResponse options.slaveId image index := by
    have hat : index < (deviceResponses options.slaveId image 0 kPd1000RequestCount).length := by
      rw [hlen]
      exact hindex
    rw [List.getD_eq_getElem _ _ hat]
    simp only [deviceResponses, List.getElem_map, List.getElem_range', Nat.zero_add, Nat.one_mul]
  rw [imageOf_block hlen hindex (by omega) ha, hresponse, encodeResponse, withCrc,
    responseWord_wordBytes _ _ _ _ _ hk]
  simp [blockWords]

end Turn

/-! ### A prompt engine -/

section Prompt

variable {lag deadline : Int} {s : Simulation} {options : AcquisitionOptions}
  {image : Registers} {index : ℕ}

/-- The state has kept up: it differs from `s` in the port and in a clock that is at most `late`
later. -/
structure Later (s : Simulation) (port : LoopbackPd1000Port) (late : Int)
    (s' : Simulation) : Prop where
  port : s'.port = port
  history : s'.history = s.history
  past : s.time ≤ s'.time
  bound : s'.time ≤ s.time + late

theorem Later.trans {s s' s'' : Simulation} {port port' : LoopbackPd1000Port}
    {late late' : Int} (h : Later s port late s') (h' : Later s' port' late' s'') :
    Later s port' (late + late') s'' where
  port := h'.port
  history := h'.history.trans h.history
  past := Int.le_trans h.past h'.past
  bound := by
    have hfirst := h.bound
    have hsecond := h'.bound
    omega

theorem slept_nonneg (duration : Int) : 0 ≤ slept duration := Int.le_max_left 0 duration

theorem slept_mono {duration duration' : Int} (h : duration ≤ duration') :
    slept duration ≤ slept duration' := by
  rw [slept, slept]
  omega

theorem microseconds_min_le (duration remaining : Int) :
    microseconds (min duration remaining) ≤ microseconds duration :=
  Int.mul_le_mul_of_nonneg_right (Int.min_le_left _ _) (by decide)

theorem sleepUntil_prompt {duration : Int}
    (hdue : s.time + 2 * lag + slept (microseconds duration) < deadline) (hlag : 0 ≤ lag) :
    Simulates (Prompt lag) (fun inTime s' => inTime = true ∧
      Later s s.port (2 * lag + slept (microseconds duration)) s')
      (sleepUntil deadline duration) s := by
  have hwhole := slept_nonneg (microseconds duration)
  refine simulates_readClock ?_
  rintro now ⟨hpast, hlate⟩
  rw [if_neg (Int.not_le.mpr (by omega))]
  refine simulates_sleepFor (simulates_readClock ?_)
  rintro later ⟨hpast', hlate'⟩
  -- what is left of the time to the deadline only cuts the sleep short
  have hslept : slept (microseconds (min duration ((deadline - now).tdiv 1000))) ≤
      slept (microseconds duration) := slept_mono (microseconds_min_le _ _)
  replace hpast' : now + slept (microseconds (min duration ((deadline - now).tdiv 1000))) ≤ later :=
    hpast'
  replace hlate' : later ≤
      now + slept (microseconds (min duration ((deadline - now).tdiv 1000))) + lag := hlate'
  have hnone : 0 ≤ slept (microseconds (min duration ((deadline - now).tdiv 1000))) :=
    slept_nonneg _
  refine simulates_done ⟨decide_eq_true ?_, rfl, rfl, ?_, ?_⟩
  · show (later : Int) < deadline
    omega
  · show s.time ≤ later
    omega
  · show later ≤ s.time + (2 * lag + slept (microseconds duration))
    omega

theorem readExact_prompt {bytes rest : Bytes} {size : ℕ}
    (hpending : s.port.pendingResponse = bytes ++ rest) (hsize : bytes.length = size)
    (hsome : 0 < size) (hdue : s.time + lag < deadline) :
    Simulates (Prompt lag) (fun got s' => got = (true, bytes) ∧
      Later s { s.port with pendingResponse := rest } lag s') (readExact deadline size) s := by
  have hbytes : bytes ≠ [] := List.length_pos_iff.mp (hsize ▸ hsome)
  rw [readExact, if_neg (Nat.ne_of_gt hsome)]
  refine simulates_readClock ?_
  rintro now ⟨hpast, hlate⟩
  rw [if_neg (Int.not_le.mpr (by omega))]
  refine simulates_readSome ?_
  intro answer hok hanswer time _ hwaits
  have hwhole : answer.bytes = bytes := by
    rw [hanswer]
    show s.port.pendingResponse.take size = bytes
    rw [hpending, ← hsize, List.take_left]
  have htime : time = now := by
    refine hwaits fun hnone => hbytes ?_
    replace hnone : s.port.pendingResponse = [] := hnone
    rw [hpending] at hnone
    exact (List.append_eq_nil_iff.mp hnone).1
  have hnotEmpty : ¬ answer.bytes = [] := by
    rw [hwhole]
    exact hbytes
  rw [hok, if_neg (by simp), dif_neg hnotEmpty, hwhole, hsize, Nat.sub_self, readExact, if_pos rfl]
  refine simulates_done ⟨by rw [List.append_nil], ?_, rfl, ?_, ?_⟩
  · show LoopbackPd1000Port.mk s.port.registers (s.port.pendingResponse.drop size) _ = _
    rw [hpending, ← hsize, List.drop_left]
  · show s.time ≤ time
    omega
  · show time ≤ s.time + lag
    omega

/-- A whole answer is waiting, and there is the time to read its two parts. -/
theorem readResponse_prompt (hindex : index < kPd1000RequestCount)
    (hpending : s.port.pendingResponse = encodeResponse options.slaveId image index)
    (hdue : s.time + 2 * lag < deadline) (hlag : 0 ≤ lag) :
    Simulates (Prompt lag) (fun result s' =>
      result = .complete (encodeResponse options.slaveId image index) ∧
        Later s { s.port with pendingResponse := [] } (2 * lag) s')
      (readResponse (plannedRequest options.slaveId index) options deadline) s := by
  obtain ⟨header, body, hframe, hheader⟩ : ∃ header body,
      encodeResponse options.slaveId image index = header ++ body ∧ header.length = 3 :=
    ⟨_, _, (List.take_append_drop 3 _).symm, by
      rw [List.length_take, length_encodeResponse _ _ hindex]
      omega⟩
  have hvalid := validResponse_encodeResponse options.slaveId image hindex
  have hbody : body.length = blockSize index * 2 + kResponseCrcBytes := by
    have hlength := hvalid.length
    rw [hframe, List.length_append, hheader] at hlength
    rw [kResponseCrcBytes]
    omega
  have hat : ∀ i, i < 3 → header.getD i 0 =
      (encodeResponse options.slaveId image index).getD i 0 := by
    intro i hi
    rw [hframe]
    refine (List.getD_append _ _ _ _ ?_).symm
    omega
  refine Prog.ensures_bind (Prog.ensures_mono (fun _ h => h) ?_
    (readExact_prompt (hpending.trans hframe) hheader (by decide) (by omega)))
  rintro _ s' ⟨rfl, hlater⟩
  -- the header is that of a complete answer of the right size
  rw [if_neg (by simp), hat 0 (by omega), hat 1 (by omega), hat 2 (by omega), hvalid.slave,
    hvalid.function, hvalid.byteCount, plannedRequest_count, if_neg (by simp), if_neg (by decide),
    if_neg (by simp)]
  have hrest : s'.port.pendingResponse = body ++ [] := by
    rw [hlater.port, List.append_nil]
  have hbound := hlater.bound
  refine Prog.ensures_bind (Prog.ensures_mono (fun _ h => h) ?_
    (readExact_prompt hrest hbody (Nat.succ_pos _) (by omega)))
  rintro _ s'' ⟨rfl, hlater'⟩
  rw [if_neg (by simp), ← hframe, if_pos hvalid.crc]
  refine simulates_done ⟨rfl, ?_⟩
  have hboth := hlater.trans hlater'
  rw [hlater.port, ← Int.two_mul] at hboth
  exact hboth

/-- How long a block may take. -/
def blockTime (lag : Int) (options : AcquisitionOptions) : Int :=
  6 * lag + slept (microseconds options.interFrameSilence)

theorem pauseBefore_prompt (hdue : s.time + blockTime lag options < deadline) (hlag : 0 ≤ lag) :
    Simulates (Prompt lag) (fun paused s' => paused = .ok () ∧
      Later s s.port (2 * lag + slept (microseconds options.interFrameSilence)) s')
      (pauseBefore options deadline index 0) s := by
  rw [blockTime] at hdue
  rw [pauseBefore, if_neg (Nat.lt_irrefl 0)]
  by_cases hfirst : index = 0
  · have hnone := slept_nonneg (microseconds options.interFrameSilence)
    rw [if_neg (not_not.mpr hfirst)]
    refine simulates_done ⟨rfl, rfl, rfl, Int.le_refl _, ?_⟩
    show s.time ≤ s.time + _
    omega
  · rw [if_pos hfirst]
    have hslept : s.time + 2 * lag + slept (microseconds options.interFrameSilence) < deadline := by
      omega
    refine Prog.ensures_bind (Prog.ensures_mono (fun _ h => h) ?_ (sleepUntil_prompt hslept hlag))
    rintro _ s' ⟨rfl, hlater⟩
    exact simulates_done ⟨rfl, hlater⟩

/-- **One block**, asked for in its turn. -/
theorem pollBlock_prompt (hindex : index < kPd1000RequestCount)
    (hport : s.port = ⟨image, [], index⟩) (hdue : s.time + blockTime lag options < deadline)
    (htimeout : 2 * lag < milliseconds options.responseTimeout) (hlag : 0 ≤ lag) :
    Simulates (Prompt lag) (fun result s' =>
      result = .ok (encodeResponse options.slaveId image index) ∧
        Later s ⟨image, [], (index + 1) % kPd1000RequestCount⟩ (blockTime lag options) s')
      (pollBlock options deadline index (plannedRequest options.slaveId index)) s := by
  have hslave : (plannedRequest options.slaveId index).slaveId = options.slaveId := rfl
  rw [pollBlock, if_neg (not_not.mpr hslave), attempts]
  refine Prog.ensures_bind
    (Prog.ensures_mono (fun _ h => h) ?_ (pauseBefore_prompt hdue hlag))
  rintro _ s₁ ⟨rfl, hpaused⟩
  have hbound := hpaused.bound
  rw [blockTime] at hdue
  refine simulates_readClock ?_
  rintro check ⟨hpast, hlate⟩
  rw [if_neg (Int.not_le.mpr (by omega))]
  refine simulates_writeAll ?_
  have hturn : s₁.port.writeAll (plannedRequest options.slaveId index).wireFrame = (true,
      ⟨image, encodeResponse options.slaveId image index, (index + 1) % kPd1000RequestCount⟩) := by
    rw [hpaused.port, hport, writeAll_in_turn hindex]
  simp only [hturn]
  refine simulates_readClock ?_
  rintro sent ⟨hpast', hlate'⟩
  replace hpast' : check ≤ sent := hpast'
  replace hlate' : sent ≤ check + lag := hlate'
  -- an answer is waiting, and the time to read it is not over before the cycle's
  have hdue' : sent + 2 * lag < min deadline (sent + milliseconds options.responseTimeout) :=
    Int.lt_min.mpr ⟨by omega, by omega⟩
  refine Prog.ensures_bind (Prog.ensures_mono (fun _ h => h) ?_
    (readResponse_prompt hindex rfl hdue' hlag))
  rintro _ s₂ ⟨rfl, hanswered⟩
  have hpast'' : sent ≤ s₂.time := hanswered.past
  have hbound'' : s₂.time ≤ sent + 2 * lag := hanswered.bound
  have hstart := hpaused.past
  refine simulates_done ⟨rfl, hanswered.port, hanswered.history.trans hpaused.history, ?_, ?_⟩
  · omega
  · rw [blockTime]
    omega

/-- The blocks from one on, to the end of the plan. -/
theorem pollBlocks_prompt {count : ℕ} {raw : Registers}
    (hplan : index + count = kPd1000RequestCount)
    (hport : s.port = ⟨image, [], index % kPd1000RequestCount⟩)
    (hdue : s.time + count * blockTime lag options < deadline)
    (htimeout : 2 * lag < milliseconds options.responseTimeout) (hlag : 0 ≤ lag) :
    Simulates (Prompt lag) (fun result s' =>
      result = .ok (storeAll (planFrom options.slaveId index count)
          (deviceResponses options.slaveId image index count) raw) ∧
        Later s ⟨image, [], 0⟩ (count * blockTime lag options) s')
      (pollBlocks options deadline index (planFrom options.slaveId index count) raw) s := by
  have hblock : 0 ≤ blockTime lag options := by
    have hnone := slept_nonneg (microseconds options.interFrameSilence)
    rw [blockTime]
    omega
  induction count generalizing index raw s with
  | zero =>
    rw [Nat.add_zero] at hplan
    rw [hplan, Nat.mod_self] at hport
    refine simulates_done ⟨rfl, hport, rfl, Int.le_refl _, ?_⟩
    rw [Int.natCast_zero, Int.zero_mul]
    omega
  | succ count ih =>
    have hindex : index < kPd1000RequestCount := by omega
    have hrest : 0 ≤ (count : Int) * blockTime lag options :=
      Int.mul_nonneg (Int.natCast_nonneg count) hblock
    have hsplit : ((count + 1 : ℕ) : Int) * blockTime lag options =
        count * blockTime lag options + blockTime lag options := by
      rw [Int.natCast_add, Int.add_mul, Int.natCast_one, Int.one_mul]
    rw [hsplit] at hdue ⊢
    rw [Nat.mod_eq_of_lt hindex] at hport
    rw [planFrom_succ, pollBlocks]
    refine Prog.ensures_bind (Prog.ensures_mono (fun _ h => h) ?_
      (pollBlock_prompt hindex hport (by omega) htimeout hlag))
    rintro _ s₁ ⟨rfl, hlater⟩
    have hbound := hlater.bound
    refine Prog.ensures_mono (fun _ h => h) ?_ (ih (by omega) hlater.port (by omega))
    rintro _ s₂ ⟨rfl, hlater'⟩
    refine ⟨?_, ?_⟩
    · rw [deviceResponses, deviceResponses, List.range'_succ, List.map_cons]
      rfl
    · rw [Int.add_comm]
      exact hlater.trans hlater'

/-- The timeouts of the options leave an engine with this lag the time it needs. -/
structure KeepsUp (lag : Int) (options : AcquisitionOptions) : Prop where
  answer : 2 * lag < milliseconds options.responseTimeout
  cycle : kPd1000RequestCount * blockTime lag options + lag < milliseconds options.cycleDeadline

/-- **One cycle**: the registers are published, and the simulator is where it was. -/
theorem pollOnce_prompt (hport : s.port = ⟨image, [], 0⟩) (hkeeps : KeepsUp lag options)
    (hlag : 0 ≤ lag) (fuel : ℕ) :
    Simulates (Prompt lag) (fun result s' => result = .returned true [] ∧
      s'.port = ⟨image, [], 0⟩ ∧ ∃ startedAt, s.time ≤ startedAt ∧ startedAt ≤ s'.time ∧
        s'.time ≤ startedAt + milliseconds options.cycleDeadline ∧
        s'.history = s.history ++ [.publish (parsePd1000Registers image) startedAt s'.time])
      (pollOnce options fuel) s := by
  obtain ⟨htimeout, hcycle⟩ := hkeeps
  rw [pollOnce, pd1000RequestPlan_eq]
  refine simulates_readClock ?_
  rintro startedAt ⟨hpast, hlate⟩
  have hdue : startedAt + kPd1000RequestCount * blockTime lag options <
      startedAt + milliseconds options.cycleDeadline := by omega
  refine Prog.ensures_bind (Prog.ensures_mono (fun _ h => h) ?_
    (pollBlocks_prompt (Nat.zero_add _) hport hdue htimeout hlag))
  rintro _ s₁ ⟨rfl, hlater⟩
  have himage : storeAll (planFrom options.slaveId 0 kPd1000RequestCount)
      (deviceResponses options.slaveId image 0 kPd1000RequestCount)
      (Vector.replicate kPd1000RegisterCount 0) = image := by
    rw [← pd1000RequestPlan_eq]
    exact imageOf_deviceResponses options image
  have hbound : s₁.time ≤ startedAt + kPd1000RequestCount * blockTime lag options := hlater.bound
  have hstarted : startedAt ≤ s₁.time := hlater.past
  rw [himage, finishCycle]
  refine simulates_readClock ?_
  rintro completedAt ⟨hpast', hlate'⟩
  rw [if_neg (Int.not_lt.mpr (by omega))]
  refine simulates_publish (simulates_done ⟨rfl, hlater.port, startedAt, hpast, ?_, ?_, ?_⟩)
  · show startedAt ≤ completedAt
    omega
  · show completedAt ≤ _
    omega
  · show s₁.history ++ _ = _
    rw [hlater.history]

/-- What an engine has reported after cycles with these beginnings and ends. -/
def reported (image : Registers) (cycles : List (Int × Int)) : List StoreCall :=
  cycles.map fun cycle => .publish (parsePd1000Registers image) cycle.1 cycle.2

/-- **The simulator at work.**  Whatever options the cycles have, of which each leaves the engine
the time it needs: every one of them succeeds, takes no longer than it may and publishes the
registers of the simulator, so that after the first of them readers are always served these, as
fresh, with the number of cycles so far, and without an alarm. -/
theorem simulated_cycles_publish {fuel : ℕ} {time : Int}
    {es : List (Episode Simulation AcquisitionOptions PollResult)} (hlag : 0 ≤ lag)
    (hkeeps : ∀ e ∈ es, KeepsUp lag e.request)
    (h : (simulator fuel).Run (simulation (Prompt lag)) TimePasses ()
      { port := { registers := image }, time := time } es () s) :
    (∀ e ∈ es, e.result = some (.returned true [])) ∧
      (∃ cycles : List (Int × Int), s.history = reported image cycles ∧
        List.Forall₂ (fun cycle e => cycle.1 ≤ cycle.2 ∧
          cycle.2 ≤ cycle.1 + milliseconds e.request.cycleDeadline) cycles es) ∧
      (es ≠ [] → ∃ snapshot, (storeAfter s.history).servingView.snapshot = some snapshot ∧
        snapshot.payload = parsePd1000Registers image ∧
        snapshot.generation = UInt64.ofNat es.length ∧
        (storeAfter s.history).servingView.status.availability = .fresh ∧
        (storeAfter s.history).servingView.status.communicationAlarm = false) := by
  have hrun : s.port = ⟨image, [], 0⟩ ∧ (∀ e ∈ es, e.result = some (.returned true [])) ∧
      ∃ cycles : List (Int × Int), s.history = reported image cycles ∧
        List.Forall₂ (fun cycle e => cycle.1 ≤ cycle.2 ∧
          cycle.2 ≤ cycle.1 + milliseconds e.request.cycleDeadline) cycles es := by
    generalize () = memory at h
    induction h with
    | start => exact ⟨rfl, fun e he => absurd he List.not_mem_nil, [], rfl, .nil⟩
    | @returned es _ s options r _ s' _ hr ih =>
      obtain ⟨hport, hresults, cycles, hhistory, htimes⟩ :=
        ih fun e he => hkeeps e (List.mem_append_left _ he)
      have hcycle := hkeeps _ (List.mem_append_right _ (List.mem_singleton_self _))
      have hends := simulator_ensures (pollOnce_prompt hport hcycle hlag fuel)
      obtain ⟨rfl, hport', startedAt, -, hend, hlate, hhistory'⟩ := hends.sound hr
      refine ⟨hport', List.forall_mem_append.mpr ⟨hresults, by simp⟩,
        cycles ++ [(startedAt, s'.time)], ?_, ?_⟩
      · rw [hhistory', hhistory, reported, reported, List.map_append]
        rfl
      · exact List.rel_append htimes (.cons ⟨hend, hlate⟩ .nil)
    | @died es _ s options s' _ hr ih =>
      obtain ⟨hport, -, -⟩ := ih fun e he => hkeeps e (List.mem_append_left _ he)
      have hcycle := hkeeps _ (List.mem_append_right _ (List.mem_singleton_self _))
      exact ((simulator_ensures (pollOnce_prompt hport hcycle hlag fuel)).sound hr).elim
    | env _ he ih =>
      obtain ⟨hport, hresults, hcycles⟩ := ih hkeeps
      obtain ⟨time', -, rfl⟩ := he
      exact ⟨hport, hresults, hcycles⟩
  obtain ⟨-, hresults, cycles, hhistory, htimes⟩ := hrun
  refine ⟨hresults, ⟨cycles, hhistory, htimes⟩, ?_⟩
  intro hsome
  have hcount : cycles.length = es.length := htimes.length_eq
  obtain ⟨earlier, cycle, rfl⟩ : ∃ earlier cycle, cycles = earlier ++ [cycle] := by
    rcases List.eq_nil_or_concat cycles with rfl | ⟨earlier, cycle, rfl⟩
    · exact absurd (List.length_eq_zero_iff.mp hcount.symm) hsome
    · exact ⟨earlier, cycle, List.concat_eq_append⟩
  have hlast : s.history = reported image earlier ++
      [.publish (parsePd1000Registers image) cycle.1 cycle.2] := by
    rw [hhistory, reported, reported, List.map_append]
    rfl
  have hpublished : publishes (reported image earlier) = earlier.length := by
    rw [publishes, List.countP_eq_length.mpr, reported, List.length_map]
    intro call hcall
    obtain ⟨_, _, rfl⟩ := List.mem_map.mp hcall
    rfl
  have hnewest : LastPublish s.history (reported image earlier) (parsePd1000Registers image)
      cycle.1 cycle.2 := by
    rw [hlast]
    exact .mk rfl
  refine ⟨_, storeAfter_latest hnewest, rfl, ?_, ?_, ?_⟩
  · rw [hpublished, ← hcount, List.length_append]
    rfl
  · refine (servingView_follows s.history).fresh.mpr
      ⟨.publish (parsePd1000Registers image) cycle.1 cycle.2, ?_, rfl⟩
    rw [hlast, List.getLast?_concat]
  · have hquiet : ¬ 3 ≤ silentEnd s.history := by
      have hloud : (StoreCall.publish (parsePd1000Registers image) cycle.1 cycle.2).isSilent =
        false := rfl
      rw [hlast, silentEnd_append, hloud, if_neg Bool.false_ne_true]
      decide
    exact Bool.eq_false_iff.mpr fun halarm => hquiet (storeAfter_alarm.mp halarm)

end Prompt

/-- With the options the gateway starts with, an engine may be held up for 10 ms at a time: two
cycles of it. -/
theorem simulated_cycles_publish_twice : ∃ es s,
    (simulator 0).Run (simulation (Prompt 10000000)) TimePasses ()
      { port := { registers := loopbackRegisters }, time := 0 } es () s ∧ es.length = 2 ∧
    ∃ snapshot, (storeAfter s.history).servingView.snapshot = some snapshot ∧
      snapshot.payload = parsePd1000Registers loopbackRegisters ∧ snapshot.generation = 2 := by
  have hanswers : ∀ o s, ∃ a s', (simulation (Prompt 10000000)).answers o s a s' :=
    simulation_answers fun t => ⟨t, Int.le_refl t, Int.le_add_of_nonneg_right (by decide)⟩
  obtain ⟨first, s₁, hfirst⟩ := Prog.exists_runs hanswers ((simulator 0).program () {})
    { port := { registers := loopbackRegisters }, time := 0 }
  obtain ⟨second, s₂, hsecond⟩ := Prog.exists_runs hanswers ((simulator 0).program () {}) s₁
  have hrun := Service.Run.returned (E := TimePasses) (.returned .start hfirst) hsecond
  have hkeeps : KeepsUp 10000000 {} := ⟨by decide, by decide⟩
  obtain ⟨-, -, hserved⟩ := simulated_cycles_publish (by decide) (fun e he => by
    have hdefault : e.request = {} := by
      simp only [List.nil_append, List.cons_append, List.mem_cons, List.not_mem_nil, or_false] at he
      rcases he with rfl | rfl <;> rfl
    rw [hdefault]
    exact hkeeps) hrun
  obtain ⟨snapshot, hsnapshot, hpayload, hgeneration, -⟩ := hserved (by simp)
  exact ⟨_, _, hrun, rfl, snapshot, hsnapshot, hpayload, hgeneration⟩

/-! ### Out of step -/

/-- The calls of an engine that only listens. -/
def Listens : PollCall → Prop
  | .now | .sleepFor _ | .readSome _ _ => True
  | _ => False

theorem quarantineLoop_listens (duration : Int) (fuel : ℕ) (quiet : Nanoseconds) :
    (quarantineLoop duration fuel quiet).Only Listens := by
  induction fuel generalizing quiet with
  | zero => trivial
  | succ fuel ih =>
    refine ⟨trivial, fun check => Prog.only_ite (fun _ => ⟨trivial, fun now => ⟨trivial, ?_⟩⟩)
      fun _ => trivial⟩
    intro answer
    refine Prog.only_ite (fun _ => ⟨trivial, fun later => ih _⟩) fun _ => ?_
    exact Prog.only_ite (fun _ => ⟨trivial, fun _ => ih _⟩) fun _ => ih _

section OutOfStep

variable {shows : Int → Int → Prop} {s : Simulation} {options : AcquisitionOptions} {next : ℕ}
  {history : List StoreCall}

/-- The simulator waits for the request `next`, and so much has been reported. -/
def AwaitsRequest (next : ℕ) (history : List StoreCall) (s : Simulation) : Prop :=
  s.port.nextRequestIndex = next ∧ s.history = history

theorem steady_listens :
    (simulation shows).Steady (fun _ => False) (AwaitsRequest next history) Listens where
  dies _ _ hd := hd
  cut _ _ _ _ _ hc := hc
  keeps o s a s' ho hs ha := by
    cases o with
    | now =>
      obtain ⟨-, rfl⟩ := ha
      exact hs
    | sleepFor duration =>
      obtain rfl := ha
      exact hs
    | readSome capacity timeout =>
      obtain ⟨-, -, time, -, -, rfl⟩ := ha
      exact hs
    | writeAll data => exact ho.elim
    | publish payload startedAt completedAt => exact ho.elim
    | recordFailure attemptedAt error reason => exact ho.elim

/-- A failed cycle is reported, and the quarantine leaves the simulator waiting. -/
theorem failAndQuarantine_waits (hs : AwaitsRequest next history s) (failure : PollFailure)
    (duration : Int) (fuel : ℕ) :
    Simulates shows (fun result s' => (∀ error, result ≠ .returned true error) ∧
        ∃ attemptedAt, AwaitsRequest next (history ++
          [.recordFailure ⟨attemptedAt, failure.message, failure.reason⟩]) s')
      (failAndQuarantine failure duration fuel) s := by
  refine simulates_readClock fun now _ => simulates_recordFailure (simulates_readClock ?_)
  intro entered _
  have hreported : AwaitsRequest next (history ++
      [.recordFailure ⟨now, failure.message, failure.reason⟩]) { s with
        time := entered
        history := s.history ++ [.recordFailure ⟨now, failure.message, failure.reason⟩] } :=
    ⟨hs.1, congrArg (· ++ _) hs.2⟩
  refine Prog.ensures_bind (Prog.ensures_mono (fun _ h => h) ?_
    (steady_listens.only (quarantineLoop_listens _ _ _) hreported))
  intro ended s' hwaits
  refine simulates_done ⟨?_, now, hwaits⟩
  intro error heq
  cases ended <;> cases heq

/-- Where another request than the first is due, a cycle fails with its first one. -/
theorem pollOnce_out_of_step (hs : AwaitsRequest next history s)
    (hnext : next < kPd1000RequestCount) (hstep : next ≠ 0) (fuel : ℕ) :
    Simulates shows (fun result s' => (∀ error, result ≠ .returned true error) ∧
        ∃ failure, AwaitsRequest next (history ++ [.recordFailure failure]) s')
      (pollOnce options fuel) s := by
  have hplan : planFrom options.slaveId 0 kPd1000RequestCount =
      plannedRequest options.slaveId 0 :: planFrom options.slaveId 1 30 := planFrom_succ _ 0 30
  rw [pollOnce, pd1000RequestPlan_eq, hplan]
  refine simulates_readClock ?_
  intro startedAt _
  have hslave : (plannedRequest options.slaveId 0).slaveId = options.slaveId := rfl
  have hpause : pauseBefore options (startedAt + milliseconds options.cycleDeadline) 0 0 =
      .done (.ok ()) := rfl
  have hblock : Simulates shows (fun result s' => (∃ failure, result = .error failure) ∧
      AwaitsRequest next history s')
      (pollBlock options (startedAt + milliseconds options.cycleDeadline) 0
        (plannedRequest options.slaveId 0)) { s with time := startedAt } := by
    rw [pollBlock, if_neg (not_not.mpr hslave), attempts, hpause]
    refine simulates_readClock ?_
    intro check _
    refine Prog.ensures_ite (fun _ => simulates_done ⟨⟨_, rfl⟩, hs⟩) fun _ => ?_
    refine simulates_writeAll ?_
    have hrefused : s.port.writeAll (plannedRequest options.slaveId 0).wireFrame =
        (false, s.port) := by
      refine writeAll_out_of_turn (by decide) ?_ ?_
      · rw [hs.1]
        exact hnext
      · rw [hs.1]
        exact hstep
    simp only [hrefused]
    exact simulates_done ⟨⟨_, rfl⟩, hs⟩
  refine Prog.ensures_bind (Prog.ensures_bind (Prog.ensures_mono (fun _ h => h) ?_ hblock))
  rintro _ s₁ ⟨⟨failure, rfl⟩, hwaits⟩
  refine simulates_done (Prog.ensures_mono (fun _ h => h) ?_
    (failAndQuarantine_waits hwaits failure options.quarantineDuration fuel))
  rintro result s₂ ⟨hfailed, attemptedAt, hwaits'⟩
  exact ⟨hfailed, _, hwaits'⟩

/-- **A simulator out of step stays out of step**: whatever the clock does, however often the
engine tries and with whatever options, every cycle fails and reports so, and nothing is
published any more. -/
theorem simulation_out_of_step {fuel : ℕ} {port : LoopbackPd1000Port} {time : Int}
    {es : List (Episode Simulation AcquisitionOptions PollResult)}
    (hstep : port.nextRequestIndex ≠ 0) (hnext : port.nextRequestIndex < kPd1000RequestCount)
    (h : (simulator fuel).Run (simulation shows) TimePasses ()
      { port := port, time := time, history := history } es () s) :
    s.port.nextRequestIndex = port.nextRequestIndex ∧
      (∀ e ∈ es, ∀ error, e.result ≠ some (.returned true error)) ∧
      ∃ failures : List SnapshotStore.Failure, failures.length = es.length ∧
        s.history = history ++ failures.map .recordFailure := by
  generalize () = memory at h
  induction h with
  | start => exact ⟨rfl, fun e he => absurd he List.not_mem_nil, [], rfl, (List.append_nil _).symm⟩
  | @returned es _ s options r _ s' _ hr ih =>
    obtain ⟨hport, hresults, failures, hlen, hhistory⟩ := ih
    obtain ⟨hfailed, failure, hport', hhistory'⟩ := (simulator_ensures
      (pollOnce_out_of_step ⟨hport, hhistory⟩ hnext hstep fuel)).sound hr
    refine ⟨hport', List.forall_mem_append.mpr ⟨hresults, ?_⟩, failures ++ [failure], ?_, ?_⟩
    · intro e he error heq
      rw [List.mem_singleton.mp he] at heq
      exact hfailed error (Option.some.inj heq)
    · rw [List.length_append, List.length_append, hlen]
      rfl
    · rw [hhistory', List.map_append, ← List.append_assoc]
      rfl
  | died _ hr ih =>
    obtain ⟨hport, -, failures, -, hhistory⟩ := ih
    exact ((simulator_ensures (pollOnce_out_of_step ⟨hport, hhistory⟩ hnext hstep fuel)).sound
      hr).elim
  | env _ he ih =>
    obtain ⟨time', -, rfl⟩ := he
    exact ih

/-- A clock that shows 200 ms more at every look, more than the engine waits for an answer. -/
def Late (t t' : Int) : Prop := t' = t + 200000000

theorem readExact_late {deadline : Int} (hover : deadline ≤ s.time + 200000000) :
    Simulates Late (fun got s' => got = (false, []) ∧ s'.port = s.port ∧ s'.history = s.history)
      (readExact deadline kResponseHeaderBytes) s := by
  rw [readExact, if_neg (by decide)]
  refine simulates_readClock ?_
  rintro now rfl
  rw [if_pos hover]
  exact simulates_done ⟨rfl, rfl, rfl⟩

/-- With it the first request is answered, but the engine does not wait for that. -/
theorem pollOnce_late {image : Registers} (hport : s.port = ⟨image, [], 0⟩)
    (htimeout : options.responseTimeout ≤ 200) (hcycle : 200 < options.cycleDeadline) (fuel : ℕ) :
    Simulates Late (fun _ s' => s'.port.nextRequestIndex = 1) (pollOnce options fuel) s := by
  have hplan : planFrom options.slaveId 0 kPd1000RequestCount =
      plannedRequest options.slaveId 0 :: planFrom options.slaveId 1 30 := planFrom_succ _ 0 30
  rw [pollOnce, pd1000RequestPlan_eq, hplan]
  refine simulates_readClock ?_
  intro startedAt _
  have hslave : (plannedRequest options.slaveId 0).slaveId = options.slaveId := rfl
  have hpause : pauseBefore options (startedAt + milliseconds options.cycleDeadline) 0 0 =
      .done (.ok ()) := rfl
  have hblock : Simulates Late (fun result s' => (∃ failure, result = .error failure) ∧
      AwaitsRequest 1 s.history s')
      (pollBlock options (startedAt + milliseconds options.cycleDeadline) 0
        (plannedRequest options.slaveId 0)) { s with time := startedAt } := by
    rw [pollBlock, if_neg (not_not.mpr hslave), attempts, hpause]
    refine simulates_readClock ?_
    rintro check hcheck
    replace hcheck : check = startedAt + 200000000 := hcheck
    have hin : check < startedAt + milliseconds options.cycleDeadline := by
      show check < startedAt + options.cycleDeadline * 1000000
      omega
    rw [if_neg (Int.not_le.mpr hin)]
    refine simulates_writeAll ?_
    have hturn : s.port.writeAll (plannedRequest options.slaveId 0).wireFrame =
        (true, ⟨image, encodeResponse options.slaveId image 0, 1⟩) := by
      rw [hport, writeAll_in_turn (by decide)]
      rfl
    simp only [hturn]
    refine simulates_readClock fun sent _ => ?_
    refine Prog.ensures_bind (Prog.ensures_bind (Prog.ensures_mono (fun _ h => h) ?_
      (readExact_late (Int.le_trans (Int.min_le_right _ _) ?_))))
    · rintro _ s₁ ⟨rfl, hport', hhistory⟩
      refine simulates_done (simulates_done ⟨⟨_, rfl⟩, ?_, hhistory⟩)
      rw [hport']
    · show sent + options.responseTimeout * 1000000 ≤ sent + 200000000
      omega
  refine Prog.ensures_bind (Prog.ensures_bind (Prog.ensures_mono (fun _ h => h) ?_ hblock))
  rintro _ s₁ ⟨⟨failure, rfl⟩, hwaits⟩
  refine simulates_done (Prog.ensures_mono (fun _ h => h) ?_
    (failAndQuarantine_waits hwaits failure options.quarantineDuration fuel))
  rintro result s₂ ⟨-, attemptedAt, hwaits'⟩
  exact hwaits'.1

/-- A first cycle that is held up once loses the step; the next one fails, and so would any. -/
theorem simulation_out_of_step_late : ∃ first second s s',
    (simulator 0).Run (simulation Late) TimePasses ()
      { port := { registers := loopbackRegisters }, time := 0 } [first] () s ∧
    (simulator 0).Run (simulation Late) TimePasses () s [second] () s' ∧
    s.port.nextRequestIndex = 1 ∧ s'.port.nextRequestIndex = 1 ∧
    ∀ error, second.result ≠ some (.returned true error) := by
  have hanswers : ∀ o s, ∃ a s', (simulation Late).answers o s a s' :=
    simulation_answers fun t => ⟨_, rfl⟩
  obtain ⟨r, s, hr⟩ := Prog.exists_runs hanswers ((simulator 0).program () {})
    { port := { registers := loopbackRegisters }, time := 0 }
  obtain ⟨r', s', hr'⟩ := Prog.exists_runs hanswers ((simulator 0).program () {}) s
  have hfirst : s.port.nextRequestIndex = 1 :=
    (simulator_ensures (pollOnce_late rfl (by decide) (by decide) 0)).sound hr
  obtain ⟨hsame, hfailed, -⟩ := simulation_out_of_step (by rw [hfirst]; decide)
    (by rw [hfirst]; decide) (.returned .start hr')
  exact ⟨_, _, s, s', .returned .start hr, .returned .start hr', hfirst, hsame.trans hfirst,
    hfailed _ (List.mem_singleton_self _)⟩

end OutOfStep

end Uhf.Acquisition
