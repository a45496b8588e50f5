/-
What happens on the line while a block is polled.

A cycle is judged by its trace.  The relations here say which stretches of a
trace are a delivered frame, a valid answer, an answer worth a retry and a block
that was accepted in the end; they speak of the port and of the clock only.

* `exec_readExact`, `readResponse_cases` — what reading a frame can come to;
* `AcceptedBlocks.of_pollBlocks`, `AcceptedBlocks.pollBlocks` — the plan is worked off
  successfully exactly if every block is accepted in its turn.
-/
import Mathlib.Data.List.GetD
import UhfGateway.Acquisition.Poll

namespace Uhf.Acquisition

open Domain Effects

/-! ### Acts of the engine -/

namespace Did

def now (t : Nanoseconds) : Act pollCalls := ⟨.now, t⟩

def sleepFor (duration : Nanoseconds) : Act pollCalls := ⟨.sleepFor duration, ()⟩

def writeAll (data : Bytes) (ok : Bool) : Act pollCalls := ⟨.writeAll data, ok⟩

def readSome {capacity : ℕ} (timeout : Int) (answer : ReadSome capacity) : Act pollCalls :=
  ⟨.readSome capacity timeout, answer⟩

def publish (payload : ParsedSnapshot) (startedAt completedAt : Nanoseconds) : Act pollCalls :=
  ⟨.publish payload startedAt completedAt, ()⟩

def recordFailure (attemptedAt : Nanoseconds) (error : Bytes) (reason : FailureReason) :
    Act pollCalls := ⟨.recordFailure attemptedAt error reason, ()⟩

end Did

section Acts

variable {α : Type} {trace : Trace pollCalls} {r : α}

theorem exec_readClock {k : Nanoseconds → Prog pollCalls α} :
    (readClock k).Exec trace r ↔ ∃ t rest, trace = Did.now t :: rest ∧ (k t).Exec rest r :=
  Prog.exec_call

theorem exec_sleepFor {duration : Nanoseconds} {k : Prog pollCalls α} :
    (sleepFor duration k).Exec trace r ↔
      ∃ rest, trace = Did.sleepFor duration :: rest ∧ k.Exec rest r := by
  rw [sleepFor, Prog.exec_call]
  constructor
  · rintro ⟨_, rest, h⟩
    exact ⟨rest, h⟩
  · rintro ⟨rest, h⟩
    exact ⟨(), rest, h⟩

theorem exec_writeAll {data : Bytes} {k : Bool → Prog pollCalls α} :
    (writeAll data k).Exec trace r ↔
      ∃ ok rest, trace = Did.writeAll data ok :: rest ∧ (k ok).Exec rest r :=
  Prog.exec_call

theorem exec_readSome {capacity : ℕ} {timeout : Int} {k : ReadSome capacity → Prog pollCalls α} :
    (readSome capacity timeout k).Exec trace r ↔
      ∃ answer rest, trace = Did.readSome timeout answer :: rest ∧ (k answer).Exec rest r :=
  Prog.exec_call

end Acts

/-! ### Bytes delivered before a deadline -/

/-- The reads deliver exactly `size` bytes, each of them begun before the deadline. -/
inductive Delivered (deadline : Nanoseconds) : ℕ → Trace pollCalls → Bytes → Prop
  | all : Delivered deadline 0 [] []
  | chunk {size : ℕ} {begun : Nanoseconds} {answer : ReadSome size} {trace : Trace pollCalls}
      {rest : Bytes} (inTime : begun < deadline) (ok : answer.ok = true)
      (some : answer.bytes ≠ []) (later : Delivered deadline (size - answer.bytes.length) trace rest) :
      Delivered deadline size
        (Did.now begun :: Did.readSome (readTimeout (deadline - begun)) answer :: trace)
        (answer.bytes ++ rest)

theorem Delivered.length {deadline : Nanoseconds} {size : ℕ} {trace : Trace pollCalls}
    {bytes : Bytes} (h : Delivered deadline size trace bytes) : bytes.length = size := by
  induction h with
  | all => rfl
  | @chunk size _ answer _ _ _ _ _ _ ih =>
    have hfits := answer.fits
    rw [List.length_append, ih]
    omega

theorem exec_readExact {deadline : Nanoseconds} {size : ℕ} {trace : Trace pollCalls}
    {bytes : Bytes} :
    (readExact deadline size).Exec trace (true, bytes) ↔ Delivered deadline size trace bytes := by
  constructor
  · -- every chunk is nonempty, so the size goes down from read to read
    intro h
    induction size using Nat.strongRecOn generalizing trace bytes with
    | ind size ih =>
      rw [readExact] at h
      split at h
      · next hsize =>
        obtain ⟨rfl, hbytes⟩ := Prog.exec_done.mp h
        rw [hsize, (Prod.mk.inj hbytes).2]
        exact .all
      · obtain ⟨begun, rest, rfl, hclock⟩ := exec_readClock.mp h
        split at hclock
        · simp [Prog.exec_done] at hclock
        · next htime =>
          obtain ⟨answer, rest, rfl, hread⟩ := exec_readSome.mp hclock
          split at hread
          · simp [Prog.exec_done] at hread
          · next hok =>
            split at hread
            · simp [Prog.exec_done] at hread
            · next hsome =>
              obtain ⟨reads, last, got, rfl, hreads, hlast⟩ := Prog.exec_bind.mp hread
              obtain ⟨rfl, hgot⟩ := Prog.exec_done.mp hlast
              obtain ⟨hfull, rfl⟩ := Prod.mk.inj hgot
              have hpos := List.length_pos_iff.mpr hsome
              have hfits := answer.fits
              rw [List.append_nil]
              refine .chunk (Int.not_le.mp htime) (by simpa using hok) hsome (ih _ (by omega) ?_)
              rw [hfull]
              exact hreads
  · intro h
    induction h with
    | all =>
      rw [readExact, if_pos rfl]
      exact .done _
    | @chunk size begun answer trace rest inTime ok some _ ih =>
      have hpos := List.length_pos_iff.mpr some
      have hfits := answer.fits
      rw [readExact, if_neg (by omega)]
      refine exec_readClock.mpr ⟨begun, _, rfl, ?_⟩
      rw [if_neg (Int.not_le.mpr inTime)]
      refine exec_readSome.mpr ⟨answer, trace, rfl, ?_⟩
      rw [ok, dif_neg some, if_neg (by simp)]
      rw [← List.append_nil trace]
      exact ih.bind (.done _)

/-! ### Answers to a request -/

/-- A complete answer of `slaveId` to a request for `count` registers. -/
structure ValidResponse (slaveId : UInt8) (count : ℕ) (response : Bytes) : Prop where
  length : response.length = 5 + count * 2
  slave : response.getD 0 0 = slaveId
  function : response.getD 1 0 = kReadInputRegistersFunction
  byteCount : (response.getD 2 0).toNat = count * 2
  crc : CrcMatches response

/-- The reads deliver the response, its header and its rest one after the other. -/
def Arrives (deadline : Nanoseconds) (trace : Trace pollCalls) (response : Bytes) : Prop :=
  ∃ first rest header body, trace = first ++ rest ∧ response = header ++ body ∧
    Delivered deadline kResponseHeaderBytes first header ∧
    Delivered deadline (response.length - kResponseHeaderBytes) rest body

/-- The answers that are worth another attempt: an exception frame, with any CRC,
and a frame of the right shape with a wrong CRC. -/
structure RetryableResponse (slaveId : UInt8) (count : ℕ) (response : Bytes) : Prop where
  slave : response.getD 0 0 = slaveId
  cause : (response.length = 5 ∧ response.getD 1 0 = kReadInputRegistersFunction ||| 0x80) ∨
    (response.length = 5 + count * 2 ∧ response.getD 1 0 = kReadInputRegistersFunction ∧
      (response.getD 2 0).toNat = count * 2 ∧ ¬ CrcMatches response)

/-- The header of a response that is read in two parts is its first three bytes. -/
theorem getD_header {deadline : Nanoseconds} {trace : Trace pollCalls} {header : Bytes}
    (h : Delivered deadline kResponseHeaderBytes trace header) (body : Bytes) {i : ℕ} (hi : i < 3) :
    (header ++ body).getD i 0 = header.getD i 0 := by
  refine List.getD_append _ _ _ _ ?_
  rw [h.length]
  exact hi

theorem arrives_of_delivered {deadline : Nanoseconds} {first rest : Trace pollCalls}
    {header body : Bytes} {size : ℕ} (hheader : Delivered deadline kResponseHeaderBytes first header)
    (hbody : Delivered deadline size rest body) :
    Arrives deadline (first ++ rest) (header ++ body) := by
  refine ⟨first, rest, header, body, rfl, rfl, hheader, ?_⟩
  rw [List.length_append, hheader.length, hbody.length, Nat.add_sub_cancel_left]
  exact hbody

/-- Everything `readResponse` can do. -/
theorem readResponse_cases {request : ModbusReadRequest} {options : AcquisitionOptions}
    {deadline : Nanoseconds} {trace : Trace pollCalls} {result : ResponseResult}
    (h : (readResponse request options deadline).Exec trace result) :
    result = .noResponse ∨ result = .fatalError ∨
      ∃ response, Arrives deadline trace response ∧
        ((ValidResponse options.slaveId request.registerCount.toNat response ∧
            result = .complete response) ∨
          (RetryableResponse options.slaveId request.registerCount.toNat response ∧
            result = .retryableError)) := by
  obtain ⟨first, rest, ⟨ok, header⟩, rfl, hheader, hrest⟩ := Prog.exec_bind.mp h
  cases ok with
  | false =>
    obtain ⟨_, rfl⟩ := Prog.exec_done.mp hrest
    by_cases hempty : header.isEmpty
    · exact .inl (if_pos hempty)
    · exact .inr (.inl (if_neg hempty))
  | true =>
    rw [exec_readExact] at hheader
    have hat : ∀ body i, i < 3 → (header ++ body).getD i 0 = header.getD i 0 :=
      fun body i hi => getD_header hheader body hi
    rw [if_neg (by simp)] at hrest
    -- a foreign slave address is fatal: nothing more is read
    split at hrest
    · exact .inr (.inl (Prog.exec_done.mp hrest).2)
    next hslave =>
    rw [ne_eq, not_not] at hslave
    split at hrest
    · -- an exception frame: two more bytes, whatever they are
      next hfunction =>
      obtain ⟨reads, last, ⟨full, body⟩, rfl, hbody, hlast⟩ := Prog.exec_bind.mp hrest
      cases full with
      | false => exact .inr (.inl (Prog.exec_done.mp hlast).2)
      | true =>
        rw [exec_readExact] at hbody
        obtain ⟨rfl, rfl⟩ := Prog.exec_done.mp hlast
        rw [List.append_nil]
        refine .inr (.inr ⟨header ++ body, arrives_of_delivered hheader hbody,
          .inr ⟨⟨?_, .inl ⟨?_, ?_⟩⟩, rfl⟩⟩)
        · rw [hat body 0 (by omega), hslave]
        · rw [List.length_append, hheader.length, hbody.length, kResponseHeaderBytes]
        · rw [hat body 1 (by omega), hfunction]
    split at hrest
    · exact .inr (.inl (Prog.exec_done.mp hrest).2)
    next hshape =>
    rw [not_or, ne_eq, ne_eq, not_not, not_not] at hshape
    obtain ⟨reads, last, ⟨full, body⟩, rfl, hbody, hlast⟩ := Prog.exec_bind.mp hrest
    cases full with
    | false => exact .inr (.inl (Prog.exec_done.mp hlast).2)
    | true =>
      rw [exec_readExact] at hbody
      have hlen : (header ++ body).length = 5 + request.registerCount.toNat * 2 := by
        rw [List.length_append, hheader.length, hbody.length, kResponseHeaderBytes,
          kResponseCrcBytes]
        omega
      have hsl : (header ++ body).getD 0 0 = options.slaveId := by
        rw [hat body 0 (by omega), hslave]
      have hfn : (header ++ body).getD 1 0 = kReadInputRegistersFunction := by
        rw [hat body 1 (by omega), hshape.1]
      have hbc : ((header ++ body).getD 2 0).toNat = request.registerCount.toNat * 2 := by
        rw [hat body 2 (by omega), hshape.2]
      rw [if_neg (by simp)] at hlast
      refine .inr (.inr ⟨header ++ body, ?_⟩)
      -- the whole frame is here, and only its checksum can still be wrong
      split at hlast
      · next hcrc =>
        obtain ⟨rfl, rfl⟩ := Prog.exec_done.mp hlast
        rw [List.append_nil]
        exact ⟨arrives_of_delivered hheader hbody, .inl ⟨⟨hlen, hsl, hfn, hbc, hcrc⟩, rfl⟩⟩
      · next hcrc =>
        obtain ⟨rfl, rfl⟩ := Prog.exec_done.mp hlast
        rw [List.append_nil]
        exact ⟨arrives_of_delivered hheader hbody,
          .inr ⟨⟨hsl, .inr ⟨hlen, hfn, hbc, hcrc⟩⟩, rfl⟩⟩

theorem exec_readResponse_complete {request : ModbusReadRequest} {options : AcquisitionOptions}
    {deadline : Nanoseconds} {trace : Trace pollCalls} {response : Bytes}
    (hvalid : ValidResponse options.slaveId request.registerCount.toNat response)
    (harrives : Arrives deadline trace response) :
    (readResponse request options deadline).Exec trace (.complete response) := by
  obtain ⟨first, rest, header, body, rfl, rfl, hheader, hbody⟩ := harrives
  have hslave := hvalid.slave
  have hfunction := hvalid.function
  have hcount := hvalid.byteCount
  rw [getD_header hheader body (by omega)] at hslave hfunction hcount
  have hsize : (header ++ body).length - kResponseHeaderBytes =
      request.registerCount.toNat * 2 + kResponseCrcBytes := by
    rw [hvalid.length, kResponseHeaderBytes, kResponseCrcBytes]
    omega
  rw [hsize] at hbody
  refine Prog.Exec.bind (exec_readExact.mpr hheader) ?_
  rw [if_neg (by simp), if_neg (not_not.mpr hslave), if_neg (by rw [hfunction]; decide),
    if_neg (not_or.mpr ⟨not_not.mpr hfunction, not_not.mpr hcount⟩)]
  rw [← List.append_nil rest]
  refine Prog.Exec.bind (exec_readExact.mpr hbody) ?_
  rw [if_neg (by simp), if_pos hvalid.crc]
  exact .done _

theorem exec_readResponse_retryable {request : ModbusReadRequest} {options : AcquisitionOptions}
    {deadline : Nanoseconds} {trace : Trace pollCalls} {response : Bytes}
    (hretry : RetryableResponse options.slaveId request.registerCount.toNat response)
    (harrives : Arrives deadline trace response) :
    (readResponse request options deadline).Exec trace .retryableError := by
  obtain ⟨first, rest, header, body, rfl, rfl, hheader, hbody⟩ := harrives
  have hslave := hretry.slave
  have hcause := hretry.cause
  rw [getD_header hheader body (by omega)] at hslave
  simp only [getD_header hheader body (show 1 < 3 by omega),
    getD_header hheader body (show 2 < 3 by omega)] at hcause
  refine Prog.Exec.bind (exec_readExact.mpr hheader) ?_
  rw [if_neg (by simp), if_neg (not_not.mpr hslave), ← List.append_nil rest]
  obtain ⟨hlen, hfunction⟩ | ⟨hlen, hfunction, hcount, hcrc⟩ := hcause
  · -- an exception frame is retried without a look at its checksum
    rw [if_pos hfunction]
    rw [hlen] at hbody
    refine Prog.Exec.bind (exec_readExact.mpr hbody) ?_
    rw [if_neg (by simp)]
    exact .done _
  · have hsize : (header ++ body).length - kResponseHeaderBytes =
        request.registerCount.toNat * 2 + kResponseCrcBytes := by
      rw [hlen, kResponseHeaderBytes, kResponseCrcBytes]
      omega
    rw [hsize] at hbody
    rw [if_neg (by rw [hfunction]; decide),
      if_neg (not_or.mpr ⟨not_not.mpr hfunction, not_not.mpr hcount⟩)]
    refine Prog.Exec.bind (exec_readExact.mpr hbody) ?_
    rw [if_neg (by simp), if_neg hcrc]
    exact .done _

/-! ### Attempts -/

/-- What the clock has read. -/
def clockReadings (trace : Trace pollCalls) : List Nanoseconds :=
  trace.filterMap fun
    | ⟨.now, t⟩ => some t
    | _ => none

/-- The clock does not go back. -/
def SteadyClock (trace : Trace pollCalls) : Prop := (clockReadings trace).Pairwise (· ≤ ·)

theorem clockReadings_append (trace later : Trace pollCalls) :
    clockReadings (trace ++ later) = clockReadings trace ++ clockReadings later :=
  List.filterMap_append

theorem SteadyClock.split {trace later : Trace pollCalls} (h : SteadyClock (trace ++ later)) :
    SteadyClock trace ∧ SteadyClock later ∧
      ∀ t ∈ clockReadings trace, ∀ u ∈ clockReadings later, t ≤ u := by
  rw [SteadyClock, clockReadings_append, List.pairwise_append] at h
  exact h

section Attempts

variable (options : AcquisitionOptions) (deadline : Nanoseconds) (planIndex : ℕ)
  (request : ModbusReadRequest)

/-- How long the pause before an attempt lasts that begins at `now`. -/
def pauseLength (attempt : ℕ) (now : Nanoseconds) : Nanoseconds :=
  microseconds (min (if 0 < attempt then options.retryDelay * 1000 else options.interFrameSilence)
    ((deadline - now).tdiv 1000))

/-- The pause before an attempt; the first attempt at the first block has none. -/
inductive Pause (attempt : ℕ) : Trace pollCalls → Prop
  | none (first : planIndex = 0) (fresh : attempt = 0) : Pause attempt []
  | slept {now later : Nanoseconds} (due : planIndex ≠ 0 ∨ 0 < attempt) :
      Pause attempt [Did.now now, Did.sleepFor (pauseLength options deadline attempt now),
        Did.now later]

/-- The request is written, after a look at the clock strictly before the deadline. -/
inductive Asked (attempt : ℕ) : Trace pollCalls → Nanoseconds → Prop
  | asked {pause : Trace pollCalls} {check sent : Nanoseconds}
      (paused : Pause options deadline planIndex attempt pause) (inTime : check < deadline) :
      Asked attempt
        (pause ++ [Did.now check, Did.writeAll request.wireFrame true, Did.now sent]) sent

/-- When the wait for an answer ends. -/
def responseDeadline (sent : Nanoseconds) : Nanoseconds :=
  min deadline (sent + milliseconds options.responseTimeout)

/-- The block is accepted: after some answers worth a retry, and within the
attempts there are, a valid response has arrived. -/
inductive AcceptedBlock : ℕ → Trace pollCalls → Bytes → Prop
  | answered {attempt : ℕ} {asking reads : Trace pollCalls} {sent : Nanoseconds} {response : Bytes}
      (budget : attempt ≤ options.maxRetries.toNat)
      (asked : Asked options deadline planIndex request attempt asking sent)
      (arrives : Arrives (responseDeadline options deadline sent) reads response)
      (valid : ValidResponse options.slaveId request.registerCount.toNat response) :
      AcceptedBlock attempt (asking ++ reads) response
  | retried {attempt : ℕ} {asking reads rest : Trace pollCalls} {sent : Nanoseconds}
      {rejected response : Bytes} (budget : attempt ≤ options.maxRetries.toNat)
      (asked : Asked options deadline planIndex request attempt asking sent)
      (arrives : Arrives (responseDeadline options deadline sent) reads rejected)
      (retryable : RetryableResponse options.slaveId request.registerCount.toNat rejected)
      (next : AcceptedBlock (attempt + 1) rest response) :
      AcceptedBlock attempt (asking ++ (reads ++ rest)) response

end Attempts

section Attempts

variable {options : AcquisitionOptions} {deadline : Nanoseconds} {planIndex : ℕ}
  {request : ModbusReadRequest}

theorem sleepUntil_in_time {duration : Int} {trace : Trace pollCalls}
    (h : (sleepUntil deadline duration).Exec trace true) :
    ∃ now later, trace = [Did.now now,
      Did.sleepFor (microseconds (min duration ((deadline - now).tdiv 1000))), Did.now later] := by
  obtain ⟨now, rest, rfl, hnow⟩ := exec_readClock.mp h
  split at hnow
  · simp [Prog.exec_done] at hnow
  · obtain ⟨rest, rfl, hslept⟩ := exec_sleepFor.mp hnow
    obtain ⟨later, rest, rfl, hlater⟩ := exec_readClock.mp hslept
    obtain ⟨rfl, _⟩ := Prog.exec_done.mp hlater
    exact ⟨now, later, rfl⟩

theorem exec_sleepUntil {duration : Int} {now later : Nanoseconds} (hnow : now < deadline)
    (hlater : later < deadline) :
    (sleepUntil deadline duration).Exec [Did.now now,
      Did.sleepFor (microseconds (min duration ((deadline - now).tdiv 1000))), Did.now later]
      true := by
  refine exec_readClock.mpr ⟨now, _, rfl, ?_⟩
  rw [if_neg (Int.not_le.mpr hnow)]
  refine exec_sleepFor.mpr ⟨_, rfl, exec_readClock.mpr ⟨later, _, rfl, ?_⟩⟩
  rw [decide_eq_true hlater]
  exact .done _

/-- Sleeping and going on only if it is not too late. -/
theorem exec_sleepUntil_ok {duration : Int} {failure : PollFailure} {trace : Trace pollCalls}
    (h : (sleepUntil deadline duration >>= fun inTime =>
      (.done (if inTime then .ok () else .error failure) :
        Prog pollCalls (Except PollFailure Unit))).Exec trace (.ok ())) :
    (sleepUntil deadline duration).Exec trace true := by
  obtain ⟨first, last, inTime, rfl, hfirst, hlast⟩ := Prog.exec_bind.mp h
  obtain ⟨rfl, hr⟩ := Prog.exec_done.mp hlast
  cases inTime with
  | false => cases hr
  | true =>
    rw [List.append_nil]
    exact hfirst

theorem pause_of_pauseBefore {attempt : ℕ} {trace : Trace pollCalls}
    (h : (pauseBefore options deadline planIndex attempt).Exec trace (.ok ())) :
    Pause options deadline planIndex attempt trace := by
  rw [pauseBefore] at h
  by_cases hattempt : 0 < attempt
  · rw [if_pos hattempt] at h
    obtain ⟨now, later, rfl⟩ := sleepUntil_in_time (exec_sleepUntil_ok h)
    have hlength : pauseLength options deadline attempt now =
        microseconds (min (options.retryDelay * 1000) ((deadline - now).tdiv 1000)) := by
      rw [pauseLength, if_pos hattempt]
    rw [← hlength]
    exact .slept (.inr hattempt)
  · rw [if_neg hattempt] at h
    by_cases hplan : planIndex = 0
    · rw [if_neg (not_not.mpr hplan)] at h
      obtain ⟨rfl, _⟩ := Prog.exec_done.mp h
      exact .none hplan (by omega)
    · rw [if_pos hplan] at h
      obtain ⟨now, later, rfl⟩ := sleepUntil_in_time (exec_sleepUntil_ok h)
      have hlength : pauseLength options deadline attempt now =
          microseconds (min options.interFrameSilence ((deadline - now).tdiv 1000)) := by
        rw [pauseLength, if_neg hattempt]
      rw [← hlength]
      exact .slept (.inl hplan)

theorem Pause.pauseBefore {attempt : ℕ} {trace : Trace pollCalls}
    (h : Pause options deadline planIndex attempt trace)
    (hclock : ∀ t ∈ clockReadings trace, t < deadline) :
    (pauseBefore options deadline planIndex attempt).Exec trace (.ok ()) := by
  rw [Acquisition.pauseBefore]
  cases h with
  | none first fresh =>
    rw [if_neg (by omega), if_neg (not_not.mpr first)]
    exact .done _
  | @slept now later due =>
    have hnow : now < deadline := hclock now (by simp [clockReadings, Did.now])
    have hlater : later < deadline := hclock later (by simp [clockReadings, Did.now])
    rw [pauseLength]
    by_cases hattempt : 0 < attempt
    · rw [if_pos hattempt, if_pos hattempt]
      exact (exec_sleepUntil hnow hlater).bind (.done _)
    · rw [if_neg hattempt, if_neg hattempt, if_pos (due.resolve_right hattempt)]
      exact (exec_sleepUntil hnow hlater).bind (.done _)

/-- Everything one pass of the loop over the attempts can do. -/
theorem attempts_cases {left attempt : ℕ} {retryError : Bytes} {trace : Trace pollCalls}
    {result : Except PollFailure Bytes}
    (h : (attempts options deadline planIndex request (left + 1) attempt retryError).Exec
      trace result) :
    (∃ failure, result = .error failure) ∨
      ∃ asking reads rest sent response,
        trace = asking ++ (reads ++ rest) ∧
        Asked options deadline planIndex request attempt asking sent ∧
        Arrives (responseDeadline options deadline sent) reads response ∧
        ((ValidResponse options.slaveId request.registerCount.toNat response ∧ rest = [] ∧
            result = .ok response) ∨
          (RetryableResponse options.slaveId request.registerCount.toNat response ∧
            (attempts options deadline planIndex request left (attempt + 1)
              (ascii "Modbus response CRC or exception error")).Exec rest result)) := by
  rw [attempts] at h
  obtain ⟨pause, rest, paused, rfl, hpause, hrest⟩ := Prog.exec_bind.mp h
  cases paused with
  | error failure => exact .inl ⟨failure, (Prog.exec_done.mp hrest).2⟩
  | ok u =>
    obtain ⟨check, rest, rfl, hcheck⟩ := exec_readClock.mp hrest
    -- the deadline of the cycle is checked between the pause and the request
    split at hcheck
    · exact .inl ⟨_, (Prog.exec_done.mp hcheck).2⟩
    next hin =>
    obtain ⟨written, rest, rfl, hwritten⟩ := exec_writeAll.mp hcheck
    cases written with
    | false => exact .inl ⟨_, (Prog.exec_done.mp hwritten).2⟩
    | true =>
      obtain ⟨sent, rest, rfl, hsent⟩ := exec_readClock.mp hwritten
      obtain ⟨reads, rest, answer, rfl, hreads, hafter⟩ := Prog.exec_bind.mp hsent
      have hasked : Asked options deadline planIndex request attempt
          (pause ++ [Did.now check, Did.writeAll request.wireFrame true, Did.now sent]) sent :=
        .asked (pause_of_pauseBefore hpause) (Int.not_le.mp hin)
      have htrace : pause ++ Did.now check :: Did.writeAll request.wireFrame true ::
          Did.now sent :: (reads ++ rest) = (pause ++ [Did.now check,
            Did.writeAll request.wireFrame true, Did.now sent]) ++ (reads ++ rest) := by
        simp
      -- no answer and a fatal one end the block, an answer to retry starts the next attempt
      obtain rfl | rfl | ⟨response, harrives, ⟨hvalid, rfl⟩ | ⟨hretry, rfl⟩⟩ :=
        readResponse_cases hreads
      · exact .inl ⟨_, (Prog.exec_done.mp hafter).2⟩
      · exact .inl ⟨_, (Prog.exec_done.mp hafter).2⟩
      · obtain ⟨hnil, hresult⟩ := Prog.exec_done.mp hafter
        exact .inr ⟨_, reads, rest, sent, response, htrace, hasked, harrives,
          .inl ⟨hvalid, hnil, hresult⟩⟩
      · exact .inr ⟨_, reads, rest, sent, response, htrace, hasked, harrives,
          .inr ⟨hretry, hafter⟩⟩

theorem AcceptedBlock.of_attempts {left attempt : ℕ} {retryError : Bytes}
    {trace : Trace pollCalls} {response : Bytes}
    (hleft : left + attempt = options.maxRetries.toNat + 1)
    (h : (attempts options deadline planIndex request left attempt retryError).Exec trace
      (.ok response)) :
    AcceptedBlock options deadline planIndex request attempt trace response := by
  induction left generalizing attempt retryError trace with
  | zero => cases (Prog.exec_done.mp h).2
  | succ left ih =>
    have hbudget : attempt ≤ options.maxRetries.toNat := by omega
    obtain ⟨_, hfail⟩ | ⟨asking, reads, rest, sent, got, rfl, hasked, harrives, hend⟩ :=
      attempts_cases h
    · cases hfail
    · obtain ⟨hvalid, rfl, hok⟩ | ⟨hretry, hnext⟩ := hend
      · cases hok
        rw [List.append_nil]
        exact .answered hbudget hasked harrives hvalid
      · exact .retried hbudget hasked harrives hretry (ih (by omega) hnext)

/-- The look at the clock before the request speaks for the looks during the pause. -/
theorem Asked.paused {attempt : ℕ} {asking : Trace pollCalls} {sent : Nanoseconds}
    (h : Asked options deadline planIndex request attempt asking sent)
    (hclock : SteadyClock asking) :
    ∃ pause check,
      asking = pause ++ [Did.now check, Did.writeAll request.wireFrame true, Did.now sent] ∧
      (pauseBefore options deadline planIndex attempt).Exec pause (.ok ()) ∧
      ¬ deadline ≤ check := by
  obtain @⟨pause, check, sent, hpaused, hin⟩ := h
  refine ⟨pause, check, rfl, hpaused.pauseBefore ?_, Int.not_le.mpr hin⟩
  intro t ht
  have hle : t ≤ check := hclock.split.2.2 t ht check (by simp [clockReadings, Did.now])
  exact Int.lt_of_le_of_lt hle hin

theorem AcceptedBlock.attempts {left attempt : ℕ} {retryError : Bytes}
    {trace : Trace pollCalls} {response : Bytes}
    (h : AcceptedBlock options deadline planIndex request attempt trace response)
    (hleft : left + attempt = options.maxRetries.toNat + 1) (hclock : SteadyClock trace) :
    (attempts options deadline planIndex request left attempt retryError).Exec trace
      (.ok response) := by
  induction h generalizing left retryError with
  | @answered attempt asking reads sent response budget asked arrives valid =>
    obtain ⟨left, rfl⟩ : ∃ n, left = n + 1 := ⟨left - 1, by omega⟩
    obtain ⟨pause, check, rfl, hpause, hin⟩ := asked.paused hclock.split.1
    rw [Acquisition.attempts, List.append_assoc]
    refine hpause.bind (exec_readClock.mpr ⟨check, _, rfl, ?_⟩)
    rw [if_neg hin]
    refine exec_writeAll.mpr ⟨true, _, rfl, exec_readClock.mpr ⟨sent, reads ++ [], by simp, ?_⟩⟩
    exact (exec_readResponse_complete valid arrives).bind (.done _)
  | @retried attempt asking reads rest sent rejected response budget asked arrives retryable _ ih =>
    obtain ⟨left, rfl⟩ : ∃ n, left = n + 1 := ⟨left - 1, by omega⟩
    obtain ⟨pause, check, rfl, hpause, hin⟩ := asked.paused hclock.split.1
    rw [Acquisition.attempts, List.append_assoc]
    refine hpause.bind (exec_readClock.mpr ⟨check, _, rfl, ?_⟩)
    rw [if_neg hin]
    refine exec_writeAll.mpr ⟨true, _, rfl, exec_readClock.mpr ⟨sent, reads ++ rest, rfl, ?_⟩⟩
    refine (exec_readResponse_retryable retryable arrives).bind (ih (by omega) ?_)
    exact hclock.split.2.1.split.2.1

end Attempts

/-! ### The blocks of a plan -/

/-- The blocks of a plan, each accepted after the one before it, with the responses. -/
inductive AcceptedBlocks (options : AcquisitionOptions) (deadline : Nanoseconds) :
    ℕ → List ModbusReadRequest → Trace pollCalls → List Bytes → Prop
  | none {planIndex : ℕ} : AcceptedBlocks options deadline planIndex [] [] []
  | block {planIndex : ℕ} {request : ModbusReadRequest} {plan : List ModbusReadRequest}
      {trace later : Trace pollCalls} {response : Bytes} {responses : List Bytes}
      (first : AcceptedBlock options deadline planIndex request 0 trace response)
      (rest : AcceptedBlocks options deadline (planIndex + 1) plan later responses) :
      AcceptedBlocks options deadline planIndex (request :: plan) (trace ++ later)
        (response :: responses)

/-- The image with the words of the responses put in their places. -/
def storeAll (plan : List ModbusReadRequest) (responses : List Bytes) (rawRegisters : Registers) :
    Registers :=
  (plan.zip responses).foldl (fun raw block => storeWords block.1 block.2 raw) rawRegisters

theorem AcceptedBlocks.of_pollBlocks {options : AcquisitionOptions} {deadline : Nanoseconds}
    {planIndex : ℕ} {plan : List ModbusReadRequest} {raw image : Registers}
    {trace : Trace pollCalls}
    (h : (pollBlocks options deadline planIndex plan raw).Exec trace (.ok image)) :
    ∃ responses, AcceptedBlocks options deadline planIndex plan trace responses ∧
      image = storeAll plan responses raw := by
  induction plan generalizing planIndex raw trace with
  | nil =>
    obtain ⟨rfl, himage⟩ := Prog.exec_done.mp h
    cases himage
    exact ⟨[], .none, rfl⟩
  | cons request plan ih =>
    rw [pollBlocks] at h
    obtain ⟨first, rest, result, rfl, hfirst, hrest⟩ := Prog.exec_bind.mp h
    cases result with
    | error failure => cases (Prog.exec_done.mp hrest).2
    | ok response =>
      rw [pollBlock] at hfirst
      split at hfirst
      · cases (Prog.exec_done.mp hfirst).2
      · obtain ⟨responses, hblocks, rfl⟩ := ih hrest
        exact ⟨response :: responses, .block (.of_attempts (by omega) hfirst) hblocks, rfl⟩

theorem AcceptedBlocks.pollBlocks {options : AcquisitionOptions} {deadline : Nanoseconds}
    {planIndex : ℕ} {plan : List ModbusReadRequest} {raw : Registers} {trace : Trace pollCalls}
    {responses : List Bytes}
    (h : AcceptedBlocks options deadline planIndex plan trace responses)
    (hslave : ∀ request ∈ plan, request.slaveId = options.slaveId) (hclock : SteadyClock trace) :
    (pollBlocks options deadline planIndex plan raw).Exec trace
      (.ok (storeAll plan responses raw)) := by
  induction h generalizing raw with
  | none => exact .done _
  | @block planIndex request plan trace later response responses first _ ih =>
    rw [List.forall_mem_cons] at hslave
    obtain ⟨hfirst, hlater, _⟩ := hclock.split
    have hblock : (pollBlock options deadline planIndex request).Exec trace (.ok response) := by
      rw [pollBlock, if_neg (not_not.mpr hslave.1)]
      exact first.attempts (by omega) hfirst
    rw [Acquisition.pollBlocks]
    exact hblock.bind (ih hslave.2 hlater)

end Uhf.Acquisition
