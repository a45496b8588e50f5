/-
The acquisition engine (`AcquisitionEngine::poll_once`).

One cycle is a program over the serial port, the clock and the snapshot store;
what the port delivers, how it cuts the bytes into chunks and what the clock
reads are its answers, so a statement about every execution covers every port and
every clock.

An early `return fail_and_quarantine(…)` of the source is the failure of the step
it stands in, and the call is made once, where the steps are put together.  The
quarantine loop ends only when the line has been quiet, so it gets a bound on the
passes it may make; `PollResult.inQuarantine` is the outcome of a cycle that is
still in the loop by then.
-/
import UhfGateway.Acquisition.SnapshotStore
import UhfGateway.Effects.Trace

namespace Uhf.Acquisition

open Domain Effects

structure AcquisitionOptions where
  slaveId : UInt8 := 1
  /-- In milliseconds, as are the other durations but `interFrameSilence`. -/
  responseTimeout : Int := 150
  cycleDeadline : Int := 6000
  /-- In microseconds. -/
  interFrameSilence : Int := 1750
  maxRetries : UInt8 := 3
  retryDelay : Int := 100
  quarantineDuration : Int := 6000
  deriving DecidableEq, Repr

/-! ### What the engine calls -/

/-- The answer of `read_some`: its result and the bytes it put into the buffer. -/
structure ReadSome (capacity : ℕ) where
  ok : Bool
  bytes : Bytes
  fits : bytes.length ≤ capacity

inductive PollCall
  | now
  | sleepFor (duration : Nanoseconds)
  | writeAll (data : Bytes)
  /-- The timeout is in milliseconds. -/
  | readSome (capacity : ℕ) (timeout : Int)
  | publish (payload : ParsedSnapshot) (startedAt completedAt : Nanoseconds)
  | recordFailure (attemptedAt : Nanoseconds) (error : Bytes) (reason : FailureReason)

@[reducible] def pollCalls : Interface where
  Op := PollCall
  Answer
    | .now => Nanoseconds
    | .writeAll _ => Bool
    | .readSome capacity _ => ReadSome capacity
    | _ => Unit

/-- `steady_clock::now()`. -/
def readClock {α : Type} (k : Nanoseconds → Prog pollCalls α) : Prog pollCalls α :=
  .call (I := pollCalls) .now k

def sleepFor {α : Type} (duration : Nanoseconds) (k : Prog pollCalls α) : Prog pollCalls α :=
  .call (I := pollCalls) (.sleepFor duration) fun _ => k

def writeAll {α : Type} (data : Bytes) (k : Bool → Prog pollCalls α) : Prog pollCalls α :=
  .call (I := pollCalls) (.writeAll data) k

def readSome {α : Type} (capacity : ℕ) (timeout : Int)
    (k : ReadSome capacity → Prog pollCalls α) : Prog pollCalls α :=
  .call (I := pollCalls) (.readSome capacity timeout) k

def publish {α : Type} (payload : ParsedSnapshot) (startedAt completedAt : Nanoseconds)
    (k : Prog pollCalls α) : Prog pollCalls α :=
  .call (I := pollCalls) (.publish payload startedAt completedAt) fun _ => k

def recordFailure {α : Type} (attemptedAt : Nanoseconds) (error : Bytes) (reason : FailureReason)
    (k : Prog pollCalls α) : Prog pollCalls α :=
  .call (I := pollCalls) (.recordFailure attemptedAt error reason) fun _ => k

/-! ### Reading a response -/

/-- The timeout for a read with so much time left: whole milliseconds, at least one. -/
def readTimeout (remaining : Nanoseconds) : Int :=
  if remaining.tdiv 1000000 ≤ 0 then 1 else remaining.tdiv 1000000

/-- `read_exact`, with the bytes it has received. -/
def readExact (deadline : Nanoseconds) (size : ℕ) : Prog pollCalls (Bool × Bytes) :=
  if size = 0 then .done (true, [])
  else
    readClock fun now =>
      if deadline ≤ now then .done (false, [])
      else
        readSome size (readTimeout (deadline - now)) fun answer =>
          if !answer.ok then .done (false, [])
          else if _h : answer.bytes = [] then .done (false, [])
          else
            readExact deadline (size - answer.bytes.length) >>= fun rest =>
              .done (rest.1, answer.bytes ++ rest.2)
termination_by size
decreasing_by
  have hpos := List.length_pos_iff.mpr _h
  omega

inductive ResponseResult
  | complete (response : Bytes)
  | retryableError
  | fatalError
  | noResponse
  deriving DecidableEq, Repr

def kResponseHeaderBytes : ℕ := 3
def kResponseCrcBytes : ℕ := 2

def readResponse (request : ModbusReadRequest) (options : AcquisitionOptions)
    (deadline : Nanoseconds) : Prog pollCalls ResponseResult :=
  readExact deadline kResponseHeaderBytes >>= fun header =>
    if !header.1 then .done (if header.2.isEmpty then .noResponse else .fatalError)
    else if header.2.getD 0 0 ≠ options.slaveId then .done .fatalError
    else if header.2.getD 1 0 = kReadInputRegistersFunction ||| 0x80 then
      -- an exception frame is retried whether or not its CRC is right
      readExact deadline 2 >>= fun rest =>
        if !rest.1 then .done .fatalError else .done .retryableError
    else if header.2.getD 1 0 ≠ kReadInputRegistersFunction ∨
        (header.2.getD 2 0).toNat ≠ request.registerCount.toNat * 2 then .done .fatalError
    else
      readExact deadline (request.registerCount.toNat * 2 + kResponseCrcBytes) >>= fun body =>
        if !body.1 then .done .fatalError
        else if CrcMatches (header.2 ++ body.2) then .done (.complete (header.2 ++ body.2))
        else .done .retryableError

/-! ### The attempts at one block -/

/-- Sleep for so many microseconds, but not past the deadline. -/
def sleepUntil (deadline : Nanoseconds) (duration : Int) : Prog pollCalls Bool :=
  readClock fun now =>
    if deadline ≤ now then .done false
    else
      sleepFor (microseconds (min duration ((deadline - now).tdiv 1000))) <|
        readClock fun later => .done (decide (later < deadline))

/-- What `fail_and_quarantine` is called with. -/
structure PollFailure where
  message : Bytes
  reason : FailureReason := .other
  deriving DecidableEq, Repr

/-- The pause before an attempt: the retry delay, or the silence between two blocks. -/
def pauseBefore (options : AcquisitionOptions) (deadline : Nanoseconds)
    (planIndex attempt : ℕ) : Prog pollCalls (Except PollFailure Unit) :=
  if 0 < attempt then
    sleepUntil deadline (options.retryDelay * 1000) >>= fun inTime =>
      .done (if inTime then .ok ()
        else .error { message := ascii "poll cycle deadline reached during retry delay" })
  else if planIndex ≠ 0 then
    sleepUntil deadline options.interFrameSilence >>= fun inTime =>
      .done (if inTime then .ok ()
        else .error { message := ascii "poll cycle deadline reached during frame silence" })
  else .done (.ok ())

/-- The loop over the attempts: `left` more of them, `attempt` made so far. -/
def attempts (options : AcquisitionOptions) (deadline : Nanoseconds) (planIndex : ℕ)
    (request : ModbusReadRequest) :
    (left attempt : ℕ) → (retryError : Bytes) → Prog pollCalls (Except PollFailure Bytes)
  | 0, _, retryError =>
      .done (.error {
        message := if retryError.isEmpty then ascii "Modbus retry budget exhausted"
          else retryError })
  | left + 1, attempt, _ =>
      pauseBefore options deadline planIndex attempt >>= fun
        | .error failure => .done (.error failure)
        | .ok () =>
          readClock fun now =>
            if deadline ≤ now then
              .done (.error { message := ascii "poll cycle deadline reached before request" })
            else
              writeAll request.wireFrame fun written =>
                if !written then
                  .done (.error { message := ascii "unable to write Modbus request" })
                else
                  readClock fun sent =>
                    readResponse request options
                        (min deadline (sent + milliseconds options.responseTimeout)) >>= fun
                      | .complete response => .done (.ok response)
                      | .noResponse =>
                        .done (.error {
                          message := ascii "Modbus response timeout with no data"
                          reason := .noResponse })
                      | .fatalError =>
                        .done (.error {
                          message := ascii "Modbus response boundary or timeout error" })
                      | .retryableError =>
                        attempts options deadline planIndex request left (attempt + 1)
                          (ascii "Modbus response CRC or exception error")

/-- Poll the block of one entry of the plan. -/
def pollBlock (options : AcquisitionOptions) (deadline : Nanoseconds) (planIndex : ℕ)
    (request : ModbusReadRequest) : Prog pollCalls (Except PollFailure Bytes) :=
  if request.slaveId ≠ options.slaveId then
    .done (.error {
      message := ascii "request plan slave ID does not match acquisition configuration" })
  else attempts options deadline planIndex request (options.maxRetries.toNat + 1) 0 []

/-! ### The cycle -/

/-- The word a response carries for its register `index`. -/
def responseWord (response : Bytes) (index : ℕ) : UInt16 :=
  bigEndian (response.getD (kResponseHeaderBytes + index * 2) 0)
    (response.getD (kResponseHeaderBytes + index * 2 + 1) 0)

/-- Copy the words of a response to their place in the image. -/
def storeWords (request : ModbusReadRequest) (response : Bytes) (rawRegisters : Registers) :
    Registers :=
  let startIndex := request.startAddress.toNat - kPd1000FirstAddress.toNat
  (List.range request.registerCount.toNat).foldl
    (fun raw index => raw.setIfInBounds (startIndex + index) (responseWord response index))
    rawRegisters

/-- The loop over the plan from entry `planIndex` on. -/
def pollBlocks (options : AcquisitionOptions) (deadline : Nanoseconds) :
    (planIndex : ℕ) → List ModbusReadRequest → Registers →
      Prog pollCalls (Except PollFailure Registers)
  | _, [], rawRegisters => .done (.ok rawRegisters)
  | planIndex, request :: plan, rawRegisters =>
      pollBlock options deadline planIndex request >>= fun
        | .error failure => .done (.error failure)
        | .ok response =>
          pollBlocks options deadline (planIndex + 1) plan
            (storeWords request response rawRegisters)

/-- `quarantine`, for at most `fuel` passes; whether it has ended. -/
def quarantineLoop (duration : Int) :
    (fuel : ℕ) → (quietDeadline : Nanoseconds) → Prog pollCalls Bool
  | 0, _ => .done false
  | fuel + 1, quietDeadline =>
      readClock fun check =>
        if check < quietDeadline then
          readClock fun now =>
            readSome 256 (readTimeout (quietDeadline - now)) fun answer =>
              if answer.ok && !answer.bytes.isEmpty then
                readClock fun later => quarantineLoop duration fuel (later + milliseconds duration)
              else if answer.bytes.isEmpty then
                sleepFor (milliseconds 1) (quarantineLoop duration fuel quietDeadline)
              else quarantineLoop duration fuel quietDeadline
        else .done true

/-- The outcome of a cycle, with `last_error_`. -/
inductive PollResult
  | returned (ok : Bool) (lastError : Bytes)
  | inQuarantine (lastError : Bytes)
  deriving DecidableEq, Repr

def failAndQuarantine (failure : PollFailure) (duration : Int) (fuel : ℕ) :
    Prog pollCalls PollResult :=
  readClock fun now =>
    recordFailure now failure.message failure.reason <|
      readClock fun entered =>
        quarantineLoop duration fuel (entered + milliseconds duration) >>= fun ended =>
          .done (if ended then .returned false failure.message else .inQuarantine failure.message)

/-- The end of a cycle, once the blocks have been polled or one of them has failed. -/
def finishCycle (options : AcquisitionOptions) (fuel : ℕ) (startedAt deadline : Nanoseconds) :
    Except PollFailure Registers → Prog pollCalls PollResult
  | .error failure => failAndQuarantine failure options.quarantineDuration fuel
  | .ok rawRegisters =>
    readClock fun completedAt =>
      if deadline < completedAt then
        failAndQuarantine { message := ascii "poll cycle deadline reached after response" }
          options.quarantineDuration fuel
      else
        publish (parsePd1000Registers rawRegisters) startedAt completedAt <|
          .done (.returned true [])

def pollOnce (options : AcquisitionOptions) (fuel : ℕ) : Prog pollCalls PollResult :=
  readClock fun startedAt =>
    let deadline := startedAt + milliseconds options.cycleDeadline
    pollBlocks options deadline 0 (pd1000RequestPlan options.slaveId)
      (Vector.replicate kPd1000RegisterCount 0) >>= finishCycle options fuel startedAt deadline

end Uhf.Acquisition
