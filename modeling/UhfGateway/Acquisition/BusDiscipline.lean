/-
The discipline of the engine on the bus.

The rules are about what may be done after everything that has been done in the cycle: when a
request may be written, and how long a read may wait.  `BusRule` states them for one call, and
`Standing` is what the loops over the blocks and the attempts keep true of the history.

* `attempts_heeds`, `pollBlocks_heeds` — the loops follow the rules;
* `quarantineLoop_quiet` — a quarantine that ends has seen its quiet interval;
* `Fault.noWrite`, `Fault.quarantined` — what comes after a fault of the line;
* `bus_discipline` — the rules over every sequence of cycles.

A cycle is given up when its failure is recorded; the reads of the quarantine after that are
measured against the quiet deadline, not against the deadline of the cycle.
-/
import UhfGateway.Acquisition.Requests
import UhfGateway.Effects.History

namespace Uhf.Acquisition

open Domain Effects

/-! ### Stretches of a cycle -/

/-- The bytes that one act has brought in; a read that fails delivers none. -/
def obtained : Act pollCalls → Bytes
  | ⟨.readSome _ _, answer⟩ => if answer.ok then answer.bytes else []
  | _ => []

def obtainedBytes (trace : Trace pollCalls) : Bytes := trace.flatMap obtained

/-- The cycle has been given up: its failure is on record. -/
def GivenUp (trace : Trace pollCalls) : Prop :=
  ∃ attemptedAt error reason, Did.recordFailure attemptedAt error reason ∈ trace

/-- The act writes this frame, with whatever success. -/
def writes (frame : Bytes) : Act pollCalls → Bool
  | ⟨.writeAll data, _⟩ => decide (data = frame)
  | _ => false

/-- For so many milliseconds, from one look at the clock to another, nothing is received. -/
def QuietFor (duration : Int) (trace : Trace pollCalls) : Prop :=
  ∃ before start silent stop after,
    trace = before ++ Did.now start :: (silent ++ Did.now stop :: after) ∧
      start + milliseconds duration ≤ stop ∧ ∀ act ∈ silent, obtained act = []

/-- The cycle is given up, and then the line is quiet for so long. -/
def Quarantined (duration : Int) (trace : Trace pollCalls) : Prop :=
  ∃ earlier later, trace = earlier ++ later ∧ GivenUp earlier ∧ QuietFor duration later

theorem obtainedBytes_append (trace later : Trace pollCalls) :
    obtainedBytes (trace ++ later) = obtainedBytes trace ++ obtainedBytes later :=
  List.flatMap_append

theorem GivenUp.append_left {trace : Trace pollCalls} (h : GivenUp trace)
    (later : Trace pollCalls) : GivenUp (trace ++ later) := by
  obtain ⟨attemptedAt, error, reason, hmem⟩ := h
  exact ⟨attemptedAt, error, reason, List.mem_append_left _ hmem⟩

theorem givenUp_append {trace later : Trace pollCalls} :
    GivenUp (trace ++ later) ↔ GivenUp trace ∨ GivenUp later := by
  simp only [GivenUp, List.mem_append]
  constructor
  · rintro ⟨attemptedAt, error, reason, h | h⟩
    · exact .inl ⟨attemptedAt, error, reason, h⟩
    · exact .inr ⟨attemptedAt, error, reason, h⟩
  · rintro (⟨attemptedAt, error, reason, h⟩ | ⟨attemptedAt, error, reason, h⟩)
    · exact ⟨attemptedAt, error, reason, .inl h⟩
    · exact ⟨attemptedAt, error, reason, .inr h⟩

theorem AllOnLine.not_givenUp {trace : Trace pollCalls} (h : AllOnLine trace) :
    ¬ GivenUp trace := by
  rintro ⟨attemptedAt, error, reason, hmem⟩
  exact h _ hmem

theorem QuietFor.append {duration : Int} {trace : Trace pollCalls} (h : QuietFor duration trace)
    (later : Trace pollCalls) : QuietFor duration (trace ++ later) := by
  obtain ⟨before, start, silent, stop, after, rfl, hlong, hsilent⟩ := h
  exact ⟨before, start, silent, stop, after ++ later, by simp, hlong, hsilent⟩

theorem Quarantined.append {duration : Int} {trace : Trace pollCalls}
    (h : Quarantined duration trace) (later : Trace pollCalls) :
    Quarantined duration (trace ++ later) := by
  obtain ⟨earlier, rest, rfl, hgiven, hquiet⟩ := h
  exact ⟨earlier, rest ++ later, by simp, hgiven, hquiet.append later⟩

/-- The last request of a stretch is where it is. -/
theorem lastWrite_unique {before before' since since' : Trace pollCalls} {data data' : Bytes}
    {ok ok' : Bool} (hsince : NoWrite since) (hsince' : NoWrite since')
    (h : before ++ Did.writeAll data ok :: since = before' ++ Did.writeAll data' ok' :: since') :
    before = before' ∧ data = data' ∧ ok = ok' ∧ since = since' := by
  obtain ⟨mid, _, rfl⟩ | ⟨rfl, hact, rfl⟩ | ⟨mid, _, rfl⟩ := cut_cases h
  · cases hsince (Did.writeAll data' ok') (by simp)
  · cases hact
    exact ⟨rfl, rfl, rfl, rfl⟩
  · cases hsince' (Did.writeAll data ok) (by simp)

/-- A request in front of a stretch without one. -/
theorem NoWrite.split_right {trace quiet before since : Trace pollCalls} {data : Bytes} {ok : Bool}
    (hquiet : NoWrite quiet)
    (h : trace ++ quiet = before ++ Did.writeAll data ok :: since) :
    ∃ mid, since = mid ++ quiet ∧ trace = before ++ Did.writeAll data ok :: mid := by
  obtain ⟨mid, hb, ha⟩ | ⟨mid, hb, ha⟩ := List.append_eq_append_iff.mp h
  · have hwrite := hquiet (Did.writeAll data ok) (by simp [ha])
    cases hwrite
  · cases mid with
    | nil =>
      have hwrite := hquiet (Did.writeAll data ok) (by rw [← List.nil_append quiet, ← ha]; simp)
      cases hwrite
    | cons act mid =>
      obtain ⟨rfl, hrest⟩ := List.cons.inj ha
      exact ⟨mid, hrest, hb⟩

theorem isWrite_eq_true {act : Act pollCalls} (h : isWrite act = true) :
    ∃ data ok, act = Did.writeAll data ok := by
  obtain ⟨call, answer⟩ := act
  cases call with
  | writeAll data => exact ⟨data, answer, rfl⟩
  | now => cases h
  | sleepFor duration => cases h
  | readSome capacity timeout => cases h
  | publish payload startedAt completedAt => cases h
  | recordFailure attemptedAt error reason => cases h

theorem exists_isWrite {trace : Trace pollCalls} (h : ¬ NoWrite trace) :
    ∃ act ∈ trace, isWrite act = true := by
  simpa [NoWrite] using h

/-- A request behind a stretch without one. -/
theorem NoWrite.split_left {trace later before after : Trace pollCalls} {data : Bytes} {ok : Bool}
    (h : NoWrite trace) (heq : trace ++ later = before ++ Did.writeAll data ok :: after) :
    ∃ mid, before = trace ++ mid ∧ later = mid ++ Did.writeAll data ok :: after := by
  obtain ⟨mid, hb, ha⟩ | ⟨mid, hb, ha⟩ := List.append_eq_append_iff.mp heq
  · exact ⟨mid, hb, ha⟩
  · cases mid with
    | nil => exact ⟨[], by simpa using hb.symm, ha.symm⟩
    | cons act mid =>
      obtain ⟨rfl, _⟩ := List.cons.inj ha
      cases h (Did.writeAll data ok) (by simp [hb])

/-! ### The rules -/

/-- The frame that asks for a block. -/
def requestFrame (slaveId : UInt8) (index : ℕ) : Bytes := (plannedRequest slaveId index).wireFrame

/-- The frame may be written after everything done in the cycle. -/
structure MayWrite (options : AcquisitionOptions) (deadline : Nanoseconds)
    (before : Trace pollCalls) (frame : Bytes) : Prop where
  going : ¬ GivenUp before
  inTime : ∃ earlier check, before = earlier ++ [Did.now check] ∧ check < deadline
  planned : ∃ index, index < kPd1000RequestCount ∧ frame = requestFrame options.slaveId index
  budget : before.countP (writes frame) ≤ options.maxRetries.toNat
  /-- The last request has been answered by a whole frame, and only one worth a retry allows
  a request to be repeated. -/
  settled : ∀ earlier last ok since, before = earlier ++ Did.writeAll last ok :: since →
    NoWrite since → ok = true ∧ ∃ index, index < kPd1000RequestCount ∧
      last = requestFrame options.slaveId index ∧
      (ValidResponse options.slaveId (blockSize index) (obtainedBytes since) ∨
        RetryableResponse options.slaveId (blockSize index) (obtainedBytes since)) ∧
      ((∃ written, Did.writeAll frame written ∈ before) → last = frame ∧
        RetryableResponse options.slaveId (blockSize index) (obtainedBytes since))

/-- The read waits no longer than there is time left, or for the least time there is. -/
def MayRead (deadline : Nanoseconds) (before : Trace pollCalls) (timeout : Int) : Prop :=
  ∃ earlier now, before = earlier ++ [Did.now now] ∧
    (milliseconds timeout ≤ deadline - now ∨ timeout = 1 ∧ deadline - now < milliseconds 1)

/-- What the cycle may do next. -/
def BusRule (options : AcquisitionOptions) (deadline : Nanoseconds) (before : Trace pollCalls) :
    PollCall → Prop
  | .writeAll frame => MayWrite options deadline before frame
  | .readSome _ timeout => GivenUp before ∨ MayRead deadline before timeout
  | _ => True

/-- Before attempt `attempt` at block `index`: which requests have been written, and how the
last of them was answered. -/
structure Standing (options : AcquisitionOptions) (before : Trace pollCalls) (index attempt : ℕ) :
    Prop where
  going : ¬ GivenUp before
  asked : ∀ frame ok, Did.writeAll frame ok ∈ before → ∃ j, j < kPd1000RequestCount ∧
    frame = requestFrame options.slaveId j ∧ (j < index ∨ j = index ∧ 0 < attempt)
  spent : index < kPd1000RequestCount →
    before.countP (writes (requestFrame options.slaveId index)) ≤ attempt
  settled : ∀ earlier last ok since, before = earlier ++ Did.writeAll last ok :: since →
    NoWrite since → ok = true ∧ ∃ j, j < kPd1000RequestCount ∧
      last = requestFrame options.slaveId j ∧
      ((ValidResponse options.slaveId (blockSize j) (obtainedBytes since) ∧ attempt = 0) ∨
        (RetryableResponse options.slaveId (blockSize j) (obtainedBytes since) ∧ j = index ∧
          0 < attempt))

section Standing

variable {options : AcquisitionOptions} {deadline : Nanoseconds} {before : Trace pollCalls}
  {index attempt : ℕ}

theorem writes_eq_true {frame : Bytes} {act : Act pollCalls} (h : writes frame act = true) :
    ∃ ok, act = Did.writeAll frame ok := by
  obtain ⟨call, answer⟩ := act
  cases call with
  | writeAll data =>
    obtain rfl : data = frame := by simpa [writes] using h
    exact ⟨answer, rfl⟩
  | now => cases h
  | sleepFor duration => cases h
  | readSome capacity timeout => cases h
  | publish payload startedAt completedAt => cases h
  | recordFailure attemptedAt error reason => cases h

theorem countP_writes_eq_zero {frame : Bytes} {trace : Trace pollCalls}
    (h : ∀ ok, Did.writeAll frame ok ∉ trace) : trace.countP (writes frame) = 0 := by
  rw [List.countP_eq_zero]
  intro act hmem hwrites
  obtain ⟨ok, rfl⟩ := writes_eq_true hwrites
  exact h ok hmem

theorem NoWrite.countP_writes {trace : Trace pollCalls} (h : NoWrite trace) (frame : Bytes) :
    trace.countP (writes frame) = 0 :=
  countP_writes_eq_zero fun _ hmem => Bool.noConfusion (h _ hmem)

/-- What neither writes nor reads nor gives up the cycle leaves the standing as it is. -/
theorem Standing.append {quiet : Trace pollCalls} (h : Standing options before index attempt)
    (hwrite : NoWrite quiet) (hread : obtainedBytes quiet = []) (hgoing : ¬ GivenUp quiet) :
    Standing options (before ++ quiet) index attempt where
  going := by
    rw [givenUp_append, not_or]
    exact ⟨h.going, hgoing⟩
  asked := by
    intro frame ok hmem
    rw [List.mem_append] at hmem
    obtain hmem | hmem := hmem
    · exact h.asked frame ok hmem
    · exact absurd (hwrite _ hmem) Bool.noConfusion
  spent := by
    intro hindex
    rw [List.countP_append, hwrite.countP_writes]
    exact h.spent hindex
  settled := by
    intro earlier last ok since heq hsince
    obtain ⟨mid, rfl, hbefore⟩ := hwrite.split_right heq
    have hmid : NoWrite mid := fun act hact => hsince act (List.mem_append_left _ hact)
    rw [obtainedBytes_append, hread, List.append_nil]
    exact h.settled earlier last ok mid hbefore hmid

theorem Standing.mayWrite (h : Standing options before index attempt)
    (hindex : index < kPd1000RequestCount) (hattempt : attempt ≤ options.maxRetries.toNat)
    {earlier : Trace pollCalls} {check : Nanoseconds} (hcheck : before = earlier ++ [Did.now check])
    (hin : check < deadline) :
    MayWrite options deadline before (requestFrame options.slaveId index) where
  going := h.going
  inTime := ⟨earlier, check, hcheck, hin⟩
  planned := ⟨index, hindex, rfl⟩
  budget := Nat.le_trans (h.spent hindex) hattempt
  settled := by
    intro earlier' last ok since heq hsince
    obtain ⟨hok, j, hj, hlast, hanswer⟩ := h.settled earlier' last ok since heq hsince
    refine ⟨hok, j, hj, hlast, ?_, ?_⟩
    · obtain ⟨hvalid, _⟩ | ⟨hretry, _⟩ := hanswer
      · exact .inl hvalid
      · exact .inr hretry
    · rintro ⟨written, hmem⟩
      -- the frame was written before, so this is not the first attempt at its block
      obtain ⟨i, hi, hframe, hearlier⟩ := h.asked _ _ hmem
      have hsame := wireFrame_injective options.slaveId hindex hi hframe
      obtain ⟨_, hzero⟩ | ⟨hretry, rfl, _⟩ := hanswer
      · omega
      · exact ⟨hlast, hretry⟩

/-- A request with its answer: the next attempt at the block, or the next block. -/
theorem Standing.answered (h : Standing options before index attempt)
    (hindex : index < kPd1000RequestCount) {since : Trace pollCalls} (hsince : NoWrite since)
    (hgoing : ¬ GivenUp since) :
    (RetryableResponse options.slaveId (blockSize index) (obtainedBytes since) →
      Standing options
        (before ++ Did.writeAll (requestFrame options.slaveId index) true :: since) index
        (attempt + 1)) ∧
    (ValidResponse options.slaveId (blockSize index) (obtainedBytes since) →
      Standing options
        (before ++ Did.writeAll (requestFrame options.slaveId index) true :: since) (index + 1)
        0) := by
  have hstill : ¬ GivenUp
      (before ++ Did.writeAll (requestFrame options.slaveId index) true :: since) := by
    rw [givenUp_append, not_or]
    refine ⟨h.going, ?_⟩
    rintro ⟨attemptedAt, error, reason, hmem⟩
    obtain hmem | hmem := List.mem_cons.mp hmem
    · cases hmem
    · exact hgoing ⟨attemptedAt, error, reason, hmem⟩
  have hasked : ∀ frame ok,
      Did.writeAll frame ok ∈
        before ++ Did.writeAll (requestFrame options.slaveId index) true :: since →
      ∃ j, j < kPd1000RequestCount ∧ frame = requestFrame options.slaveId j ∧ j ≤ index := by
    intro frame ok hmem
    rw [List.mem_append, List.mem_cons] at hmem
    obtain hmem | hmem | hmem := hmem
    · obtain ⟨j, hj, hframe, hle⟩ := h.asked frame ok hmem
      exact ⟨j, hj, hframe, by omega⟩
    · exact ⟨index, hindex, writeAll_data hmem, Nat.le_refl index⟩
    · exact absurd (hsince _ hmem) Bool.noConfusion
  have hlast : ∀ earlier last ok since',
      before ++ Did.writeAll (requestFrame options.slaveId index) true :: since =
        earlier ++ Did.writeAll last ok :: since' → NoWrite since' →
      ok = true ∧ last = requestFrame options.slaveId index ∧ since' = since := by
    intro earlier last ok since' heq hsince'
    obtain ⟨_, hdata, hok, hrest⟩ := lastWrite_unique hsince hsince' heq
    exact ⟨hok.symm, hdata.symm, hrest.symm⟩
  constructor
  · intro hretry
    refine ⟨hstill, fun frame ok hmem => ?_, fun _ => ?_, fun earlier last ok since' heq hno => ?_⟩
    · obtain ⟨j, hj, hframe, hle⟩ := hasked frame ok hmem
      exact ⟨j, hj, hframe, by omega⟩
    · have hspent := h.spent hindex
      rw [List.countP_append, List.countP_cons, hsince.countP_writes]
      split <;> omega
    · obtain ⟨hok, rfl, rfl⟩ := hlast earlier last ok since' heq hno
      exact ⟨hok, index, hindex, rfl, .inr ⟨hretry, rfl, by omega⟩⟩
  · intro hvalid
    refine ⟨hstill, fun frame ok hmem => ?_, fun hnext => ?_, fun earlier last ok since' heq hno => ?_⟩
    · obtain ⟨j, hj, hframe, hle⟩ := hasked frame ok hmem
      exact ⟨j, hj, hframe, by omega⟩
    · -- the next block has not been asked for
      refine Nat.le_of_eq (countP_writes_eq_zero fun _ hmem => ?_)
      obtain ⟨j, hj, hframe, hle⟩ := hasked _ _ hmem
      have hsame := wireFrame_injective options.slaveId hnext hj hframe
      omega
    · obtain ⟨hok, rfl, rfl⟩ := hlast earlier last ok since' heq hno
      exact ⟨hok, index, hindex, rfl, .inl ⟨hvalid, rfl⟩⟩

end Standing

/-! ### The cycle follows the rules -/

/-- The clock was last read before the deadline. -/
def InTime (deadline : Nanoseconds) (trace : Trace pollCalls) : Prop :=
  ∃ t, (clockReadings trace).getLast? = some t ∧ t < deadline

theorem InTime.append {deadline : Nanoseconds} {later : Trace pollCalls} (h : InTime deadline later)
    (trace : Trace pollCalls) : InTime deadline (trace ++ later) := by
  obtain ⟨t, hlast, hin⟩ := h
  refine ⟨t, ?_, hin⟩
  rw [clockReadings_append, List.getLast?_append, hlast]
  rfl

/-- On a clock that does not go back, every reading was before the deadline then. -/
theorem InTime.all {deadline : Nanoseconds} {trace : Trace pollCalls} (h : InTime deadline trace)
    (hclock : SteadyClock trace) : ∀ t ∈ clockReadings trace, t < deadline := by
  obtain ⟨last, hlast, hin⟩ := h
  obtain ⟨earlier, hreadings⟩ := List.getLast?_eq_some_iff.mp hlast
  intro t ht
  rw [SteadyClock, hreadings, List.pairwise_append] at hclock
  rw [hreadings, List.mem_append, List.mem_singleton] at ht
  obtain ht | rfl := ht
  · exact Int.lt_of_le_of_lt (hclock.2.2 t ht last (List.mem_singleton_self last)) hin
  · exact hin

theorem Delivered.obtained {deadline : Nanoseconds} {size : ℕ} {trace : Trace pollCalls}
    {bytes : Bytes} (h : Delivered deadline size trace bytes) : obtainedBytes trace = bytes := by
  induction h with
  | all => rfl
  | @chunk size begun answer trace rest inTime ok some later ih =>
    show (if answer.ok then answer.bytes else []) ++ obtainedBytes trace = answer.bytes ++ rest
    rw [ok, if_pos rfl, ih]

theorem Delivered.inTime {deadline : Nanoseconds} {size : ℕ} {trace : Trace pollCalls}
    {bytes : Bytes} (h : Delivered deadline size trace bytes) :
    trace = [] ∨ InTime deadline trace := by
  induction h with
  | all => exact .inl rfl
  | @chunk size begun answer trace rest inTime ok some later ih =>
    right
    obtain rfl | hlater := ih
    · exact ⟨begun, rfl, inTime⟩
    · exact hlater.append [Did.now begun, Did.readSome (readTimeout (deadline - begun)) answer]

theorem Delivered.onLine {deadline : Nanoseconds} {size : ℕ} {trace : Trace pollCalls}
    {bytes : Bytes} (h : Delivered deadline size trace bytes) : AllOnLine trace := by
  induction h with
  | all => simp [AllOnLine]
  | chunk _ _ _ _ ih =>
    exact List.forall_mem_cons.mpr ⟨trivial, List.forall_mem_cons.mpr ⟨trivial, ih⟩⟩

theorem Arrives.onLine {deadline : Nanoseconds} {trace : Trace pollCalls} {response : Bytes}
    (h : Arrives deadline trace response) : AllOnLine trace := by
  obtain ⟨first, rest, header, body, rfl, rfl, hheader, hbody⟩ := h
  exact List.forall_mem_append.mpr ⟨hheader.onLine, hbody.onLine⟩

theorem Arrives.obtained {deadline : Nanoseconds} {trace : Trace pollCalls} {response : Bytes}
    (h : Arrives deadline trace response) : obtainedBytes trace = response := by
  obtain ⟨first, rest, header, body, rfl, rfl, hheader, hbody⟩ := h
  rw [obtainedBytes_append, hheader.obtained, hbody.obtained]

theorem Arrives.inTime {deadline : Nanoseconds} {trace : Trace pollCalls} {response : Bytes}
    (h : Arrives deadline trace response) : InTime deadline trace := by
  obtain ⟨first, rest, header, body, rfl, rfl, hheader, hbody⟩ := h
  obtain rfl | hrest := hbody.inTime
  · rw [List.append_nil]
    obtain rfl | hfirst := hheader.inTime
    · cases hheader
    · exact hfirst
  · exact hrest.append first

theorem InTime.mono {deadline later : Nanoseconds} {trace : Trace pollCalls}
    (h : InTime deadline trace) (hle : deadline ≤ later) : InTime later trace := by
  obtain ⟨t, hlast, hin⟩ := h
  exact ⟨t, hlast, Int.lt_of_lt_of_le hin hle⟩

/-- The stretch neither writes nor receives anything nor gives up the cycle. -/
structure Idle (trace : Trace pollCalls) : Prop where
  noWrite : NoWrite trace
  nothing : obtainedBytes trace = []
  going : ¬ GivenUp trace

theorem Idle.nil : Idle [] where
  noWrite := .nil
  nothing := rfl
  going := by
    rintro ⟨attemptedAt, error, reason, hmem⟩
    cases hmem

theorem Idle.now {trace : Trace pollCalls} (h : Idle trace) (t : Nanoseconds) :
    Idle (trace ++ [Did.now t]) where
  noWrite := h.noWrite.append (.cons rfl .nil)
  nothing := by
    rw [obtainedBytes_append, h.nothing]
    rfl
  going := by
    rw [givenUp_append, not_or]
    refine ⟨h.going, ?_⟩
    rintro ⟨attemptedAt, error, reason, hmem⟩
    cases List.mem_singleton.mp hmem

theorem Idle.sleepFor {trace : Trace pollCalls} (h : Idle trace) (duration : Nanoseconds) :
    Idle (trace ++ [Did.sleepFor duration]) where
  noWrite := h.noWrite.append (.cons rfl .nil)
  nothing := by
    rw [obtainedBytes_append, h.nothing]
    rfl
  going := by
    rw [givenUp_append, not_or]
    refine ⟨h.going, ?_⟩
    rintro ⟨attemptedAt, error, reason, hmem⟩
    cases List.mem_singleton.mp hmem

section Heeds

variable {options : AcquisitionOptions} {deadline : Nanoseconds} {before : Trace pollCalls}

section Calls

variable {α : Type} {Q : α → Trace pollCalls → Prop}

theorem heeds_readClock {k : Nanoseconds → Prog pollCalls α}
    (h : ∀ t, (k t).Heeds (BusRule options deadline) Q (before ++ [Did.now t])) :
    (readClock k).Heeds (BusRule options deadline) Q before := ⟨trivial, h⟩

theorem heeds_sleepFor {duration : Nanoseconds} {k : Prog pollCalls α}
    (h : k.Heeds (BusRule options deadline) Q (before ++ [Did.sleepFor duration])) :
    (sleepFor duration k).Heeds (BusRule options deadline) Q before := ⟨trivial, fun _ => h⟩

theorem heeds_writeAll {frame : Bytes} {k : Bool → Prog pollCalls α}
    (hmay : MayWrite options deadline before frame)
    (h : ∀ ok, (k ok).Heeds (BusRule options deadline) Q (before ++ [Did.writeAll frame ok])) :
    (writeAll frame k).Heeds (BusRule options deadline) Q before := ⟨hmay, h⟩

theorem heeds_readSome {capacity : ℕ} {timeout : Int} {k : ReadSome capacity → Prog pollCalls α}
    (hmay : GivenUp before ∨ MayRead deadline before timeout)
    (h : ∀ answer, (k answer).Heeds (BusRule options deadline) Q
      (before ++ [Did.readSome timeout answer])) :
    (readSome capacity timeout k).Heeds (BusRule options deadline) Q before := ⟨hmay, h⟩

theorem heeds_recordFailure {attemptedAt : Nanoseconds} {error : Bytes} {reason : FailureReason}
    {k : Prog pollCalls α} (h : k.Heeds (BusRule options deadline) Q
      (before ++ [Did.recordFailure attemptedAt error reason])) :
    (recordFailure attemptedAt error reason k).Heeds (BusRule options deadline) Q before :=
  ⟨trivial, fun _ => h⟩

theorem heeds_publish {payload : ParsedSnapshot} {startedAt completedAt : Nanoseconds}
    {k : Prog pollCalls α} (h : k.Heeds (BusRule options deadline) Q
      (before ++ [Did.publish payload startedAt completedAt])) :
    (publish payload startedAt completedAt k).Heeds (BusRule options deadline) Q before :=
  ⟨trivial, fun _ => h⟩

end Calls

/-- A timeout is whole milliseconds of what is left, or the least one. -/
theorem readTimeout_le {remaining left : Int} (hpos : 0 < remaining) (hle : remaining ≤ left) :
    readTimeout remaining * 1000000 ≤ left ∨ readTimeout remaining = 1 ∧ left < 1000000 := by
  have hdiv : remaining.tdiv 1000000 = remaining / 1000000 :=
    Int.tdiv_eq_ediv_of_nonneg (by omega)
  rw [readTimeout, hdiv]
  split <;> omega

theorem readTimeout_mayRead {cutoff : Nanoseconds} (hle : cutoff ≤ deadline) {now : Nanoseconds}
    (hnow : ¬ cutoff ≤ now) :
    MayRead deadline (before ++ [Did.now now]) (readTimeout (cutoff - now)) :=
  ⟨before, now, rfl, readTimeout_le (Int.sub_pos_of_lt (Int.not_le.mp hnow))
    (Int.sub_le_sub_right hle now)⟩

theorem readExact_heeds {cutoff : Nanoseconds} (hle : cutoff ≤ deadline) (size : ℕ) :
    (readExact cutoff size).Heeds (BusRule options deadline) (fun _ _ => True) before := by
  induction size using Nat.strongRecOn generalizing before with
  | ind size ih =>
    rw [readExact]
    split
    · trivial
    refine heeds_readClock fun now => ?_
    split
    · trivial
    next hnow =>
    refine heeds_readSome (.inr (readTimeout_mayRead hle hnow)) fun answer => ?_
    split
    · trivial
    split
    · trivial
    next hsome =>
    have hpos := List.length_pos_iff.mpr hsome
    have hfits := answer.fits
    exact Prog.heeds_bind ((ih _ (by omega)).mono fun _ _ _ => trivial)

/-- Reading a response: it is read in time, and what it is says how the request was answered. -/
theorem readResponse_heeds (request : ModbusReadRequest) {cutoff : Nanoseconds}
    (hle : cutoff ≤ deadline) :
    (readResponse request options cutoff).Heeds (BusRule options deadline)
      (fun result done => ∃ reads, done = before ++ reads ∧
        (result = .noResponse ∨ result = .fatalError ∨
          ∃ response, Arrives cutoff reads response ∧
            ((ValidResponse options.slaveId request.registerCount.toNat response ∧
                result = .complete response) ∨
              (RetryableResponse options.slaveId request.registerCount.toNat response ∧
                result = .retryableError)))) before := by
  have hreads : (readResponse request options cutoff).Heeds (BusRule options deadline)
      (fun _ _ => True) before := by
    refine Prog.heeds_bind ((readExact_heeds hle _).mono fun header done _ => ?_)
    split
    · trivial
    split
    · trivial
    split
    · refine Prog.heeds_bind ((readExact_heeds hle _).mono fun rest done _ => ?_)
      split <;> trivial
    split
    · trivial
    refine Prog.heeds_bind ((readExact_heeds hle _).mono fun body done _ => ?_)
    split
    · trivial
    split <;> trivial
  refine (hreads.and_exec ?_).mono fun _ _ h => h.2
  intro reads result hexec
  exact ⟨reads, rfl, readResponse_cases hexec⟩

theorem sleepUntil_heeds (duration : Int) :
    (sleepUntil deadline duration).Heeds (BusRule options deadline)
      (fun _ done => ∃ quiet, done = before ++ quiet ∧ Idle quiet) before := by
  refine heeds_readClock fun now => ?_
  split
  · exact ⟨[Did.now now], rfl, Idle.nil.now now⟩
  · refine heeds_sleepFor (heeds_readClock fun later => ?_)
    refine ⟨_, ?_, ((Idle.nil.now now).sleepFor
      (microseconds (min duration ((deadline - now).tdiv 1000)))).now later⟩
    rw [List.append_assoc, List.append_assoc]
    rfl

theorem pauseBefore_heeds (planIndex attempt : ℕ) :
    (pauseBefore options deadline planIndex attempt).Heeds (BusRule options deadline)
      (fun _ done => ∃ quiet, done = before ++ quiet ∧ Idle quiet) before := by
  rw [pauseBefore]
  split
  · exact Prog.heeds_bind ((sleepUntil_heeds _).mono fun _ _ h => h)
  split
  · exact Prog.heeds_bind ((sleepUntil_heeds _).mono fun _ _ h => h)
  · exact ⟨[], (List.append_nil before).symm, .nil⟩

/-- The attempts at a block: if one succeeds, the next block may be asked for. -/
theorem attempts_heeds {index : ℕ} (hindex : index < kPd1000RequestCount) {left attempt : ℕ}
    {retryError : Bytes} (hleft : left + attempt = options.maxRetries.toNat + 1)
    (h : Standing options before index attempt) :
    (attempts options deadline index (plannedRequest options.slaveId index) left attempt
      retryError).Heeds (BusRule options deadline)
        (fun result done => ∀ response, result = .ok response →
          Standing options done (index + 1) 0 ∧ InTime deadline done) before := by
  induction left generalizing attempt retryError before with
  | zero =>
    intro response hok
    cases hok
  | succ left ih =>
    refine Prog.heeds_bind ((pauseBefore_heeds _ _).mono ?_)
    rintro paused done ⟨quiet, rfl, hquiet⟩
    cases paused with
    | error failure =>
      intro response hok
      cases hok
    | ok u =>
      refine heeds_readClock fun check => ?_
      split
      · intro response hok
        cases hok
      next hin =>
      have hidle := hquiet.now check
      have hready : Standing options (before ++ quiet ++ [Did.now check]) index attempt := by
        rw [List.append_assoc]
        exact h.append hidle.noWrite hidle.nothing hidle.going
      have hmay := hready.mayWrite hindex (by omega) rfl (Int.not_le.mp hin)
      refine heeds_writeAll hmay fun written => ?_
      cases written with
      | false =>
        intro response hok
        cases hok
      | true =>
        refine heeds_readClock fun sent => Prog.heeds_bind ?_
        refine (readResponse_heeds _ (Int.min_le_left _ _)).mono ?_
        rintro result done ⟨reads, rfl, hresult⟩
        obtain rfl | rfl | ⟨response, harrives, hanswer⟩ := hresult
        · intro response hok
          cases hok
        · intro response hok
          cases hok
        -- the exchange is over: what was received since the request is the response
        have hline : ¬ GivenUp (Did.now sent :: reads) :=
          AllOnLine.not_givenUp (List.forall_mem_cons.mpr ⟨trivial, harrives.onLine⟩)
        have hnone : NoWrite (Did.now sent :: reads) := .cons rfl harrives.reads.2
        have hbytes : obtainedBytes (Did.now sent :: reads) = response := harrives.obtained
        have hnext := hready.answered hindex hnone hline
        have hdone : before ++ quiet ++ [Did.now check] ++
            [Did.writeAll (plannedRequest options.slaveId index).wireFrame true] ++
            [Did.now sent] ++ reads = before ++ quiet ++ [Did.now check] ++
              Did.writeAll (requestFrame options.slaveId index) true :: Did.now sent :: reads := by
          simp [requestFrame]
        have hin' := harrives.inTime.mono (Int.min_le_left _ _)
        rw [hbytes, ← hdone, ← plannedRequest_count options.slaveId] at hnext
        obtain ⟨hvalid, rfl⟩ | ⟨hretry, rfl⟩ := hanswer
        · intro _ _
          exact ⟨hnext.2 hvalid, hin'.append _⟩
        · exact ih (by omega) (hnext.1 hretry)

/-- The blocks from `index` on. -/
theorem pollBlocks_heeds {index count : ℕ} (hplan : index + count = kPd1000RequestCount)
    (h : Standing options before index 0) (hin : 0 < index → InTime deadline before)
    (raw : Registers) :
    (pollBlocks options deadline index (planFrom options.slaveId index count) raw).Heeds
      (BusRule options deadline) (fun result done => ∀ image, result = .ok image →
        Standing options done kPd1000RequestCount 0 ∧ InTime deadline done) before := by
  induction count generalizing index raw before with
  | zero =>
    intro image _
    rw [Nat.add_zero] at hplan
    rw [← hplan]
    exact ⟨h, hin (by rw [hplan]; decide)⟩
  | succ count ih =>
    have hindex : index < kPd1000RequestCount := by omega
    rw [planFrom_succ, pollBlocks]
    refine Prog.heeds_bind ?_
    rw [pollBlock, if_neg (by simp [plannedRequest])]
    refine (attempts_heeds hindex (by omega) h).mono ?_
    intro result done hdone
    cases result with
    | error failure =>
      intro image hok
      cases hok
    | ok response =>
      obtain ⟨hstanding, hlast⟩ := hdone response rfl
      exact ih (by omega) hstanding (fun _ => hlast) _

/-- The quarantine only reads, and the cycle has been given up by then. -/
theorem quarantineLoop_heeds (duration : Int) (fuel : ℕ) (quiet : Nanoseconds)
    (h : GivenUp before) :
    (quarantineLoop duration fuel quiet).Heeds (BusRule options deadline) (fun _ _ => True)
      before := by
  induction fuel generalizing quiet before with
  | zero => trivial
  | succ fuel ih =>
    refine heeds_readClock fun check => ?_
    split
    · refine heeds_readClock fun now => ?_
      have hgiven := (h.append_left [Did.now check]).append_left [Did.now now]
      refine heeds_readSome (.inl hgiven) fun answer => ?_
      split
      · exact heeds_readClock fun later => ih _ ((hgiven.append_left _).append_left _)
      split
      · exact heeds_sleepFor (ih _ ((hgiven.append_left _).append_left _))
      · exact ih _ (hgiven.append_left _)
    · trivial

theorem failAndQuarantine_heeds (failure : PollFailure) (duration : Int) (fuel : ℕ) :
    (failAndQuarantine failure duration fuel).Heeds (BusRule options deadline)
      (fun result _ => result ≠ .returned true []) before := by
  refine heeds_readClock fun failedAt => heeds_recordFailure (heeds_readClock fun entered => ?_)
  refine Prog.heeds_bind ((quarantineLoop_heeds duration fuel _ ?_).mono fun ended done _ => ?_)
  · exact ⟨failedAt, failure.message, failure.reason, by simp⟩
  · intro hresult
    cases ended <;> cases hresult

/-- How a cycle ends that publishes: the last look at the clock is in time. -/
def Published (options : AcquisitionOptions) (deadline : Nanoseconds) (trace : Trace pollCalls) :
    Prop :=
  ∃ body completedAt payload startedAt,
    trace = body ++ [Did.now completedAt, Did.publish payload startedAt completedAt] ∧
      Standing options body kPd1000RequestCount 0 ∧ InTime deadline body ∧ completedAt ≤ deadline

theorem finishCycle_heeds (fuel : ℕ) (startedAt : Nanoseconds)
    (result : Except PollFailure Registers)
    (h : ∀ image, result = .ok image →
      Standing options before kPd1000RequestCount 0 ∧ InTime deadline before) :
    (finishCycle options fuel startedAt deadline result).Heeds (BusRule options deadline)
      (fun r done => r = .returned true [] → Published options deadline done) before := by
  cases result with
  | error failure =>
    refine (failAndQuarantine_heeds failure _ fuel).mono ?_
    intro r done hne hr
    exact absurd hr hne
  | ok image =>
    obtain ⟨hstanding, hin⟩ := h image rfl
    refine heeds_readClock fun completedAt => ?_
    split
    · refine (failAndQuarantine_heeds _ _ fuel).mono ?_
      intro r done hne hr
      exact absurd hr hne
    · next hlate =>
      refine heeds_publish fun _ => ⟨before, completedAt, parsePd1000Registers image, startedAt, ?_,
        hstanding, hin, Int.not_lt.mp hlate⟩
      rw [List.append_assoc]
      rfl

theorem standing_started (options : AcquisitionOptions) (startedAt : Nanoseconds) :
    Standing options [Did.now startedAt] 0 0 where
  going := (Idle.nil.now startedAt).going
  asked := by
    intro frame ok hmem
    cases List.mem_singleton.mp hmem
  spent := fun _ => Nat.le_refl 0
  settled := by
    intro earlier last ok since heq _
    have hmem : Did.writeAll last ok ∈ [Did.now startedAt] := by
      rw [heq]
      simp
    cases List.mem_singleton.mp hmem

end Heeds

/-- What a cycle does, call by call, and how it ends. -/
theorem pollOnce_heeds {options : AcquisitionOptions} {fuel : ℕ} {trace : Trace pollCalls}
    {result : PollResult} (h : (pollOnce options fuel).Exec trace result) :
    ∃ startedAt rest, trace = Did.now startedAt :: rest ∧
      (∀ before act after, trace = before ++ act :: after →
        BusRule options (cycleEnd options startedAt) before act.op) ∧
      (result = .returned true [] → Published options (cycleEnd options startedAt) trace) := by
  obtain ⟨startedAt, rest, rfl, hrest⟩ := exec_readClock.mp h
  have hcycle : Prog.Heeds (BusRule options (cycleEnd options startedAt))
      (fun r done => r = .returned true [] → Published options (cycleEnd options startedAt) done)
      (pollBlocks options (cycleEnd options startedAt) 0 (pd1000RequestPlan options.slaveId)
        (Vector.replicate kPd1000RegisterCount 0) >>=
          finishCycle options fuel startedAt (cycleEnd options startedAt))
      [Did.now startedAt] := by
    rw [pd1000RequestPlan_eq]
    refine Prog.heeds_bind ((pollBlocks_heeds (by omega) (standing_started options startedAt)
      (fun hpos => absurd hpos (Nat.lt_irrefl 0)) _).mono fun blocks done hblocks => ?_)
    exact finishCycle_heeds fuel startedAt blocks hblocks
  refine ⟨startedAt, rest, rfl, fun before act after heq => ?_, hcycle.outcome hrest⟩
  cases before with
  | nil =>
    cases heq
    trivial
  | cons first before =>
    obtain ⟨rfl, hlater⟩ := List.cons.inj heq
    exact hcycle.allowed hrest hlater

/-! ### The quarantine -/

theorem QuietFor.after {duration : Int} {trace : Trace pollCalls} (h : QuietFor duration trace)
    (earlier : Trace pollCalls) : QuietFor duration (earlier ++ trace) := by
  obtain ⟨before, start, silent, stop, after, rfl, hlong, hsilent⟩ := h
  exact ⟨earlier ++ before, start, silent, stop, after, by simp, hlong, hsilent⟩

/-- A quarantine that ends has counted from some look at the clock on, and received nothing
since then. -/
theorem quarantineLoop_quiet {duration : Int} {fuel : ℕ} {start : Nanoseconds}
    {silent tail : Trace pollCalls} (hsilent : ∀ act ∈ silent, obtained act = [])
    (h : (quarantineLoop duration fuel (start + milliseconds duration)).Exec tail true) :
    QuietFor duration (Did.now start :: (silent ++ tail)) := by
  -- on the fuel: a read with bytes starts the count anew, any other one extends the silence
  induction fuel generalizing start silent tail with
  | zero => cases (Prog.exec_done.mp h).2
  | succ fuel ih =>
    obtain ⟨check, rest, rfl, hcheck⟩ := exec_readClock.mp h
    split at hcheck
    · obtain ⟨now, rest, rfl, hnow⟩ := exec_readClock.mp hcheck
      obtain ⟨answer, rest, rfl, hread⟩ := exec_readSome.mp hnow
      split at hread
      · obtain ⟨later, rest, rfl, hlater⟩ := exec_readClock.mp hread
        have hquiet := @ih later [] rest (by simp) hlater
        rw [List.nil_append] at hquiet
        have hall := hquiet.after (Did.now start :: (silent ++ [Did.now check, Did.now now,
          Did.readSome (readTimeout (start + milliseconds duration - now)) answer]))
        simpa using hall
      · next hnothing =>
        have hread' : obtained
            (Did.readSome (readTimeout (start + milliseconds duration - now)) answer) = [] := by
          show (if answer.ok then answer.bytes else []) = []
          cases hok : answer.ok with
          | false => rfl
          | true => simpa [hok] using hnothing
        have hstill : ∀ act ∈ silent ++ [Did.now check, Did.now now,
            Did.readSome (readTimeout (start + milliseconds duration - now)) answer],
            obtained act = [] := by
          intro act hact
          simp only [List.mem_append, List.mem_cons, List.not_mem_nil, or_false] at hact
          obtain hact | rfl | rfl | rfl := hact
          · exact hsilent act hact
          · rfl
          · rfl
          · exact hread'
        split at hread
        · obtain ⟨rest, rfl, hslept⟩ := exec_sleepFor.mp hread
          have hslept' : ∀ act ∈ silent ++ [Did.now check, Did.now now,
              Did.readSome (readTimeout (start + milliseconds duration - now)) answer] ++
                [Did.sleepFor (milliseconds 1)], obtained act = [] := by
            intro act hact
            rw [List.mem_append, List.mem_singleton] at hact
            obtain hact | rfl := hact
            · exact hstill act hact
            · rfl
          simpa using ih hslept' hslept
        · simpa using ih hstill hread
    · next hover =>
      obtain ⟨rfl, _⟩ := Prog.exec_done.mp hcheck
      exact ⟨[], start, silent, check, [], rfl, Int.not_lt.mp hover, hsilent⟩

/-! ### Runs -/

/-- One call of `poll_once`: the options it has copied, what it did and what it came to. -/
structure Cycle where
  options : AcquisitionOptions
  fuel : ℕ
  trace : Trace pollCalls
  result : PollResult

/-- When the cycle must be over, counted from its first look at the clock. -/
def Cycle.deadline (c : Cycle) : Nanoseconds :=
  cycleEnd c.options ((clockReadings c.trace).headD 0)

/-- Cycles one after the other; the next one starts when the one before has returned. -/
structure PollRun (cycles : List Cycle) : Prop where
  polled : ∀ c ∈ cycles, (pollOnce c.options c.fuel).Exec c.trace c.result
  returned : ∀ earlier c next later, cycles = earlier ++ c :: next :: later →
    ∃ ok error, c.result = .returned ok error
  clock : SteadyClock (cycles.flatMap Cycle.trace)

def isRecord : Act pollCalls → Bool
  | ⟨.recordFailure .., _⟩ => true
  | _ => false

/-- The acts up to the next request, or to where the cycle is given up. -/
def reply (after : Trace pollCalls) : Trace pollCalls :=
  after.takeWhile fun act => !isWrite act && !isRecord act

/-- What may go wrong on the line: the act that shows it, and what is done after it. -/
inductive Fault (c : Cycle) : Act pollCalls → Trace pollCalls → Prop
  | failedWrite {frame : Bytes} {after : Trace pollCalls} :
      Fault c (Did.writeAll frame false) after
  /-- The response to this request is missing, short or malformed: what is received is neither
  a valid response nor a whole frame that is worth a retry. -/
  | badResponse {index : ℕ} {after : Trace pollCalls} (planned : index < kPd1000RequestCount)
      (invalid : ¬ ValidResponse c.options.slaveId (blockSize index) (obtainedBytes (reply after)))
      (final :
        ¬ RetryableResponse c.options.slaveId (blockSize index) (obtainedBytes (reply after))) :
      Fault c (Did.writeAll (requestFrame c.options.slaveId index) true) after
  /-- The deadline is reached, and not by a cycle that is complete at that very moment. -/
  | deadline {t : Nanoseconds} {after : Trace pollCalls} (reached : c.deadline ≤ t)
      (unpublished : ∀ payload startedAt, Did.publish payload startedAt t ∉ after) :
      Fault c (Did.now t) after

theorem reply_append {mid : Trace pollCalls} (hmid : NoWrite mid) (hgoing : ¬ GivenUp mid)
    (later : Trace pollCalls) : reply (mid ++ later) = mid ++ reply later := by
  refine List.takeWhile_append_of_pos fun act hact => ?_
  rw [hmid act hact, Bool.not_false, Bool.true_and]
  obtain ⟨call, answer⟩ := act
  cases call with
  | recordFailure attemptedAt error reason =>
    exact absurd ⟨attemptedAt, error, reason, hact⟩ hgoing
  | now => rfl
  | sleepFor duration => rfl
  | writeAll data => rfl
  | readSome capacity timeout => rfl
  | publish payload startedAt completedAt => rfl

/-- A request that has been written and answered by a whole frame shows no fault. -/
theorem Fault.not_answered {c : Cycle} {since later : Trace pollCalls} {data : Bytes} {ok : Bool}
    (h : Fault c (Did.writeAll data ok) (since ++ later)) (hsince : NoWrite since)
    (hgoing : ¬ GivenUp since) (hlater : obtainedBytes (reply later) = []) {index : ℕ}
    (hok : ok = true) (hindex : index < kPd1000RequestCount)
    (hdata : data = requestFrame c.options.slaveId index)
    (hanswer : ValidResponse c.options.slaveId (blockSize index) (obtainedBytes since) ∨
      RetryableResponse c.options.slaveId (blockSize index) (obtainedBytes since)) : False := by
  have hreply : obtainedBytes (reply (since ++ later)) = obtainedBytes since := by
    rw [reply_append hsince hgoing, obtainedBytes_append, hlater, List.append_nil]
  generalize hact : Did.writeAll data ok = act at h
  cases h with
  | failedWrite =>
    cases hact
    cases hok
  | badResponse planned invalid final =>
    have hframe := hdata.symm.trans (writeAll_data hact)
    obtain rfl := wireFrame_injective c.options.slaveId hindex planned hframe
    rw [hreply] at invalid final
    exact hanswer.elim invalid final
  | deadline => cases hact

section Cycles

variable {c : Cycle} {before after : Trace pollCalls} {act : Act pollCalls}

/-- After a fault the cycle writes no further request. -/
theorem Fault.noWrite (h : Fault c act after) (hpoll : (pollOnce c.options c.fuel).Exec c.trace c.result)
    (hclock : SteadyClock c.trace) (htrace : c.trace = before ++ act :: after) : NoWrite after := by
  by_contra hwrite
  obtain ⟨mid, first, rest, rfl, hfirst, hmid⟩ := exists_first (exists_isWrite hwrite)
  obtain ⟨data, ok, rfl⟩ := isWrite_eq_true hfirst
  obtain ⟨startedAt, tail, hstart, hrule, _⟩ := pollOnce_heeds hpoll
  have hnext : c.trace = before ++ act :: mid ++ Did.writeAll data ok :: rest := by
    rw [htrace]
    simp
  have hmay : MayWrite c.options (cycleEnd c.options startedAt) (before ++ act :: mid) data :=
    hrule _ _ _ hnext
  have hgoing : ¬ GivenUp mid := by
    intro hgiven
    refine hmay.going ?_
    rw [givenUp_append]
    obtain ⟨attemptedAt, error, reason, hmem⟩ := hgiven
    exact .inr ⟨attemptedAt, error, reason, List.mem_cons_of_mem _ hmem⟩
  generalize hafter : mid ++ Did.writeAll data ok :: rest = after at h
  cases h with
  | failedWrite =>
    obtain ⟨hok, _⟩ := hmay.settled before _ false mid rfl hmid
    cases hok
  | @badResponse index _ planned invalid final =>
    obtain ⟨hok, j, hj, hframe, hanswer, _⟩ := hmay.settled before _ true mid rfl hmid
    rw [← hafter] at invalid final
    exact (Fault.badResponse planned invalid final).not_answered hmid hgoing rfl hok hj hframe hanswer
  | @deadline t _ reached _ =>
    -- every look at the clock before a request is before the deadline
    obtain ⟨earlier, check, hcheck, hin⟩ := hmay.inTime
    have hlast : InTime (cycleEnd c.options startedAt) (before ++ Did.now t :: mid) := by
      rw [hcheck]
      refine ⟨check, ?_, hin⟩
      rw [clockReadings_append, List.getLast?_append]
      rfl
    rw [hnext] at hclock
    have hall := hlast.all hclock.split.1 t (by simp [clockReadings, Did.now])
    rw [Cycle.deadline, hstart] at reached
    exact absurd hall (Int.not_lt.mpr reached)

theorem Fault.not_record {attemptedAt : Nanoseconds} {error : Bytes} {reason : FailureReason} :
    ¬ Fault c (Did.recordFailure attemptedAt error reason) after := by
  intro h
  generalize hact : Did.recordFailure attemptedAt error reason = act at h
  cases h <;> cases hact

/-- A cycle that publishes shows no fault. -/
theorem Fault.not_published (h : Fault c act after) (hclock : SteadyClock c.trace)
    (hnone : NoWrite after) (htrace : c.trace = before ++ act :: after) :
    ¬ Published c.options c.deadline c.trace := by
  rintro ⟨body, completedAt, payload, startedAt, hacts, hstanding, hin, hcompleted⟩
  have hcut := htrace.symm.trans hacts
  obtain ⟨mid, hbody, rfl⟩ | ⟨rfl, hact, hafter⟩ | ⟨mid, rfl, hafter⟩ := cut_cases hcut
  · -- in front of the last look at the clock
    have hmid : NoWrite mid := fun act hact => hnone act (List.mem_append_left _ hact)
    have hgoing : ¬ GivenUp mid := by
      intro hgiven
      refine hstanding.going ?_
      rw [hbody, ← List.singleton_append, ← List.append_assoc, givenUp_append]
      exact .inr hgiven
    rw [hacts] at hclock
    have hsteady := hclock.split.1
    generalize htail : mid ++ [Did.now completedAt, Did.publish payload startedAt completedAt] =
      tail at h
    cases h with
    | failedWrite =>
      obtain ⟨hok, _⟩ := hstanding.settled before _ false mid hbody hmid
      cases hok
    | badResponse planned invalid final =>
      obtain ⟨hok, j, hj, hframe, hanswer⟩ := hstanding.settled before _ true mid hbody hmid
      rw [← htail] at invalid final
      refine (Fault.badResponse planned invalid final).not_answered hmid hgoing rfl hok hj hframe ?_
      exact hanswer.imp And.left And.left
    | @deadline t _ reached _ =>
      have hlast := hin.all hsteady t (by rw [hbody]; simp [clockReadings, Did.now])
      exact absurd hlast (Int.not_lt.mpr reached)
  · -- the last look at the clock, which is no later than the deadline
    generalize htail : after = tail at h
    cases h with
    | failedWrite => cases hact
    | badResponse => cases hact
    | deadline reached unpublished =>
      cases hact
      refine unpublished payload startedAt ?_
      rw [← htail, hafter]
      exact List.mem_singleton_self _
  · -- the publication
    cases mid with
    | nil =>
      obtain ⟨hact, _⟩ := List.cons.inj hafter
      generalize htail : after = tail at h
      cases h <;> cases hact
    | cons first mid => simp at hafter

/-- After a fault a cycle that comes back has been in quarantine. -/
theorem Fault.quarantined (h : Fault c act after)
    (hpoll : (pollOnce c.options c.fuel).Exec c.trace c.result) (hclock : SteadyClock c.trace)
    (htrace : c.trace = before ++ act :: after) (hgoing : ¬ GivenUp before)
    (hreturned : ∃ ok error, c.result = .returned ok error) :
    Quarantined c.options.quarantineDuration after := by
  have hnone := h.noWrite hpoll hclock htrace
  obtain ⟨_, _, _, _, _, hresult⟩ | ⟨failure, ended, hfailing, hresult⟩ := pollOnce_cases hpoll
  · obtain ⟨startedAt, tail, hstart, _, hpublished⟩ := pollOnce_heeds hpoll
    have hdeadline : c.deadline = cycleEnd c.options startedAt := by
      rw [Cycle.deadline, hstart]
      rfl
    refine absurd ?_ (h.not_published hclock hnone htrace)
    rw [hdeadline]
    exact hpublished hresult
  · obtain ⟨body, entered, tail, hacts, _, _, hloop⟩ := hfailing
    have hended : ended = true := by
      obtain ⟨ok, error, hreturned⟩ := hreturned
      cases ended with
      | true => rfl
      | false => cases hresult.symm.trans hreturned
    rw [hended] at hloop
    have hnothing : ∀ act ∈ ([] : Trace pollCalls), obtained act = [] := by simp
    have hquiet := quarantineLoop_quiet hnothing hloop
    -- the failure is recorded after the fault, and the quarantine begins there
    have hcut : before ++ act :: after = body ++ [Did.now failure.attemptedAt] ++
        Did.recordFailure failure.attemptedAt failure.error failure.reason ::
          Did.now entered :: tail := by
      rw [← htrace, hacts]
      simp
    obtain ⟨mid, _, rfl⟩ | ⟨_, rfl, _⟩ | ⟨mid, rfl, _⟩ := cut_cases hcut
    · exact ⟨mid ++ [Did.recordFailure failure.attemptedAt failure.error failure.reason],
        Did.now entered :: tail, by simp,
        ⟨_, _, _, List.mem_append_right _ (List.mem_singleton_self _)⟩, hquiet⟩
    · exact absurd h Fault.not_record
    · exact absurd ⟨_, _, _, List.mem_append_right _ List.mem_cons_self⟩ hgoing

end Cycles

/-- The rules of the bus over a sequence of cycles. -/
structure BusDiscipline (cycles : List Cycle) : Prop where
  /-- Only requests of the plan are written … -/
  planned : ∀ c ∈ cycles, ∀ frame ok, Did.writeAll frame ok ∈ c.trace →
    ∃ request ∈ pd1000RequestPlan c.options.slaveId, frame = request.wireFrame
  /-- … and that of a block at most once more than there are retries. -/
  attempts : ∀ c ∈ cycles, ∀ request ∈ pd1000RequestPlan c.options.slaveId,
    c.trace.countP (writes request.wireFrame) ≤ c.options.maxRetries.toNat + 1
  /-- A request is repeated only behind a whole frame that is worth a retry. -/
  repeated : ∀ c ∈ cycles, ∀ before frame ok after,
    c.trace = before ++ Did.writeAll frame ok :: after →
    (∃ written, Did.writeAll frame written ∈ before) →
    ∃ earlier since request, before = earlier ++ Did.writeAll frame true :: since ∧
      NoWrite since ∧ request ∈ pd1000RequestPlan c.options.slaveId ∧
      frame = request.wireFrame ∧
      RetryableResponse c.options.slaveId request.registerCount.toNat (obtainedBytes since)
  /-- Between a fault and the next request, in this cycle or a later one, there is a quarantine
  with its quiet interval. -/
  quarantined : ∀ earlier c later, cycles = earlier ++ c :: later →
    ∀ before act after, c.trace = before ++ act :: after → ¬ GivenUp before → Fault c act after →
    ∀ between frame ok rest,
      after ++ later.flatMap Cycle.trace = between ++ Did.writeAll frame ok :: rest →
      Quarantined c.options.quarantineDuration between
  /-- A read of a cycle that has not been given up ends with the cycle. -/
  timeouts : ∀ c ∈ cycles, ∀ before capacity timeout (answer : ReadSome capacity) after,
    c.trace = before ++ Did.readSome timeout answer :: after → ¬ GivenUp before →
    ∃ earlier now, before = earlier ++ [Did.now now] ∧
      (milliseconds timeout ≤ c.deadline - now ∨
        timeout = 1 ∧ c.deadline - now < milliseconds 1)

theorem mem_plan {slaveId : UInt8} {request : ModbusReadRequest} :
    request ∈ pd1000RequestPlan slaveId ↔
      ∃ index < kPd1000RequestCount, request = plannedRequest slaveId index := by
  rw [pd1000RequestPlan, List.mem_map]
  constructor
  · rintro ⟨index, hindex, rfl⟩
    exact ⟨index, List.mem_range.mp hindex, rfl⟩
  · rintro ⟨index, hindex, rfl⟩
    exact ⟨index, List.mem_range.mpr hindex, rfl⟩

theorem PollRun.clock_of_mem {cycles : List Cycle} (h : PollRun cycles) {c : Cycle}
    (hc : c ∈ cycles) : SteadyClock c.trace := by
  obtain ⟨earlier, later, rfl⟩ := List.append_of_mem hc
  have hclock := h.clock
  rw [List.flatMap_append, List.flatMap_cons] at hclock
  exact hclock.split.2.1.split.1

/-- Whatever the port delivers and however the cycles are configured, the engine keeps to the
rules of the bus. -/
theorem bus_discipline {cycles : List Cycle} (h : PollRun cycles) : BusDiscipline cycles where
  planned := by
    intro c hc frame ok hmem
    obtain ⟨startedAt, _, _, hrule, _⟩ := pollOnce_heeds (h.polled c hc)
    obtain ⟨before, after, htrace⟩ := List.append_of_mem hmem
    have hmay : MayWrite c.options (cycleEnd c.options startedAt) before frame :=
      hrule before _ after htrace
    obtain ⟨index, hindex, hframe⟩ := hmay.planned
    exact ⟨_, mem_plan.mpr ⟨index, hindex, rfl⟩, hframe⟩
  attempts := by
    intro c hc request _
    by_cases hsome : 0 < c.trace.countP (writes request.wireFrame)
    · -- at the last time the frame is written, the budget is not exhausted
      obtain ⟨before, act, after, htrace, hact, hnone⟩ := exists_last (List.countP_pos_iff.mp hsome)
      obtain ⟨ok, rfl⟩ := writes_eq_true hact
      have hlater : after.countP (writes request.wireFrame) = 0 := by
        rw [List.countP_eq_zero]
        intro act hmem hwrites
        exact Bool.noConfusion ((hnone act hmem).symm.trans hwrites)
      obtain ⟨startedAt, _, _, hrule, _⟩ := pollOnce_heeds (h.polled c hc)
      have hmay : MayWrite c.options (cycleEnd c.options startedAt) before request.wireFrame :=
        hrule before _ after htrace
      have hbudget := hmay.budget
      rw [htrace, List.countP_append, List.countP_cons, hlater]
      split <;> omega
    · omega
  repeated := by
    intro c hc before frame ok after htrace hwritten
    obtain ⟨startedAt, _, _, hrule, _⟩ := pollOnce_heeds (h.polled c hc)
    have hmay : MayWrite c.options (cycleEnd c.options startedAt) before frame :=
      hrule before _ after htrace
    obtain ⟨written, hmem⟩ := hwritten
    have hsome : ¬ NoWrite before := fun hnone => Bool.noConfusion (hnone _ hmem)
    obtain ⟨earlier, lastAct, since, rfl, hlastAct, hsince⟩ := exists_last (exists_isWrite hsome)
    obtain ⟨last, lastOk, rfl⟩ := isWrite_eq_true hlastAct
    obtain ⟨rfl, index, hindex, hlast, _, hretry⟩ := hmay.settled earlier last lastOk since rfl hsince
    obtain ⟨rfl, hretryable⟩ := hretry ⟨written, hmem⟩
    refine ⟨earlier, since, _, rfl, hsince, mem_plan.mpr ⟨index, hindex, rfl⟩, hlast, ?_⟩
    rw [plannedRequest_count]
    exact hretryable
  quarantined := by
    intro earlier c later hcycles before act after htrace hgoing hfault between frame ok rest hnext
    have hc : c ∈ cycles := by
      rw [hcycles]
      simp
    have hnone := hfault.noWrite (h.polled c hc) (h.clock_of_mem hc) htrace
    -- the next request is one of a later cycle
    obtain ⟨mid, rfl, hlater⟩ := hnone.split_left hnext
    have hreturned : ∃ ok error, c.result = .returned ok error := by
      cases later with
      | nil => simp at hlater
      | cons next later => exact h.returned earlier c next later hcycles
    exact (hfault.quarantined (h.polled c hc) (h.clock_of_mem hc) htrace hgoing hreturned).append mid
  timeouts := by
    intro c hc before capacity timeout answer after htrace hgoing
    obtain ⟨startedAt, tail, hstart, hrule, _⟩ := pollOnce_heeds (h.polled c hc)
    have hdeadline : c.deadline = cycleEnd c.options startedAt := by
      rw [Cycle.deadline, hstart]
      rfl
    have hmay : GivenUp before ∨ MayRead (cycleEnd c.options startedAt) before timeout :=
      hrule before _ after htrace
    rw [hdeadline]
    exact hmay.resolve_left hgoing

/-- A cycle whose first request cannot be written, and a quarantine of a millisecond. -/
def refusedCycle (t : Nanoseconds) : Cycle where
  options := { quarantineDuration := 1 }
  fuel := 2
  trace := [Did.now t, Did.now t, Did.writeAll (requestFrame 1 0) false, Did.now t,
    Did.recordFailure t (ascii "unable to write Modbus request") .other, Did.now t,
    Did.now t, Did.now t, Did.readSome 1 (⟨true, [], Nat.zero_le 256⟩ : ReadSome 256),
    Did.sleepFor (milliseconds 1), Did.now (t + milliseconds 1)]
  result := .returned false (ascii "unable to write Modbus request")

theorem exec_refusedCycle (t : Nanoseconds) :
    (pollOnce (refusedCycle t).options (refusedCycle t).fuel).Exec (refusedCycle t).trace
      (refusedCycle t).result := by
  have hin : ¬ t + milliseconds 6000 ≤ t := by
    rw [Int.not_le]
    exact Int.lt_add_of_pos_right t (by decide)
  have hblock : (pollBlock { quarantineDuration := 1 } (t + milliseconds 6000) 0
      (plannedRequest 1 0)).Exec [Did.now t, Did.writeAll (requestFrame 1 0) false]
      (.error { message := ascii "unable to write Modbus request" }) := by
    rw [pollBlock, if_neg (by simp [plannedRequest]), attempts]
    refine Prog.Exec.bind (.done _) (exec_readClock.mpr ⟨t, _, rfl, ?_⟩)
    rw [if_neg hin]
    exact exec_writeAll.mpr ⟨false, [], rfl, .done _⟩
  have hquarantine : (quarantineLoop 1 2 (t + milliseconds 1)).Exec [Did.now t, Did.now t,
      Did.readSome 1 (⟨true, [], Nat.zero_le 256⟩ : ReadSome 256), Did.sleepFor (milliseconds 1),
      Did.now (t + milliseconds 1)] true := by
    have hwait : readTimeout (t + milliseconds 1 - t) = 1 := by
      have hleft : t + milliseconds 1 - t = milliseconds 1 := by
        rw [Int.add_comm]
        exact Int.add_sub_cancel _ t
      rw [hleft]
      rfl
    refine exec_readClock.mpr ⟨t, _, rfl, ?_⟩
    rw [if_pos (Int.lt_add_of_pos_right t (by decide))]
    refine exec_readClock.mpr ⟨t, _, rfl, ?_⟩
    rw [hwait]
    refine exec_readSome.mpr ⟨⟨true, [], Nat.zero_le 256⟩, _, rfl, ?_⟩
    refine exec_sleepFor.mpr ⟨_, rfl, exec_readClock.mpr ⟨t + milliseconds 1, [], rfl, ?_⟩⟩
    rw [if_neg (Int.lt_irrefl _)]
    exact .done _
  have hplan : pd1000RequestPlan 1 = plannedRequest 1 0 :: planFrom 1 1 30 := by
    rw [pd1000RequestPlan_eq]
    exact planFrom_succ 1 0 30
  have hblocks : (pollBlocks { quarantineDuration := 1 } (t + milliseconds 6000) 0
      (pd1000RequestPlan 1) (Vector.replicate kPd1000RegisterCount 0)).Exec
      [Did.now t, Did.writeAll (requestFrame 1 0) false]
      (.error { message := ascii "unable to write Modbus request" }) := by
    rw [hplan, pollBlocks]
    exact hblock.bind (.done _)
  refine exec_readClock.mpr ⟨t, _, rfl, hblocks.bind ?_⟩
  refine exec_readClock.mpr ⟨t, _, rfl, Prog.exec_call.mpr ⟨(), _, rfl, ?_⟩⟩
  refine exec_readClock.mpr ⟨t, _, rfl, hquarantine.bind (.done _)⟩

/-- Two such cycles: the second one writes again after the quarantine of the first. -/
theorem refused_twice_discipline : BusDiscipline [refusedCycle 0, refusedCycle (milliseconds 1)] := by
  refine bus_discipline ⟨?_, ?_, ?_⟩
  · intro c hc
    obtain rfl | rfl : c = refusedCycle 0 ∨ c = refusedCycle (milliseconds 1) := by simpa using hc
    · exact exec_refusedCycle _
    · exact exec_refusedCycle _
  · intro earlier c next later hcycles
    cases earlier with
    | nil =>
      cases hcycles
      exact ⟨_, _, rfl⟩
    | cons first earlier =>
      have hlength := congrArg List.length hcycles
      simp at hlength
      omega
  · have hreadings : clockReadings ([refusedCycle 0, refusedCycle (milliseconds 1)].flatMap
        Cycle.trace) = [0, 0, 0, 0, 0, 0, 1000000, 1000000, 1000000, 1000000, 1000000, 1000000,
          1000000, 2000000] := rfl
    rw [SteadyClock, hreadings]
    decide

end Uhf.Acquisition
