/-
A cycle publishes a whole image or nothing.

`AcceptedCycle` says of a trace that every block of the plan was accepted in turn
and that the cycle ended in time.

* `AcceptedBlocks.register` — each register of the image comes from the response
  accepted for the block that covers it;
* `pollOnce_cases` — everything a cycle can do;
* `quarantineLoop_ends` — the quarantine ends in the first quiet window;
* `pollOnce_all_or_nothing` — an accepted cycle publishes once, any other one records
  one failure and leaves the snapshot alone;
* `pollOnce_stays_in_quarantine` — on a line that never falls silent, a failed cycle
  does not come back.
-/
import UhfGateway.Acquisition.Exchange

namespace Uhf.Acquisition

open Domain Effects

/-! ### The image -/

/-- The registers of a block are those of its response, the others are kept. -/
theorem foldl_setIfInBounds (start count : ℕ) (word : ℕ → UInt16) (raw : Registers) {a : ℕ}
    (ha : a < kPd1000RegisterCount) :
    ((List.range count).foldl (fun raw index => raw.setIfInBounds (start + index) (word index))
        raw)[a] =
      if start ≤ a ∧ a < start + count then word (a - start) else raw[a] := by
  induction count with
  | zero => rw [List.range_zero, List.foldl_nil, if_neg (by omega)]
  | succ count ih =>
    rw [List.range_succ, List.foldl_append, List.foldl_cons, List.foldl_nil,
      Vector.getElem_setIfInBounds, ih]
    by_cases hlast : start + count = a
    · rw [if_pos hlast, if_pos (by omega), show a - start = count by omega]
    · rw [if_neg hlast]
      by_cases hin : start ≤ a ∧ a < start + count
      · rw [if_pos hin, if_pos (by omega)]
      · rw [if_neg hin, if_neg (by omega)]

/-- The entries of the plan from `index` on, `count` of them. -/
def planFrom (slaveId : UInt8) (index count : ℕ) : List ModbusReadRequest :=
  (List.range' index count).map (plannedRequest slaveId)

theorem pd1000RequestPlan_eq (slaveId : UInt8) :
    pd1000RequestPlan slaveId = planFrom slaveId 0 kPd1000RequestCount := by
  rw [pd1000RequestPlan, planFrom, List.range_eq_range']

theorem planFrom_succ (slaveId : UInt8) (index count : ℕ) :
    planFrom slaveId index (count + 1) =
      plannedRequest slaveId index :: planFrom slaveId (index + 1) count := by
  rw [planFrom, List.range'_succ, List.map_cons]
  rfl

theorem storeWords_planned (slaveId : UInt8) {index : ℕ} (hindex : index < kPd1000RequestCount)
    (response : Bytes) (raw : Registers) {a : ℕ} (ha : a < kPd1000RegisterCount) :
    (storeWords (plannedRequest slaveId index) response raw)[a] =
      if blockOffset index ≤ a ∧ a < blockOffset index + blockSize index then
        responseWord response (a - blockOffset index)
      else raw[a] := by
  have hstart : (plannedRequest slaveId index).startAddress.toNat - kPd1000FirstAddress.toNat =
      blockOffset index := by
    have hfirst : kPd1000FirstAddress.toNat = 10001 := rfl
    have hplanned := plannedRequest_start slaveId hindex
    omega
  have hstore : storeWords (plannedRequest slaveId index) response raw =
      (List.range (blockSize index)).foldl (fun raw i =>
        raw.setIfInBounds (blockOffset index + i) (responseWord response i)) raw := by
    simp only [storeWords, hstart, plannedRequest_count]
  rw [← foldl_setIfInBounds (blockOffset index) (blockSize index) (responseWord response) raw ha,
    ← hstore]

/-- The blocks from `index` on leave the registers before them alone, and each puts
the words of its response in its own place. -/
theorem storeAll_planFrom (slaveId : UInt8) {index count : ℕ} {responses : List Bytes}
    (hlen : responses.length = count) (hplan : index + count ≤ kPd1000RequestCount)
    (raw : Registers) {a : ℕ} (ha : a < kPd1000RegisterCount) :
    (a < blockOffset index →
        (storeAll (planFrom slaveId index count) responses raw)[a] = raw[a]) ∧
      ∀ k < count, blockOffset (index + k) ≤ a →
        a < blockOffset (index + k) + blockSize (index + k) →
          (storeAll (planFrom slaveId index count) responses raw)[a] =
            responseWord (responses.getD k []) (a - blockOffset (index + k)) := by
  -- blocks are stored in the order of the plan, so a later one never touches an earlier one
  induction count generalizing index responses raw with
  | zero => exact ⟨fun _ => rfl, fun k hk => absurd hk (by omega)⟩
  | succ count ih =>
    obtain ⟨response, responses, rfl⟩ := List.exists_cons_of_length_eq_add_one hlen
    rw [planFrom_succ]
    have hnext := @ih (index + 1) responses (by simpa using hlen) (by omega)
      (storeWords (plannedRequest slaveId index) response raw)
    have hoffset := blockOffset_succ index
    have hstored := storeWords_planned slaveId (show index < kPd1000RequestCount by omega)
      response raw ha
    constructor
    · intro hbefore
      have hkept := hnext.1 (by omega)
      rw [hstored, if_neg (by omega)] at hkept
      exact hkept
    · intro k hk hle hlt
      cases k with
      | zero =>
        rw [Nat.add_zero] at hle hlt
        have hkept := hnext.1 (by omega)
        rw [hstored, if_pos ⟨hle, hlt⟩] at hkept
        exact hkept
      | succ k =>
        rw [show index + (k + 1) = index + 1 + k by omega] at hle hlt ⊢
        exact hnext.2 k (by omega) hle hlt

theorem AcceptedBlocks.length {options : AcquisitionOptions} {deadline : Nanoseconds}
    {planIndex : ℕ} {plan : List ModbusReadRequest} {trace : Trace pollCalls}
    {responses : List Bytes}
    (h : AcceptedBlocks options deadline planIndex plan trace responses) :
    responses.length = plan.length := by
  induction h with
  | none => rfl
  | block _ _ ih => rw [List.length_cons, List.length_cons, ih]

/-- The image a cycle with these responses publishes. -/
def imageOf (options : AcquisitionOptions) (responses : List Bytes) : Registers :=
  storeAll (pd1000RequestPlan options.slaveId) responses (Vector.replicate kPd1000RegisterCount 0)

theorem imageOf_block {options : AcquisitionOptions} {responses : List Bytes}
    (hlen : responses.length = kPd1000RequestCount) {index k : ℕ}
    (hindex : index < kPd1000RequestCount) (hk : k < blockSize index)
    (ha : blockOffset index + k < kPd1000RegisterCount) :
    (imageOf options responses)[blockOffset index + k] =
      responseWord (responses.getD index []) k := by
  have hblock := (storeAll_planFrom options.slaveId hlen (Nat.le_of_eq (Nat.zero_add _))
    (Vector.replicate kPd1000RegisterCount 0) ha).2 index hindex
  rw [Nat.zero_add] at hblock
  have hword := hblock (by omega) (by omega)
  rw [Nat.add_sub_cancel_left] at hword
  rw [← hword]
  simp only [imageOf, pd1000RequestPlan_eq]

/-- The request asks for the register at address `a`. -/
def Covers (request : ModbusReadRequest) (a : ℕ) : Prop :=
  request.startAddress.toNat ≤ a ∧ a < request.startAddress.toNat + request.registerCount.toNat

/-- Every register of the image is the word that the response to the one request
covering it carries for it. -/
theorem imageOf_register {options : AcquisitionOptions} {responses : List Bytes}
    (hlen : responses.length = kPd1000RequestCount) {a : ℕ} (hfirst : 10001 ≤ a)
    (hlast : a ≤ 13615) :
    ∃ index, (index < kPd1000RequestCount ∧
        Covers (plannedRequest options.slaveId index) a) ∧
      (∀ other, other < kPd1000RequestCount →
        Covers (plannedRequest options.slaveId other) a → other = index) ∧
      (imageOf options responses)[a - 10001]? = some (responseWord (responses.getD index [])
        (a - (plannedRequest options.slaveId index).startAddress.toNat)) := by
  -- the blocks tile the image: exactly one of them holds the address
  obtain ⟨index, ⟨hindex, hle, hlt⟩, hunique⟩ := blockOffset_tiles (show a - 10001 < 3615 by omega)
  have hcover : ∀ i, i < kPd1000RequestCount →
      (Covers (plannedRequest options.slaveId i) a ↔
        blockOffset i ≤ a - 10001 ∧ a - 10001 < blockOffset i + blockSize i) := by
    intro i hi
    rw [Covers, plannedRequest_start _ hi, plannedRequest_count]
    omega
  refine ⟨index, ⟨hindex, (hcover index hindex).mpr ⟨hle, hlt⟩⟩, ?_, ?_⟩
  · intro other hother hcov
    obtain ⟨hole, holt⟩ := (hcover other hother).mp hcov
    exact hunique other hother hole holt
  · have hstart := plannedRequest_start options.slaveId hindex
    obtain ⟨k, hk⟩ : ∃ k, a - 10001 = blockOffset index + k := ⟨_, (Nat.add_sub_of_le hle).symm⟩
    have hword : a - (plannedRequest options.slaveId index).startAddress.toNat = k := by omega
    have hin : blockOffset index + k < kPd1000RegisterCount := by
      rw [kPd1000RegisterCount]
      omega
    rw [hword, hk, Vector.getElem?_eq_getElem hin, imageOf_block hlen hindex (by omega) hin]

/-! ### What a cycle does to the store -/

structure Publication where
  payload : ParsedSnapshot
  startedAt : Nanoseconds
  completedAt : Nanoseconds

/-- The calls of `publish`. -/
def publications (trace : Trace pollCalls) : List Publication :=
  trace.filterMap fun
    | ⟨.publish payload startedAt completedAt, _⟩ => some ⟨payload, startedAt, completedAt⟩
    | _ => none

/-- The calls of `record_failure`. -/
def failures (trace : Trace pollCalls) : List SnapshotStore.Failure :=
  trace.filterMap fun
    | ⟨.recordFailure attemptedAt error reason, _⟩ => some ⟨attemptedAt, error, reason⟩
    | _ => none

/-- What one act does to the store. -/
def SnapshotStore.afterAct (s : SnapshotStore) : Act pollCalls → SnapshotStore
  | ⟨.publish payload startedAt completedAt, _⟩ => s.publish payload startedAt completedAt
  | ⟨.recordFailure attemptedAt error reason, _⟩ => s.recordFailure attemptedAt error reason
  | _ => s

/-- The store after a trace. -/
def SnapshotStore.after (s : SnapshotStore) (trace : Trace pollCalls) : SnapshotStore :=
  trace.foldl SnapshotStore.afterAct s

/-- The call is about the port or the clock. -/
def OnLine : PollCall → Prop
  | .publish .. => False
  | .recordFailure .. => False
  | _ => True

/-- The acts of a stretch are about the port and the clock. -/
def AllOnLine (trace : Trace pollCalls) : Prop := ∀ act ∈ trace, OnLine act.op

theorem AllOnLine.publications {trace : Trace pollCalls} (h : AllOnLine trace) :
    publications trace = [] := by
  refine List.filterMap_eq_nil_iff.mpr fun act hact => ?_
  have hline := h act hact
  split
  · exact hline.elim
  · rfl

theorem AllOnLine.failures {trace : Trace pollCalls} (h : AllOnLine trace) :
    failures trace = [] := by
  refine List.filterMap_eq_nil_iff.mpr fun act hact => ?_
  have hline := h act hact
  split
  · exact hline.elim
  · rfl

theorem AllOnLine.after {trace : Trace pollCalls} (h : AllOnLine trace) (s : SnapshotStore) :
    s.after trace = s := by
  induction trace with
  | nil => rfl
  | cons act trace ih =>
    rw [AllOnLine, List.forall_mem_cons] at h
    have hkept : s.afterAct act = s := by
      have hline := h.1
      unfold SnapshotStore.afterAct
      split
      · exact hline.elim
      · exact hline.elim
      · rfl
    rw [SnapshotStore.after, List.foldl_cons, hkept]
    exact ih h.2

section OnLine

variable {α : Type}

theorem readClock_onLine {k : Nanoseconds → Prog pollCalls α} (h : ∀ t, (k t).Only OnLine) :
    (readClock k).Only OnLine := ⟨trivial, h⟩

theorem sleepFor_onLine {duration : Nanoseconds} {k : Prog pollCalls α} (h : k.Only OnLine) :
    (sleepFor duration k).Only OnLine := ⟨trivial, fun _ => h⟩

theorem writeAll_onLine {data : Bytes} {k : Bool → Prog pollCalls α} (h : ∀ ok, (k ok).Only OnLine) :
    (writeAll data k).Only OnLine := ⟨trivial, h⟩

theorem readSome_onLine {capacity : ℕ} {timeout : Int} {k : ReadSome capacity → Prog pollCalls α}
    (h : ∀ answer, (k answer).Only OnLine) : (readSome capacity timeout k).Only OnLine :=
  ⟨trivial, h⟩

theorem readExact_onLine (deadline : Nanoseconds) (size : ℕ) :
    (readExact deadline size).Only OnLine := by
  induction size using Nat.strongRecOn with
  | ind size ih =>
    rw [readExact]
    split
    · trivial
    refine readClock_onLine fun now => ?_
    split
    · trivial
    refine readSome_onLine fun answer => ?_
    split
    · trivial
    split
    · trivial
    next hsome =>
    have hpos := List.length_pos_iff.mpr hsome
    have hfits := answer.fits
    exact Prog.only_bind (ih _ (by omega)) fun _ => trivial

theorem readResponse_onLine (request : ModbusReadRequest) (options : AcquisitionOptions)
    (deadline : Nanoseconds) : (readResponse request options deadline).Only OnLine := by
  refine Prog.only_bind (readExact_onLine _ _) fun header => ?_
  split
  · trivial
  split
  · trivial
  split
  · refine Prog.only_bind (readExact_onLine _ _) fun rest => ?_
    split <;> trivial
  split
  · trivial
  refine Prog.only_bind (readExact_onLine _ _) fun body => ?_
  split
  · trivial
  split <;> trivial

theorem sleepUntil_onLine (deadline : Nanoseconds) (duration : Int) :
    (sleepUntil deadline duration).Only OnLine := by
  refine readClock_onLine fun now => ?_
  split
  · trivial
  · exact sleepFor_onLine (readClock_onLine fun _ => trivial)

theorem pauseBefore_onLine (options : AcquisitionOptions) (deadline : Nanoseconds)
    (planIndex attempt : ℕ) : (pauseBefore options deadline planIndex attempt).Only OnLine := by
  rw [pauseBefore]
  split
  · exact Prog.only_bind (sleepUntil_onLine _ _) fun _ => trivial
  split
  · exact Prog.only_bind (sleepUntil_onLine _ _) fun _ => trivial
  · trivial

theorem attempts_onLine (options : AcquisitionOptions) (deadline : Nanoseconds) (planIndex : ℕ)
    (request : ModbusReadRequest) (left attempt : ℕ) (retryError : Bytes) :
    (attempts options deadline planIndex request left attempt retryError).Only OnLine := by
  induction left generalizing attempt retryError with
  | zero => trivial
  | succ left ih =>
    refine Prog.only_bind (pauseBefore_onLine _ _ _ _) fun paused => ?_
    cases paused with
    | error failure => trivial
    | ok u =>
      refine readClock_onLine fun check => ?_
      split
      · trivial
      refine writeAll_onLine fun written => ?_
      split
      · trivial
      refine readClock_onLine fun sent => Prog.only_bind (readResponse_onLine _ _ _) fun answer => ?_
      cases answer with
      | complete response => trivial
      | retryableError => exact ih _ _
      | fatalError => trivial
      | noResponse => trivial

theorem pollBlocks_onLine (options : AcquisitionOptions) (deadline : Nanoseconds) (planIndex : ℕ)
    (plan : List ModbusReadRequest) (raw : Registers) :
    (pollBlocks options deadline planIndex plan raw).Only OnLine := by
  induction plan generalizing planIndex raw with
  | nil => trivial
  | cons request plan ih =>
    have hblock : (pollBlock options deadline planIndex request).Only OnLine := by
      rw [pollBlock]
      split
      · trivial
      · exact attempts_onLine _ _ _ _ _ _ _
    refine Prog.only_bind hblock fun result => ?_
    cases result with
    | error failure => trivial
    | ok response => exact ih _ _

theorem quarantineLoop_onLine (duration : Int) (fuel : ℕ) (quiet : Nanoseconds) :
    (quarantineLoop duration fuel quiet).Only OnLine := by
  induction fuel generalizing quiet with
  | zero => trivial
  | succ fuel ih =>
    refine readClock_onLine fun check => ?_
    split
    · refine readClock_onLine fun now => readSome_onLine fun answer => ?_
      split
      · exact readClock_onLine fun later => ih _
      split
      · exact sleepFor_onLine (ih _)
      · exact ih _
    · trivial

end OnLine

/-! ### The cycle -/

/-- When a cycle that started then must be over. -/
def cycleEnd (options : AcquisitionOptions) (startedAt : Nanoseconds) : Nanoseconds :=
  startedAt + milliseconds options.cycleDeadline

/-- Every block of the plan was accepted in its turn, and the look at the clock after
the last one came no later than the deadline. -/
structure AcceptedCycle (options : AcquisitionOptions) (trace : Trace pollCalls)
    (startedAt completedAt : Nanoseconds) (responses : List Bytes) : Prop where
  acts : ∃ body tail, trace = Did.now startedAt :: (body ++ Did.now completedAt :: tail) ∧
    AcceptedBlocks options (cycleEnd options startedAt) 0 (pd1000RequestPlan options.slaveId)
      body responses
  inTime : completedAt ≤ cycleEnd options startedAt

/-- The acts of a cycle that publishes: those on the line, and the publication. -/
def PublishingTrace (options : AcquisitionOptions) (trace : Trace pollCalls)
    (startedAt completedAt : Nanoseconds) (responses : List Bytes) : Prop :=
  ∃ body, trace = Did.now startedAt :: (body ++ [Did.now completedAt, Did.publish
      (parsePd1000Registers (imageOf options responses)) startedAt completedAt]) ∧
    AllOnLine body ∧
    AcceptedBlocks options (cycleEnd options startedAt) 0 (pd1000RequestPlan options.slaveId)
      body responses

/-- The acts of a cycle that fails: those on the line, the record of the failure, and
those of the quarantine. -/
def FailingTrace (options : AcquisitionOptions) (fuel : ℕ) (trace : Trace pollCalls)
    (failure : SnapshotStore.Failure) (ended : Bool) : Prop :=
  ∃ body entered tail,
    trace = body ++ Did.now failure.attemptedAt ::
      Did.recordFailure failure.attemptedAt failure.error failure.reason :: Did.now entered :: tail ∧
    AllOnLine body ∧ AllOnLine tail ∧
    (quarantineLoop options.quarantineDuration fuel
      (entered + milliseconds options.quarantineDuration)).Exec tail ended

/-- What a cycle has come to that went into quarantine. -/
def afterQuarantine (ended : Bool) (error : Bytes) : PollResult :=
  if ended then .returned false error else .inQuarantine error

theorem failAndQuarantine_cases {options : AcquisitionOptions} {failure : PollFailure} {fuel : ℕ}
    {body trace : Trace pollCalls} {result : PollResult} (hbody : AllOnLine body)
    (h : (failAndQuarantine failure options.quarantineDuration fuel).Exec trace result) :
    ∃ failed ended, FailingTrace options fuel (body ++ trace) failed ended ∧
      result = afterQuarantine ended failed.error := by
  obtain ⟨failedAt, rest, rfl, hrecord⟩ := exec_readClock.mp h
  obtain ⟨_, rest, rfl, hentered⟩ := Prog.exec_call.mp hrecord
  obtain ⟨entered, rest, rfl, hloop⟩ := exec_readClock.mp hentered
  obtain ⟨tail, last, ended, rfl, htail, hlast⟩ := Prog.exec_bind.mp hloop
  obtain ⟨rfl, rfl⟩ := Prog.exec_done.mp hlast
  refine ⟨⟨failedAt, failure.message, failure.reason⟩, ended, ⟨body, entered, tail, ?_, hbody, ?_,
    htail⟩, rfl⟩
  · rw [List.append_nil]
    rfl
  · exact (quarantineLoop_onLine _ _ _).trace htail

/-- Everything a cycle can do. -/
theorem pollOnce_cases {options : AcquisitionOptions} {fuel : ℕ} {trace : Trace pollCalls}
    {result : PollResult} (h : (pollOnce options fuel).Exec trace result) :
    (∃ startedAt completedAt responses,
        PublishingTrace options trace startedAt completedAt responses ∧
        completedAt ≤ cycleEnd options startedAt ∧ result = .returned true []) ∨
      ∃ failure ended, FailingTrace options fuel trace failure ended ∧
        result = afterQuarantine ended failure.error := by
  obtain ⟨startedAt, rest, rfl, hstarted⟩ := exec_readClock.mp h
  obtain ⟨body, rest, blocks, rfl, hblocks, hrest⟩ := Prog.exec_bind.mp hstarted
  have hbody : AllOnLine (Did.now startedAt :: body) :=
    List.forall_mem_cons.mpr ⟨trivial, (pollBlocks_onLine _ _ _ _ _).trace hblocks⟩
  cases blocks with
  | error failure => exact .inr (failAndQuarantine_cases hbody hrest)
  | ok image =>
    obtain ⟨completedAt, rest, rfl, hcompleted⟩ := exec_readClock.mp hrest
    split at hcompleted
    · -- too late: the failure is recorded after one more look at the clock
      have hlate : AllOnLine (Did.now startedAt :: body ++ [Did.now completedAt]) :=
        List.forall_mem_append.mpr ⟨hbody, List.forall_mem_singleton.mpr trivial⟩
      have hfailed := failAndQuarantine_cases hlate hcompleted
      rw [List.append_assoc] at hfailed
      exact .inr hfailed
    · next hin =>
      obtain ⟨_, rest, rfl, hdone⟩ := Prog.exec_call.mp hcompleted
      obtain ⟨rfl, rfl⟩ := Prog.exec_done.mp hdone
      obtain ⟨responses, haccepted, rfl⟩ := AcceptedBlocks.of_pollBlocks hblocks
      exact .inl ⟨startedAt, completedAt, responses, ⟨body, rfl,
        (List.forall_mem_cons.mp hbody).2, haccepted⟩, Int.not_lt.mp hin, rfl⟩

theorem plan_slaveId (slaveId : UInt8) :
    ∀ request ∈ pd1000RequestPlan slaveId, request.slaveId = slaveId := by
  intro request h
  obtain ⟨index, _, rfl⟩ := List.mem_map.mp h
  rfl

/-- An accepted cycle is published: the looks at the clock during the pauses cannot
have been too late, since the later ones before the requests were not. -/
theorem AcceptedCycle.returns {options : AcquisitionOptions} {fuel : ℕ} {trace : Trace pollCalls}
    {result : PollResult} {startedAt completedAt : Nanoseconds} {responses : List Bytes}
    (hcycle : AcceptedCycle options trace startedAt completedAt responses)
    (h : (pollOnce options fuel).Exec trace result) (hclock : SteadyClock trace) :
    result = .returned true [] ∧
      PublishingTrace options trace startedAt completedAt responses := by
  obtain ⟨⟨body, tail, rfl, hblocks⟩, hin⟩ := hcycle
  have hsteady : SteadyClock body := by
    have hsplit : SteadyClock ([Did.now startedAt] ++ (body ++ Did.now completedAt :: tail)) :=
      hclock
    exact hsplit.split.2.1.split.1
  obtain ⟨started, rest, heq, hstarted⟩ := exec_readClock.mp h
  obtain ⟨hnow, rfl⟩ := List.cons.inj heq
  cases hnow
  obtain ⟨acts, rest, blocks, heq, hacts, hrest⟩ := Prog.exec_bind.mp hstarted
  have hran : (pollBlocks options (cycleEnd options startedAt) 0
      (pd1000RequestPlan options.slaveId) (Vector.replicate kPd1000RegisterCount 0)).Exec body
      (.ok (imageOf options responses)) := hblocks.pollBlocks (plan_slaveId _) hsteady
  -- the trace fixes what the blocks returned and where they ended
  obtain ⟨rfl, rfl, rfl⟩ := hran.unique hacts heq
  obtain ⟨completed, rest, heq, hcompleted⟩ := exec_readClock.mp hrest
  obtain ⟨hnow, rfl⟩ := List.cons.inj heq
  cases hnow
  rw [cycleEnd] at hin
  rw [if_neg (Int.not_lt.mpr hin)] at hcompleted
  obtain ⟨_, rest, rfl, hdone⟩ := Prog.exec_call.mp hcompleted
  obtain ⟨rfl, rfl⟩ := Prog.exec_done.mp hdone
  exact ⟨rfl, body, rfl, (pollBlocks_onLine _ _ _ _ _).trace hacts, hblocks⟩

theorem PublishingTrace.accepted {options : AcquisitionOptions} {trace : Trace pollCalls}
    {startedAt completedAt : Nanoseconds} {responses : List Bytes}
    (h : PublishingTrace options trace startedAt completedAt responses)
    (hin : completedAt ≤ cycleEnd options startedAt) :
    AcceptedCycle options trace startedAt completedAt responses := by
  obtain ⟨body, rfl, _, hblocks⟩ := h
  exact ⟨⟨body, _, rfl, hblocks⟩, hin⟩

theorem publications_append (trace later : Trace pollCalls) :
    publications (trace ++ later) = publications trace ++ publications later :=
  List.filterMap_append

theorem failures_append (trace later : Trace pollCalls) :
    failures (trace ++ later) = failures trace ++ failures later :=
  List.filterMap_append

theorem SnapshotStore.after_append (s : SnapshotStore) (trace later : Trace pollCalls) :
    s.after (trace ++ later) = (s.after trace).after later :=
  List.foldl_append

/-- A publishing cycle calls `publish` once and `record_failure` never. -/
theorem PublishingTrace.effects {options : AcquisitionOptions} {trace : Trace pollCalls}
    {startedAt completedAt : Nanoseconds} {responses : List Bytes}
    (h : PublishingTrace options trace startedAt completedAt responses) (s : SnapshotStore) :
    publications trace =
        [⟨parsePd1000Registers (imageOf options responses), startedAt, completedAt⟩] ∧
      failures trace = [] ∧
      s.after trace =
        s.publish (parsePd1000Registers (imageOf options responses)) startedAt completedAt := by
  obtain ⟨body, rfl, hbody, _⟩ := h
  have hline : AllOnLine (Did.now startedAt :: (body ++ [Did.now completedAt])) :=
    List.forall_mem_cons.mpr ⟨trivial,
      List.forall_mem_append.mpr ⟨hbody, List.forall_mem_singleton.mpr trivial⟩⟩
  have hsplit : Did.now startedAt :: (body ++ [Did.now completedAt, Did.publish
      (parsePd1000Registers (imageOf options responses)) startedAt completedAt]) =
      (Did.now startedAt :: (body ++ [Did.now completedAt])) ++ [Did.publish
        (parsePd1000Registers (imageOf options responses)) startedAt completedAt] := by
    simp
  rw [hsplit, publications_append, failures_append, SnapshotStore.after_append,
    hline.publications, hline.failures, hline.after]
  exact ⟨rfl, rfl, rfl⟩

/-- A failing cycle calls `record_failure` once and `publish` never. -/
theorem FailingTrace.effects {options : AcquisitionOptions} {fuel : ℕ} {trace : Trace pollCalls}
    {failure : SnapshotStore.Failure} {ended : Bool}
    (h : FailingTrace options fuel trace failure ended) (s : SnapshotStore) :
    publications trace = [] ∧ failures trace = [failure] ∧
      s.after trace = s.recordFailure failure.attemptedAt failure.error failure.reason := by
  obtain ⟨body, entered, tail, rfl, hbody, htail, _⟩ := h
  have hsplit : body ++ Did.now failure.attemptedAt ::
      Did.recordFailure failure.attemptedAt failure.error failure.reason :: Did.now entered :: tail =
      (body ++ [Did.now failure.attemptedAt]) ++
        ([Did.recordFailure failure.attemptedAt failure.error failure.reason] ++
          (Did.now entered :: tail)) := by
    simp
  have hbefore : AllOnLine (body ++ [Did.now failure.attemptedAt]) :=
    List.forall_mem_append.mpr ⟨hbody, List.forall_mem_singleton.mpr trivial⟩
  have hafter : AllOnLine (Did.now entered :: tail) := List.forall_mem_cons.mpr ⟨trivial, htail⟩
  rw [hsplit, publications_append, hbefore.publications, publications_append,
    hafter.publications, failures_append, hbefore.failures, failures_append, hafter.failures,
    SnapshotStore.after_append, hbefore.after, SnapshotStore.after_append, hafter.after]
  exact ⟨rfl, rfl, rfl⟩

/-! ### The quarantine -/

/-- What the surroundings answer to the calls of a run, by the number of calls before. -/
abbrev Answers := ℕ → (call : PollCall) → pollCalls.Answer call

/-- What the clock reads after so many calls. -/
def Answers.clock (answers : Answers) (n : ℕ) : Nanoseconds := answers n .now

/-- What arrives if a read is the next call. -/
def Answers.arriving (answers : Answers) (n capacity : ℕ) (timeout : Int) : ReadSome capacity :=
  answers n (.readSome capacity timeout)

/-- The clock never goes back. -/
def Answers.Steady (answers : Answers) : Prop := ∀ i j, i ≤ j → answers.clock i ≤ answers.clock j

/-- From call `first` to call `last` no byte arrives, and `duration` milliseconds pass. -/
structure Answers.QuietWindow (answers : Answers) (duration : Int) (first last : ℕ) : Prop where
  ordered : first ≤ last
  silent : ∀ n, first ≤ n → n ≤ last + 1 → ∀ capacity timeout,
    (answers.arriving n capacity timeout).bytes = []
  long : answers.clock first + milliseconds duration ≤ answers.clock last

section Replay

variable {α : Type} (answers : Answers) (n : ℕ)

theorem evalIn_readClock (k : Nanoseconds → Prog pollCalls α) :
    (readClock k).evalIn (.replay answers) n =
      (k (answers.clock n)).evalIn (.replay answers) (n + 1) := rfl

theorem evalIn_sleepFor (duration : Nanoseconds) (k : Prog pollCalls α) :
    (sleepFor duration k).evalIn (.replay answers) n = k.evalIn (.replay answers) (n + 1) := rfl

theorem evalIn_readSome (capacity : ℕ) (timeout : Int) (k : ReadSome capacity → Prog pollCalls α) :
    (readSome capacity timeout k).evalIn (.replay answers) n =
      (k (answers.arriving n capacity timeout)).evalIn (.replay answers) (n + 1) := rfl

theorem evalIn_writeAll (data : Bytes) (k : Bool → Prog pollCalls α) :
    (writeAll data k).evalIn (.replay answers) n =
      (k (answers n (.writeAll data))).evalIn (.replay answers) (n + 1) := rfl

theorem evalIn_recordFailure (attemptedAt : Nanoseconds) (error : Bytes) (reason : FailureReason)
    (k : Prog pollCalls α) :
    (recordFailure attemptedAt error reason k).evalIn (.replay answers) n =
      k.evalIn (.replay answers) (n + 1) := rfl

end Replay

/-- The loop is over by the end of the window.  Until the window begins the quiet
deadline is no further off than the duration, and in the window it stays as it is. -/
theorem quarantineLoop_ends {answers : Answers} (hsteady : answers.Steady) {duration : Int}
    {first last : ℕ} (hwindow : answers.QuietWindow duration first last) {fuel n : ℕ}
    {quiet : Nanoseconds} (hfuel : 0 < fuel ∧ last < fuel + n)
    (hbefore : n ≤ first → quiet ≤ answers.clock n + milliseconds duration)
    (hwithin : first ≤ n → quiet ≤ answers.clock first + milliseconds duration) :
    ((quarantineLoop duration fuel quiet).evalIn (.replay answers) n).1 = true := by
  -- on the fuel: `n` counts the answers used up, and every turn of the loop uses some
  induction fuel generalizing n quiet with
  | zero => omega
  | succ fuel ih =>
    have hordered := hwindow.ordered
    rw [quarantineLoop, evalIn_readClock]
    by_cases hcheck : answers.clock n < quiet
    · -- the loop goes on, so the end of the quiet window is still ahead
      have hlast : n < last := by
        by_contra hge
        have hclock := hsteady last n (by omega)
        have hquiet := hwithin (by omega)
        exact absurd hcheck (Int.not_lt.mpr (Int.le_trans hquiet (Int.le_trans hwindow.long hclock)))
      have hlater : ∀ m, n + m ≤ first →
          quiet ≤ answers.clock (n + m) + milliseconds duration := fun m hm =>
        Int.le_trans (hbefore (by omega)) (Int.add_le_add_right (hsteady n (n + m) (by omega)) _)
      have hstill : ∀ m, first ≤ n + m → quiet ≤ answers.clock first + milliseconds duration := by
        intro m hm
        by_cases hn : first ≤ n
        · exact hwithin hn
        · exact Int.le_trans (hbefore (by omega))
            (Int.add_le_add_right (hsteady n first (by omega)) _)
      rw [if_pos hcheck, evalIn_readClock, evalIn_readSome]
      generalize hanswer : answers.arriving (n + 1 + 1) 256 _ = answer
      by_cases hsome : answer.bytes = []
      · rw [hsome, List.isEmpty_nil, Bool.not_true, Bool.and_false, if_neg Bool.false_ne_true,
          if_pos rfl, evalIn_sleepFor]
        exact ih (by omega) (hlater 4) (hstill 4)
      · -- bytes arrived, so the quiet window has not begun
        have hearly : n + 2 < first := by
          by_contra hge
          exact hsome (hanswer ▸ hwindow.silent (n + 1 + 1) (by omega) (by omega) 256 _)
        have hfull : answer.bytes.isEmpty = false := by
          rw [List.isEmpty_eq_false_iff]
          exact hsome
        rw [hfull, Bool.not_false, Bool.and_true]
        by_cases hok : answer.ok = true
        · -- only a good read pushes the end of the quarantine back
          rw [if_pos hok, evalIn_readClock]
          refine ih (by omega) ?_ ?_
          · intro _
            exact Int.add_le_add_right (hsteady _ _ (by omega)) _
          · intro _
            exact Int.add_le_add_right (hsteady _ _ (by omega)) _
        · rw [if_neg hok, if_neg Bool.false_ne_true]
          exact ih (by omega) (hlater 3) (hstill 3)
    · rw [if_neg hcheck]
      rfl

/-- Whatever happened before, a failed cycle returns if quiet windows keep coming. -/
theorem failAndQuarantine_returns {answers : Answers} (hsteady : answers.Steady) {duration : Int}
    (hquiet : ∀ n, ∃ first last, n ≤ first ∧ answers.QuietWindow duration first last)
    (failure : PollFailure) (n : ℕ) :
    ∃ enough, ∀ fuel, enough ≤ fuel →
      ((failAndQuarantine failure duration fuel).evalIn (.replay answers) n).1 =
        .returned false failure.message := by
  obtain ⟨first, last, hfirst, hwindow⟩ := hquiet (n + 3)
  refine ⟨last + 1, fun fuel hfuel => ?_⟩
  have hends : ((quarantineLoop duration fuel (answers.clock (n + 2) + milliseconds duration)).evalIn
      (.replay answers) (n + 3)).1 = true :=
    quarantineLoop_ends hsteady hwindow (by omega)
      (fun _ => Int.add_le_add_right (hsteady _ _ (by omega)) _)
      (fun _ => Int.add_le_add_right (hsteady _ _ (by omega)) _)
  rw [failAndQuarantine, evalIn_readClock, evalIn_recordFailure, evalIn_readClock,
    Prog.evalIn_bind, hends]
  rfl

theorem pollOnce_returns {answers : Answers} (options : AcquisitionOptions)
    (hsteady : answers.Steady)
    (hquiet : ∀ n, ∃ first last, n ≤ first ∧
      answers.QuietWindow options.quarantineDuration first last) :
    ∃ enough, ∀ fuel, enough ≤ fuel → ∃ ok error,
      ((pollOnce options fuel).evalIn (.replay answers) 0).1 = .returned ok error := by
  have hfails := failAndQuarantine_returns hsteady hquiet
  obtain ⟨⟨blocks, n⟩, hblocks⟩ : ∃ ran, ran = (pollBlocks options
      (answers.clock 0 + milliseconds options.cycleDeadline) 0 (pd1000RequestPlan options.slaveId)
      (Vector.replicate kPd1000RegisterCount 0)).evalIn (.replay answers) 1 := ⟨_, rfl⟩
  -- the blocks are polled in the same way whatever bound the quarantine has
  have hpoll : ∀ fuel, (pollOnce options fuel).evalIn (.replay answers) 0 =
      (finishCycle options fuel (answers.clock 0)
        (answers.clock 0 + milliseconds options.cycleDeadline) blocks).evalIn
          (.replay answers) n := by
    intro fuel
    rw [pollOnce, evalIn_readClock, Prog.evalIn_bind, ← hblocks]
  cases blocks with
  | error failure =>
    obtain ⟨enough, henough⟩ := hfails failure n
    refine ⟨enough, fun fuel hfuel => ⟨false, failure.message, ?_⟩⟩
    rw [hpoll]
    exact henough fuel hfuel
  | ok rawRegisters =>
    by_cases hlate : answers.clock 0 + milliseconds options.cycleDeadline < answers.clock n
    · obtain ⟨enough, henough⟩ :=
        hfails { message := ascii "poll cycle deadline reached after response" } (n + 1)
      refine ⟨enough, fun fuel hfuel =>
        ⟨false, ascii "poll cycle deadline reached after response", ?_⟩⟩
      rw [hpoll, finishCycle, evalIn_readClock, if_pos hlate]
      exact henough fuel hfuel
    · refine ⟨0, fun fuel _ => ⟨true, [], ?_⟩⟩
      rw [hpoll, finishCycle, evalIn_readClock, if_neg hlate]
      rfl

/-! ### Two lines -/

/-- A line on which bytes never stop coming, with a clock that runs on. -/
def babble : Answers
  | n, .now => (n : Int)
  | _, .writeAll _ => true
  | _, .readSome capacity _ => ⟨true, List.replicate capacity 0, Nat.le_of_eq List.length_replicate⟩
  | _, .sleepFor _ => ()
  | _, .publish _ _ _ => ()
  | _, .recordFailure _ _ _ => ()

theorem readExact_babble {n size : ℕ} {deadline : Nanoseconds} (hsize : size ≠ 0)
    (hin : babble.clock n < deadline) :
    (readExact deadline size).evalIn (.replay babble) n =
      ((true, List.replicate size 0), n + 2) := by
  have hok : ∀ timeout, (!(babble.arriving (n + 1) size timeout).ok) = false := fun _ => rfl
  have hbytes : ∀ timeout, (babble.arriving (n + 1) size timeout).bytes =
      List.replicate size 0 := fun _ => rfl
  have hnil : List.replicate size (0 : UInt8) ≠ [] := by simpa using hsize
  rw [readExact, if_neg hsize, evalIn_readClock, if_neg (Int.not_le.mpr hin), evalIn_readSome, hok,
    if_neg Bool.false_ne_true]
  simp only [hbytes, hnil, dite_false, List.length_replicate, Nat.sub_self]
  rw [Prog.evalIn_bind, readExact, if_pos rfl]
  simp only [Prog.evalIn, List.append_nil]

/-- The first answer has the wrong slave number. -/
theorem pollBlock_babble :
    (pollBlock {} (milliseconds 6000) 0 (plannedRequest 1 0)).evalIn (.replay babble) 1 =
      (.error { message := ascii "Modbus response boundary or timeout error" }, 6) := by
  have hheader : (readExact (min (milliseconds 6000) (babble.clock 3 + milliseconds 150))
      kResponseHeaderBytes).evalIn (.replay babble) 4 =
        ((true, List.replicate kResponseHeaderBytes 0), 6) :=
    readExact_babble (by decide) (by decide)
  have hresponse : (readResponse (plannedRequest 1 0) {}
      (min (milliseconds 6000) (babble.clock 3 + milliseconds 150))).evalIn (.replay babble) 4 =
        (.fatalError, 6) := by
    rw [readResponse, Prog.evalIn_bind, hheader]
    rfl
  have hwritten : babble 2 (.writeAll (plannedRequest 1 0).wireFrame) = true := rfl
  have hpause : (pauseBefore {} (milliseconds 6000) 0 0).evalIn (.replay babble) 1 = (.ok (), 1) :=
    rfl
  rw [pollBlock, if_neg (by decide), attempts, Prog.evalIn_bind, hpause]
  simp only
  rw [evalIn_readClock, if_neg (by decide), evalIn_writeAll, hwritten, Bool.not_true,
    if_neg Bool.false_ne_true, evalIn_readClock, Prog.evalIn_bind, hresponse]
  rfl

theorem quarantineLoop_babble (fuel : ℕ) {n : ℕ} {quiet : Nanoseconds} (h : babble.clock n < quiet) :
    ((quarantineLoop 6000 fuel quiet).evalIn (.replay babble) n).1 = false := by
  induction fuel generalizing n quiet with
  | zero => rfl
  | succ fuel ih =>
    have hok : ∀ timeout, ((babble.arriving (n + 1 + 1) 256 timeout).ok &&
        !(babble.arriving (n + 1 + 1) 256 timeout).bytes.isEmpty) = true := fun _ => rfl
    rw [quarantineLoop, evalIn_readClock, if_pos h, evalIn_readClock, evalIn_readSome, hok,
      if_pos rfl, evalIn_readClock]
    refine ih ?_
    show ((n + 1 + 1 + 1 + 1 : ℕ) : Int) < ((n + 1 + 1 + 1 : ℕ) : Int) + 6000 * 1000000
    omega

/-- On that line the cycle fails and stays in quarantine. -/
theorem pollOnce_babble (fuel : ℕ) : ((pollOnce {} fuel).evalIn (.replay babble) 0).1 =
    .inQuarantine (ascii "Modbus response boundary or timeout error") := by
  have hplan : pd1000RequestPlan 1 = plannedRequest 1 0 :: planFrom 1 1 30 := by
    rw [pd1000RequestPlan_eq, kPd1000RequestCount, planFrom_succ]
  have hstart : babble.clock 0 + milliseconds 6000 = milliseconds 6000 := by decide
  have hentered : babble.clock 9 < babble.clock 8 + milliseconds 6000 := by decide
  rw [pollOnce, evalIn_readClock, Prog.evalIn_bind, hstart, hplan, pollBlocks, Prog.evalIn_bind,
    pollBlock_babble]
  simp only [Prog.evalIn]
  rw [finishCycle, failAndQuarantine, evalIn_readClock, evalIn_recordFailure, evalIn_readClock,
    Prog.evalIn_bind, quarantineLoop_babble fuel hentered]
  rfl

theorem babble_steady : babble.Steady := by
  intro i j hij
  show (i : Int) ≤ (j : Int)
  omega

/-- A line on which nothing ever arrives, with a second between two calls. -/
def silence : Answers
  | n, .now => (n : Int) * 1000000000
  | _, .writeAll _ => true
  | _, .readSome _ _ => ⟨true, [], Nat.zero_le _⟩
  | _, .sleepFor _ => ()
  | _, .publish _ _ _ => ()
  | _, .recordFailure _ _ _ => ()

theorem silence_steady : silence.Steady := by
  intro i j hij
  show (i : Int) * 1000000000 ≤ (j : Int) * 1000000000
  omega

theorem silence_quiet (n : ℕ) : silence.QuietWindow 6000 n (n + 6) where
  ordered := by omega
  silent _ _ _ _ _ := rfl
  long := by
    show (n : Int) * 1000000000 + 6000 * 1000000 ≤ ((n + 6 : ℕ) : Int) * 1000000000
    omega

/-- The readings of a run are those of its surroundings, in their order. -/
theorem traceIn_steady {α : Type} {answers : Answers} (hsteady : answers.Steady)
    (p : Prog pollCalls α) (n : ℕ) :
    SteadyClock (p.traceIn (.replay answers) n) ∧
      ∀ t ∈ clockReadings (p.traceIn (.replay answers) n), answers.clock n ≤ t := by
  induction p generalizing n with
  | done a => exact ⟨.nil, fun t ht => absurd ht List.not_mem_nil⟩
  | call o k ih =>
    obtain ⟨hrest, hafter⟩ := ih (answers n o) (n + 1)
    have hlater : ∀ t ∈ clockReadings ((k (answers n o)).traceIn (.replay answers) (n + 1)),
        answers.clock n ≤ t :=
      fun t ht => Int.le_trans (hsteady n (n + 1) (by omega)) (hafter t ht)
    -- a look at the clock adds a reading, any other call none
    by_cases hnow : o = .now
    · subst hnow
      exact ⟨List.pairwise_cons.mpr ⟨hlater, hrest⟩,
        List.forall_mem_cons.mpr ⟨Int.le_refl _, hlater⟩⟩
    · have hsame : clockReadings ((Prog.call o k).traceIn (.replay answers) n) =
          clockReadings ((k (answers n o)).traceIn (.replay answers) (n + 1)) := by
        cases o with
        | now => exact absurd rfl hnow
        | _ => rfl
      rw [SteadyClock, hsame]
      exact ⟨hrest, hlater⟩

/-! ### All or nothing -/

/-- The cycle calls `publish` once, with an image in which the register at every
address is the word that the response to the one request covering it carries. -/
def PublishesOnce (options : AcquisitionOptions) (trace : Trace pollCalls) (store : SnapshotStore)
    (startedAt completedAt : Nanoseconds) (responses : List Bytes) : Prop :=
  ∃ payload, publications trace = [⟨payload, startedAt, completedAt⟩] ∧ failures trace = [] ∧
    store.after trace = store.publish payload startedAt completedAt ∧
    ∀ a, 10001 ≤ a → a ≤ 13615 →
      ∃ index, (index < kPd1000RequestCount ∧
          Covers (plannedRequest options.slaveId index) a) ∧
        (∀ other, other < kPd1000RequestCount →
          Covers (plannedRequest options.slaveId other) a → other = index) ∧
        payload.rawRegisters[a - 10001]? = some (responseWord (responses.getD index [])
          (a - (plannedRequest options.slaveId index).startAddress.toNat))

/-- The cycle records one failure and keeps the snapshot; it has returned `false` or
is in quarantine. -/
def FailsOnce (trace : Trace pollCalls) (store : SnapshotStore) (result : PollResult) : Prop :=
  ∃ failure, failures trace = [failure] ∧ publications trace = [] ∧
    (result = .returned false failure.error ∨ result = .inQuarantine failure.error) ∧
    (store.after trace).latest = store.latest ∧
    (store.after trace).nextGeneration = store.nextGeneration

end Uhf.Acquisition
