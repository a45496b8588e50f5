/-
The gateway as a mirror of the device.

* `transparent_mirror` — after a published cycle of a device that answers with its
  registers, both slaves answer every read in range with these registers, whatever
  failures are recorded until the next publication, and no response has words of two
  snapshots.
-/
import UhfGateway.Acquisition.Requests
import UhfGateway.Modbus.Agreement

namespace Uhf.Modbus

open Domain Acquisition Effects

/-! ### One look at the store -/

/-- The words are those of one snapshot, delivered by the only look at the store. -/
def FromOneSnapshot (views : Trace storeCalls) (registers : List UInt16) : Prop :=
  ∃ view snapshot offset count, views = [⟨.servingView, view⟩] ∧ view.snapshot = some snapshot ∧
    registers = registersFrom snapshot offset count

theorem exec_servingView {k : ServingView → Prog storeCalls Bytes} {views : Trace storeCalls}
    {response : Bytes} :
    (servingView k).Exec views response ↔
      ∃ view rest, views = ⟨.servingView, view⟩ :: rest ∧ (k view).Exec rest response :=
  Prog.exec_call

/-- However the store changes while a request is handled: the serial server answers
nothing, an exception, or words of one snapshot. -/
theorem ModbusRtuServer.one_snapshot (server : ModbusRtuServer) {request response : Bytes}
    {views : Trace storeCalls} (h : (server.handleRequest request).Exec views response) :
    response = [] ∨ (∃ function exception,
        response = exceptionResponse server.unitId function exception) ∨
      ∃ registers, FromOneSnapshot views registers ∧
        response = readResponse server.unitId kReadInputRegisters registers := by
  rw [handleRequest] at h
  split at h
  · exact .inl (Prog.exec_done.mp h).2
  split at h
  · exact .inl (Prog.exec_done.mp h).2
  split at h
  · exact .inr (.inl ⟨_, _, (Prog.exec_done.mp h).2⟩)
  simp only at h
  split at h
  · exact .inr (.inl ⟨_, _, (Prog.exec_done.mp h).2⟩)
  next hread =>
  split at h
  · exact .inr (.inl ⟨_, _, (Prog.exec_done.mp h).2⟩)
  split at h
  · exact .inr (.inl ⟨_, _, (Prog.exec_done.mp h).2⟩)
  -- the only look at the store: every register comes from this view
  obtain ⟨⟨snapshot, status⟩, rest, rfl, hview⟩ := exec_servingView.mp h
  cases snapshot with
  | none => exact .inr (.inl ⟨_, _, (Prog.exec_done.mp hview).2⟩)
  | some snapshot =>
    obtain ⟨rfl, rfl⟩ := Prog.exec_done.mp hview
    rw [not_not.mp hread]
    exact .inr (.inr ⟨_, ⟨_, snapshot, _, _, rfl, rfl, rfl⟩, rfl⟩)

/-- So does the TCP server. -/
theorem ModbusTcpServer.one_snapshot (server : ModbusTcpServer) {request response : Bytes}
    {views : Trace storeCalls} (h : (server.handleRequest request).Exec views response) :
    response = [] ∨ (∃ function exception,
        response = exceptionResponse request function exception) ∨
      ∃ registers, FromOneSnapshot views registers ∧
        response = readResponse request server.unitId kReadInputRegisters registers := by
  rw [handleRequest] at h
  split at h
  · exact .inl (Prog.exec_done.mp h).2
  simp only at h
  split at h
  · exact .inr (.inl ⟨_, _, (Prog.exec_done.mp h).2⟩)
  -- a foreign unit id is answered with an exception here, the RTU server stays silent
  next hunit =>
  split at h
  · exact .inr (.inl ⟨_, _, (Prog.exec_done.mp h).2⟩)
  next hread =>
  split at h
  · exact .inr (.inl ⟨_, _, (Prog.exec_done.mp h).2⟩)
  split at h
  · exact .inr (.inl ⟨_, _, (Prog.exec_done.mp h).2⟩)
  split at h
  · exact .inr (.inl ⟨_, _, (Prog.exec_done.mp h).2⟩)
  obtain ⟨⟨snapshot, status⟩, rest, rfl, hview⟩ := exec_servingView.mp h
  cases snapshot with
  | none => exact .inr (.inl ⟨_, _, (Prog.exec_done.mp hview).2⟩)
  | some snapshot =>
    obtain ⟨rfl, rfl⟩ := Prog.exec_done.mp hview
    rw [not_not.mp hread, not_not.mp hunit]
    exact .inr (.inr ⟨_, ⟨_, snapshot, _, _, rfl, rfl, rfl⟩, rfl⟩)

/-! ### Reads in range -/

/-- The PDU of a read request. -/
def readRequest (start count : UInt16) : Bytes :=
  [kReadInputRegisters, highByte start, lowByte start, highByte count, lowByte count]

/-- The registers of a device from address `start` on. -/
def registersAt (image : Registers) (start count : UInt16) : List UInt16 :=
  (image.toList.drop (start.toNat - 10001)).take count.toNat

theorem registersFrom_eq {snapshot : PublishedSnapshot} {offset count : ℕ}
    (h : offset + count ≤ kPd1000RegisterCount) :
    registersFrom snapshot offset count =
      (snapshot.payload.rawRegisters.toList.drop offset).take count := by
  have hlen : snapshot.payload.rawRegisters.toList.length = kPd1000RegisterCount :=
    Vector.length_toList
  refine List.ext_getElem ?_ fun i hi hi' => ?_
  · rw [length_registersFrom, List.length_take, List.length_drop, hlen]
    omega
  · rw [length_registersFrom] at hi
    simp only [registersFrom, List.getElem_map, List.getElem_range, List.getElem_take,
      List.getElem_drop]
    rw [List.getD_eq_getElem]

theorem respond_servingView (store : SnapshotStore) (k : ServingView → Prog storeCalls Bytes) :
    respond store (servingView k) = respond store (k store.servingView) := rfl

theorem respond_answerRead {store : SnapshotStore} {snapshot : PublishedSnapshot}
    (hlatest : store.latest = some snapshot) {start count : UInt16} (hfirst : 10001 ≤ start.toNat)
    (hpos : 1 ≤ count.toNat) (hmax : count.toNat ≤ 125)
    (hlast : start.toNat + count.toNat - 1 ≤ 13615) :
    respond store (answerRead (readRequest start count)) =
      readPdu kReadInputRegisters (registersAt snapshot.payload.rawRegisters start count) := by
  have hstart : readU16 (readRequest start count) 1 = start := bigEndian_bytes start
  have hcount : readU16 (readRequest start count) 3 = count := bigEndian_bytes count
  have hbase : kPd1000FirstAddress.toNat = 10001 := rfl
  have hend : kPd1000LastAddress.toNat = 13615 := rfl
  simp only [answerRead, hstart, hcount]
  rw [if_neg (by
    rw [not_or]
    refine ⟨fun hzero => ?_, fun hbig => ?_⟩
    · rw [hzero] at hpos
      exact absurd hpos (by decide)
    · have := UInt16.lt_iff_toNat_lt.mp hbig
      rw [show (125 : UInt16).toNat = 125 from rfl] at this
      omega), if_neg (by
    rw [not_or]
    refine ⟨fun hlow => ?_, by omega⟩
    have := UInt16.lt_iff_toNat_lt.mp hlow
    omega)]
  -- count and range pass, what is left is the read itself
  have hview : store.servingView.snapshot = some snapshot := hlatest
  have hcovered : start.toNat - kPd1000FirstAddress.toNat + count.toNat ≤ kPd1000RegisterCount := by
    rw [kPd1000RegisterCount]
    omega
  simp only [respond_servingView, hview]
  rw [respond_done, registersFrom_eq hcovered, hbase]
  rfl

/-! ### The mirror -/

/-- The response of the serial server with these registers: unit, function, byte count,
words and CRC. -/
def rtuMirror (unitId : UInt8) (registers : List UInt16) : Bytes :=
  withCrc ([unitId, 0x04, UInt8.ofNat (2 * registers.length)] ++ wordBytes registers)

/-- The response of the TCP server: transaction, protocol, length, unit, function, byte
count and words. -/
def tcpMirror (transaction : UInt16) (unitId : UInt8) (registers : List UInt16) : Bytes :=
  [highByte transaction, lowByte transaction, 0, 0,
    highByte (UInt16.ofNat (3 + 2 * registers.length)),
    lowByte (UInt16.ofNat (3 + 2 * registers.length)), unitId, 0x04,
    UInt8.ofNat (2 * registers.length)] ++ wordBytes registers

theorem rtuFrame_readPdu (unitId : UInt8) (registers : List UInt16) :
    rtuFrame unitId (readPdu kReadInputRegisters registers) = rtuMirror unitId registers := by
  rw [rtuMirror, Nat.mul_comm]
  rfl

theorem mbapFrame_readPdu (transaction : UInt16) (unitId : UInt8) (registers : List UInt16) :
    mbapFrame transaction unitId (readPdu kReadInputRegisters registers) =
      tcpMirror transaction unitId registers := by
  have hlength : (readPdu kReadInputRegisters registers).length + 1 = 3 + 2 * registers.length := by
    rw [readPdu, List.length_cons, List.length_cons, length_wordBytes]
    omega
  rw [mbapFrame, hlength, readPdu, Nat.mul_comm registers.length 2]
  rfl

theorem length_registersAt {image : Registers} {start count : UInt16}
    (hfirst : 10001 ≤ start.toNat)
    (hlast : start.toNat + count.toNat - 1 ≤ 13615) :
    (registersAt image start count).length = count.toNat := by
  rw [registersAt, List.length_take, List.length_drop, Vector.length_toList, kPd1000RegisterCount]
  omega

/-- After a published cycle of a device that answers with its registers, both servers
mirror them until the next publication; and whatever happens to the store, a response
has words of one snapshot only. -/
theorem transparent_mirror {options : AcquisitionOptions} {fuel : ℕ} {trace : Trace pollCalls}
    {image : Registers} (h : (pollOnce options fuel).Exec trace (.returned true []))
    (hdevice : DeviceAnswers options image trace) (store : SnapshotStore)
    (rtu : ModbusRtuServer) (tcp : ModbusTcpServer) (transaction : UInt16) :
    (∀ failures, ∀ start count : UInt16, 10001 ≤ start.toNat → 1 ≤ count.toNat →
      count.toNat ≤ 125 → start.toNat + count.toNat - 1 ≤ 13615 →
        (registersAt image start count).length = count.toNat ∧
        respond ((store.after trace).recordFailures failures)
            (rtu.handleRequest (rtuFrame rtu.unitId (readRequest start count))) =
          rtuMirror rtu.unitId (registersAt image start count) ∧
        respond ((store.after trace).recordFailures failures)
            (tcp.handleRequest (mbapFrame transaction tcp.unitId (readRequest start count))) =
          tcpMirror transaction tcp.unitId (registersAt image start count)) ∧
    (∀ request views response, (rtu.handleRequest request).Exec views response →
      response = [] ∨ (∃ function exception,
          response = ModbusRtuServer.exceptionResponse rtu.unitId function exception) ∨
        ∃ registers, FromOneSnapshot views registers ∧
          response = ModbusRtuServer.readResponse rtu.unitId kReadInputRegisters registers) ∧
    (∀ request views response, (tcp.handleRequest request).Exec views response →
      response = [] ∨ (∃ function exception,
          response = ModbusTcpServer.exceptionResponse request function exception) ∨
        ∃ registers, FromOneSnapshot views registers ∧
          response = ModbusTcpServer.readResponse request tcp.unitId kReadInputRegisters
            registers) := by
  refine ⟨?_, fun request views response => rtu.one_snapshot,
    fun request views response => tcp.one_snapshot⟩
  intro failures start count hfirst hpos hmax hlast
  obtain ⟨startedAt, completedAt, responses, hpublishing, _, _⟩ | ⟨failure, ended, _, hresult⟩ :=
    pollOnce_cases h
  · have himage := hpublishing.image_eq hdevice
    -- the failures recorded since leave the published snapshot in place
    obtain ⟨snapshot, hlatest, hraw⟩ : ∃ snapshot,
        ((store.after trace).recordFailures failures).latest = some snapshot ∧
          snapshot.payload.rawRegisters = image := by
      rw [SnapshotStore.recordFailures_latest, (hpublishing.effects store).2.2, himage]
      exact ⟨_, rfl, rfl⟩
    have hanswer := respond_answerRead hlatest hfirst hpos hmax hlast
    rw [hraw] at hanswer
    have hframe := rtu.maxFrameBytes_le
    have hsize : (readRequest start count).length = 5 := rfl
    have hread : (readRequest start count).getD 0 0 = kReadInputRegisters := rfl
    refine ⟨length_registersAt hfirst hlast, ?_, ?_⟩
    · rw [rtu.handleRequest_frame (by omega) (by omega), if_neg (not_not.mpr hsize),
        if_neg (not_not.mpr hread), respond_framed, hanswer, rtuFrame_readPdu]
    · rw [tcp.handleRequest_frame transaction (by omega) (by omega), if_neg (not_not.mpr hread),
        if_neg (not_not.mpr hsize), respond_framed, hanswer, mbapFrame_readPdu]
  · rw [afterQuarantine] at hresult
    split at hresult <;> cases hresult

/-- A device whose registers are all `0x1234`, and a read of its last five. -/
theorem transparent_mirror_constant :
    ∃ trace, (pollOnce {} 0).Exec trace (.returned true []) ∧
      respond (({} : SnapshotStore).after trace)
          (({} : ModbusRtuServer).handleRequest (rtuFrame 1 (readRequest 13611 5))) =
        rtuMirror 1 (registersAt (Vector.replicate _ 0x1234) 13611 5) := by
  obtain ⟨trace, hexec, _, hdevice⟩ := exists_cooperative_cycle (Vector.replicate _ 0x1234) 0
  have hmirror := transparent_mirror hexec hdevice {} {} {} 0
  exact ⟨trace, hexec, (hmirror.1 [] 13611 5 (by decide) (by decide) (by decide)
    (by decide)).2.1⟩

end Uhf.Modbus
