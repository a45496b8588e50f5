/-
The two slaves compared.

* `rtu_tcp_agree_iff` — for a request to their common unit, they give the same response
  PDU exactly if it has the size of a read request or asks for a read.
-/
import UhfGateway.Modbus.Servers

namespace Uhf.Modbus

open Domain Acquisition Effects

theorem respond_done (store : SnapshotStore) (bytes : Bytes) :
    respond store (.done bytes) = bytes := rfl

/-- What a server frames is what it would answer without framing. -/
theorem respond_framed (store : SnapshotStore) (handler : Prog storeCalls Bytes)
    (frame : Bytes → Bytes) :
    respond store (handler >>= fun answer => .done (frame answer)) =
      frame (respond store handler) := by
  rw [respond, Prog.evalIn_bind]
  rfl

/-- The response PDU of the serial server. -/
theorem ModbusRtuServer.responsePdu (server : ModbusRtuServer) (store : SnapshotStore) {pdu : Bytes}
    (hmin : 5 ≤ pdu.length) (hmax : pdu.length + 3 ≤ server.maxFrameBytes) :
    rtuPdu (respond store (server.handleRequest (rtuFrame server.unitId pdu))) =
      if pdu.length ≠ 5 then exceptionPdu (pdu.getD 0 0) kIllegalDataValue
      else if pdu.getD 0 0 ≠ kReadInputRegisters then exceptionPdu (pdu.getD 0 0) kIllegalFunction
      else respond store (answerRead pdu) := by
  rw [server.handleRequest_frame hmin hmax]
  split
  · rw [respond_done, rtuPdu_rtuFrame]
  · split
    · rw [respond_done, rtuPdu_rtuFrame]
    · rw [respond_framed, rtuPdu_rtuFrame]

/-- The response PDU of the TCP server. -/
theorem ModbusTcpServer.responsePdu (server : ModbusTcpServer) (transaction : UInt16)
    (store : SnapshotStore) {pdu : Bytes} (hmin : 5 ≤ pdu.length) (hmax : pdu.length ≤ 252) :
    mbapPdu (respond store (server.handleRequest (mbapFrame transaction server.unitId pdu))) =
      if pdu.getD 0 0 ≠ kReadInputRegisters then exceptionPdu (pdu.getD 0 0) kIllegalFunction
      else if pdu.length ≠ 5 then exceptionPdu (pdu.getD 0 0) kIllegalDataValue
      else respond store (answerRead pdu) := by
  rw [server.handleRequest_frame transaction hmin hmax]
  split
  · rw [respond_done, mbapPdu_mbapFrame]
  · split
    · rw [respond_done, mbapPdu_mbapFrame]
    · rw [respond_framed, mbapPdu_mbapFrame]

/-- The servers agree on a PDU exactly if it is five bytes long or its function is a
read: for any other function the serial server complains of the size first. -/
theorem rtu_tcp_agree_iff (rtu : ModbusRtuServer) (tcp : ModbusTcpServer)
    (hunit : rtu.unitId = tcp.unitId) (transaction : UInt16) (store : SnapshotStore) (pdu : Bytes)
    (hmin : 5 ≤ pdu.length) (hmax : pdu.length ≤ 252)
    (hframe : (rtuFrame rtu.unitId pdu).length ≤ rtu.maxFrameBytes) :
    rtuPdu (respond store (rtu.handleRequest (rtuFrame rtu.unitId pdu))) =
        mbapPdu (respond store (tcp.handleRequest (mbapFrame transaction rtu.unitId pdu))) ↔
      pdu.length = 5 ∨ pdu.getD 0 0 = kReadInputRegisters := by
  rw [length_rtuFrame] at hframe
  rw [rtu.responsePdu store hmin hframe, hunit, tcp.responsePdu transaction store hmin hmax]
  by_cases hsize : pdu.length = 5
  · rw [if_neg (not_not.mpr hsize), if_neg (not_not.mpr hsize)]
    exact ⟨fun _ => .inl hsize, fun _ => rfl⟩
  · rw [if_pos hsize, if_pos hsize]
    by_cases hread : pdu.getD 0 0 = kReadInputRegisters
    · rw [if_neg (not_not.mpr hread)]
      exact ⟨fun _ => .inr hread, fun _ => rfl⟩
    · rw [if_pos hread]
      constructor
      · -- the exception codes differ
        intro heq
        rw [exceptionPdu, exceptionPdu] at heq
        obtain ⟨_, htail⟩ := List.cons.inj heq
        exact absurd (List.cons.inj htail).1 (by decide)
      · intro heither
        exact absurd heither (not_or.mpr ⟨hsize, hread⟩)

/-- A read of the first register, and a read with a surplus byte. -/
theorem rtu_tcp_agree_reads :
    (rtuPdu (respond {} (({} : ModbusRtuServer).handleRequest
        (rtuFrame 1 [0x04, 0x27, 0x11, 0, 1]))) =
      mbapPdu (respond {} (({} : ModbusTcpServer).handleRequest
        (mbapFrame 7 1 [0x04, 0x27, 0x11, 0, 1])))) ∧
    (rtuPdu (respond {} (({} : ModbusRtuServer).handleRequest
        (rtuFrame 1 [0x04, 0x27, 0x11, 0, 1, 0]))) =
      mbapPdu (respond {} (({} : ModbusTcpServer).handleRequest
        (mbapFrame 7 1 [0x04, 0x27, 0x11, 0, 1, 0])))) :=
  ⟨(rtu_tcp_agree_iff {} {} rfl 7 {} [0x04, 0x27, 0x11, 0, 1] (by decide) (by decide)
      (by rw [length_rtuFrame]; decide)).mpr (.inl rfl),
    (rtu_tcp_agree_iff {} {} rfl 7 {} [0x04, 0x27, 0x11, 0, 1, 0] (by decide) (by decide)
      (by rw [length_rtuFrame]; decide)).mpr (.inr rfl)⟩

/-- A write of one register with function 16: illegal data value on the serial line,
illegal function over TCP. -/
theorem rtu_tcp_disagree_on_write :
    rtuPdu (respond {} (({} : ModbusRtuServer).handleRequest
        (rtuFrame 1 [0x10, 0x27, 0x11, 0, 1, 2, 0, 0]))) = [0x90, 0x03] ∧
      mbapPdu (respond {} (({} : ModbusTcpServer).handleRequest
        (mbapFrame 7 1 [0x10, 0x27, 0x11, 0, 1, 2, 0, 0]))) = [0x90, 0x01] ∧
      ([0x90, 0x03] : Bytes) ≠ [0x90, 0x01] := by
  refine ⟨?_, ?_, by decide⟩
  · have hpdu := ModbusRtuServer.responsePdu {} {}
      (show 5 ≤ ([0x10, 0x27, 0x11, 0, 1, 2, 0, 0] : Bytes).length by decide) (by decide)
    rw [if_pos (by decide)] at hpdu
    exact hpdu
  · have hpdu := ModbusTcpServer.responsePdu {} 7 {}
      (show 5 ≤ ([0x10, 0x27, 0x11, 0, 1, 2, 0, 0] : Bytes).length by decide) (by decide)
    rw [if_pos (by decide)] at hpdu
    exact hpdu

end Uhf.Modbus
