/-
The Modbus slaves (`modbus/rtu_server`, `modbus/tcp_server`).

`handleRequest` of each server maps a frame to the bytes sent back, none if the
frame is not answered.  It looks at the snapshot store through `serving_view`, so it
is a program over that call: the store may change between two looks, not during one.

* `ModbusRtuServer.handleRequest_frame`, `ModbusTcpServer.handleRequest_frame` — what a
  well-framed request for the server's own unit comes to.
-/
import Mathlib.Data.List.GetD
import UhfGateway.Acquisition.SnapshotStore
import UhfGateway.Effects.Trace

namespace Uhf.Modbus

open Domain Acquisition Effects

inductive StoreCall
  | servingView
  deriving DecidableEq

@[reducible] def storeCalls : Interface where
  Op := StoreCall
  Answer _ := ServingView

def servingView (k : ServingView → Prog storeCalls Bytes) : Prog storeCalls Bytes :=
  .call (I := storeCalls) .servingView k

/-- The surroundings in which the store stays as it is. -/
def unchanged : Env storeCalls SnapshotStore where
  answer store _ := (store.servingView, store)

/-- What a handler answers while the store is in this state. -/
def respond (store : SnapshotStore) (handler : Prog storeCalls Bytes) : Bytes :=
  (handler.evalIn unchanged store).1

def kReadInputRegisters : UInt8 := 0x04
def kIllegalFunction : UInt8 := 0x01
def kIllegalDataAddress : UInt8 := 0x02
def kIllegalDataValue : UInt8 := 0x03
def kServerDeviceFailure : UInt8 := 0x04
def kGatewayTargetFailed : UInt8 := 0x0B

/-- `read_u16` at a place of a frame. -/
def readU16 (bytes : Bytes) (index : ℕ) : UInt16 :=
  bigEndian (bytes.getD index 0) (bytes.getD (index + 1) 0)

/-- The registers of a snapshot from `offset` on. -/
def registersFrom (snapshot : PublishedSnapshot) (offset count : ℕ) : List UInt16 :=
  (List.range count).map fun index => snapshot.payload.rawRegisters.toList.getD (offset + index) 0

/-! ### RTU -/

/-- The server with options its constructor accepts. -/
structure ModbusRtuServer where
  unitId : UInt8 := 1
  maxFrameBytes : ℕ := 512
  unitId_ne : unitId ≠ 0 := by decide
  unitId_le : unitId ≤ 247 := by decide
  maxFrameBytes_le : 8 ≤ maxFrameBytes := by decide

def kReadRequestBytes : ℕ := 8

namespace ModbusRtuServer

def exceptionResponse (unitId function exception : UInt8) : Bytes :=
  withCrc [unitId, function ||| 0x80, exception]

/-- A response with the given registers. -/
def readResponse (unitId function : UInt8) (registers : List UInt16) : Bytes :=
  withCrc (unitId :: function :: UInt8.ofNat (registers.length * 2) :: wordBytes registers)

def handleRequest (server : ModbusRtuServer) (request : Bytes) : Prog storeCalls Bytes :=
  if request.length < kReadRequestBytes ∨ server.maxFrameBytes < request.length ∨
      ¬ CrcMatches request then .done []
  else if request.getD 0 0 ≠ server.unitId then .done []
  else if request.length ≠ kReadRequestBytes then
    .done (exceptionResponse server.unitId (request.getD 1 0) kIllegalDataValue)
  else
    let function := request.getD 1 0
    if function ≠ kReadInputRegisters then
      .done (exceptionResponse server.unitId function kIllegalFunction)
    else
      let startAddress := readU16 request 2
      let registerCount := readU16 request 4
      if registerCount = 0 ∨ 125 < registerCount then
        .done (exceptionResponse server.unitId function kIllegalDataValue)
      else if startAddress < kPd1000FirstAddress ∨
          kPd1000LastAddress.toNat < startAddress.toNat + registerCount.toNat - 1 then
        .done (exceptionResponse server.unitId function kIllegalDataAddress)
      else
        servingView fun view =>
          match view.snapshot with
          | none => .done (exceptionResponse server.unitId function kServerDeviceFailure)
          | some snapshot =>
            .done (readResponse server.unitId function (registersFrom snapshot
              (startAddress.toNat - kPd1000FirstAddress.toNat) registerCount.toNat))

end ModbusRtuServer

/-! ### TCP -/

/-- The server with options its constructor and `update_options` accept. -/
structure ModbusTcpServer where
  unitId : UInt8 := 1
  unitId_ne : unitId ≠ 0 := by decide
  unitId_le : unitId ≤ 247 := by decide

def kMbapHeaderBytes : ℕ := 6
def kMaximumPduLength : ℕ := 253
def kMaximumAduBytes : ℕ := kMbapHeaderBytes + kMaximumPduLength

namespace ModbusTcpServer

/-- The MBAP header of a response: the transaction of the request, the protocol and the
length. -/
def responseHeader (request : Bytes) (length : UInt16) : Bytes :=
  [request.getD 0 0, request.getD 1 0, 0, 0, highByte length, lowByte length]

def exceptionResponse (request : Bytes) (function exception : UInt8) : Bytes :=
  responseHeader request 3 ++ [request.getD 6 0, function ||| 0x80, exception]

/-- A response with the given registers. -/
def readResponse (request : Bytes) (unitId function : UInt8) (registers : List UInt16) : Bytes :=
  responseHeader request (UInt16.ofNat (3 + registers.length * 2)) ++
    unitId :: function :: UInt8.ofNat (registers.length * 2) :: wordBytes registers

def handleRequest (server : ModbusTcpServer) (request : Bytes) : Prog storeCalls Bytes :=
  if request.length < kMbapHeaderBytes + 6 ∨ kMaximumAduBytes < request.length ∨
      readU16 request 2 ≠ 0 ∨ (readU16 request 4).toNat + kMbapHeaderBytes ≠ request.length then
    .done []
  else
    let unitId := request.getD 6 0
    let function := request.getD 7 0
    if unitId ≠ server.unitId then
      .done (exceptionResponse request function kGatewayTargetFailed)
    else if function ≠ kReadInputRegisters then
      .done (exceptionResponse request function kIllegalFunction)
    else if request.length ≠ kMbapHeaderBytes + 6 then
      .done (exceptionResponse request function kIllegalDataValue)
    else
      let startAddress := readU16 request 8
      let registerCount := readU16 request 10
      if registerCount = 0 ∨ 125 < registerCount then
        .done (exceptionResponse request function kIllegalDataValue)
      else if startAddress < kPd1000FirstAddress ∨
          kPd1000LastAddress.toNat < startAddress.toNat + registerCount.toNat - 1 then
        .done (exceptionResponse request function kIllegalDataAddress)
      else
        servingView fun view =>
          match view.snapshot with
          | none => .done (exceptionResponse request function kServerDeviceFailure)
          | some snapshot =>
            .done (readResponse request unitId function (registersFrom snapshot
              (startAddress.toNat - kPd1000FirstAddress.toNat) registerCount.toNat))

end ModbusTcpServer

/-! ### Framing -/

/-- A PDU framed for the serial line. -/
def rtuFrame (unitId : UInt8) (pdu : Bytes) : Bytes := withCrc (unitId :: pdu)

/-- A PDU framed for TCP. -/
def mbapFrame (transaction : UInt16) (unitId : UInt8) (pdu : Bytes) : Bytes :=
  [highByte transaction, lowByte transaction, 0, 0, highByte (UInt16.ofNat (pdu.length + 1)),
    lowByte (UInt16.ofNat (pdu.length + 1)), unitId] ++ pdu

/-- The PDU of a serial frame: without the unit in front and the CRC at the end. -/
def rtuPdu (frame : Bytes) : Bytes := (frame.drop 1).take (frame.length - 3)

/-- The PDU of a TCP frame: without header and unit. -/
def mbapPdu (frame : Bytes) : Bytes := frame.drop 7

/-- The PDU of an exception. -/
def exceptionPdu (function exception : UInt8) : Bytes := [function ||| 0x80, exception]

/-- The PDU of a response with the given registers. -/
def readPdu (function : UInt8) (registers : List UInt16) : Bytes :=
  function :: UInt8.ofNat (registers.length * 2) :: wordBytes registers

/-- What a read of input registers comes to: a PDU of a response or an exception. -/
def answerRead (pdu : Bytes) : Prog storeCalls Bytes :=
  let startAddress := readU16 pdu 1
  let registerCount := readU16 pdu 3
  if registerCount = 0 ∨ 125 < registerCount then
    .done (exceptionPdu kReadInputRegisters kIllegalDataValue)
  else if startAddress < kPd1000FirstAddress ∨
      kPd1000LastAddress.toNat < startAddress.toNat + registerCount.toNat - 1 then
    .done (exceptionPdu kReadInputRegisters kIllegalDataAddress)
  else
    servingView fun view =>
      match view.snapshot with
      | none => .done (exceptionPdu kReadInputRegisters kServerDeviceFailure)
      | some snapshot =>
        .done (readPdu kReadInputRegisters (registersFrom snapshot
          (startAddress.toNat - kPd1000FirstAddress.toNat) registerCount.toNat))

theorem length_rtuFrame (unitId : UInt8) (pdu : Bytes) :
    (rtuFrame unitId pdu).length = pdu.length + 3 := by
  rw [rtuFrame, length_withCrc, List.length_cons]

theorem getD_rtuFrame (unitId : UInt8) {pdu : Bytes} {i : ℕ} (hi : i < pdu.length) :
    (rtuFrame unitId pdu).getD (i + 1) 0 = pdu.getD i 0 := by
  rw [rtuFrame, withCrc, List.cons_append, List.getD_cons_succ, List.getD_append _ _ _ _ hi]

theorem readU16_rtuFrame (unitId : UInt8) {pdu : Bytes} {i : ℕ} (hi : i + 1 < pdu.length) :
    readU16 (rtuFrame unitId pdu) (i + 1) = readU16 pdu i := by
  rw [readU16, readU16, getD_rtuFrame unitId hi, getD_rtuFrame unitId (by omega)]

theorem rtuPdu_rtuFrame (unitId : UInt8) (pdu : Bytes) : rtuPdu (rtuFrame unitId pdu) = pdu := by
  rw [rtuPdu, length_rtuFrame, Nat.add_sub_cancel, rtuFrame, withCrc, List.cons_append,
    List.drop_one, List.tail_cons, List.take_left]

theorem length_mbapFrame (transaction : UInt16) (unitId : UInt8) (pdu : Bytes) :
    (mbapFrame transaction unitId pdu).length = pdu.length + 7 := by
  rw [mbapFrame, List.length_append, Nat.add_comm]
  rfl

theorem readU16_mbapFrame (transaction : UInt16) (unitId : UInt8) (pdu : Bytes) (i : ℕ) :
    readU16 (mbapFrame transaction unitId pdu) (i + 7) = readU16 pdu i := rfl

theorem mbapPdu_mbapFrame (transaction : UInt16) (unitId : UInt8) (pdu : Bytes) :
    mbapPdu (mbapFrame transaction unitId pdu) = pdu := rfl

theorem length_registersFrom (snapshot : PublishedSnapshot) (offset count : ℕ) :
    (registersFrom snapshot offset count).length = count := by
  rw [registersFrom, List.length_map, List.length_range]

/-! ### Well-framed requests -/

/-- An answer put into a frame. -/
theorem answerRead_framed (pdu : Bytes) (frame : Bytes → Bytes) :
    (answerRead pdu >>= fun answer => .done (frame answer)) =
      if readU16 pdu 3 = 0 ∨ 125 < readU16 pdu 3 then
        .done (frame (exceptionPdu kReadInputRegisters kIllegalDataValue))
      else if readU16 pdu 1 < kPd1000FirstAddress ∨
          kPd1000LastAddress.toNat < (readU16 pdu 1).toNat + (readU16 pdu 3).toNat - 1 then
        .done (frame (exceptionPdu kReadInputRegisters kIllegalDataAddress))
      else
        servingView fun view =>
          match view.snapshot with
          | none => .done (frame (exceptionPdu kReadInputRegisters kServerDeviceFailure))
          | some snapshot =>
            .done (frame (readPdu kReadInputRegisters (registersFrom snapshot
              ((readU16 pdu 1).toNat - kPd1000FirstAddress.toNat) (readU16 pdu 3).toNat))) := by
  rw [answerRead]
  split
  · rfl
  · split
    · rfl
    · refine congrArg servingView (funext fun view => ?_)
      obtain ⟨snapshot, status⟩ := view
      cases snapshot <;> rfl

/-- The serial server looks at the size of a request before its function. -/
theorem ModbusRtuServer.handleRequest_frame (server : ModbusRtuServer) {pdu : Bytes}
    (hmin : 5 ≤ pdu.length) (hmax : pdu.length + 3 ≤ server.maxFrameBytes) :
    server.handleRequest (rtuFrame server.unitId pdu) =
      if pdu.length ≠ 5 then
        .done (rtuFrame server.unitId (exceptionPdu (pdu.getD 0 0) kIllegalDataValue))
      else if pdu.getD 0 0 ≠ kReadInputRegisters then
        .done (rtuFrame server.unitId (exceptionPdu (pdu.getD 0 0) kIllegalFunction))
      else answerRead pdu >>= fun answer => .done (rtuFrame server.unitId answer) := by
  have hlength := length_rtuFrame server.unitId pdu
  have hcrc : CrcMatches (rtuFrame server.unitId pdu) := crcMatches_withCrc _
  have hunit : (rtuFrame server.unitId pdu).getD 0 0 = server.unitId := rfl
  have hfunction : (rtuFrame server.unitId pdu).getD 1 0 = pdu.getD 0 0 :=
    getD_rtuFrame server.unitId (by omega)
  have hstart : readU16 (rtuFrame server.unitId pdu) 2 = readU16 pdu 1 :=
    readU16_rtuFrame server.unitId (by omega)
  have hcount : readU16 (rtuFrame server.unitId pdu) 4 = readU16 pdu 3 :=
    readU16_rtuFrame server.unitId (by omega)
  simp only [handleRequest, hlength, hunit, hfunction, hstart, hcount, kReadRequestBytes]
  rw [if_neg (by
    rw [not_or, not_or, not_not]
    exact ⟨by omega, by omega, hcrc⟩), if_neg (not_not.mpr rfl)]
  by_cases hsize : pdu.length = 5
  · rw [if_neg (by omega), if_neg (not_not.mpr hsize)]
    by_cases hread : pdu.getD 0 0 = kReadInputRegisters
    · rw [if_neg (not_not.mpr hread), if_neg (not_not.mpr hread), hread, answerRead_framed]
      rfl
    · rw [if_pos hread, if_pos hread]
      rfl
  · rw [if_pos (by omega), if_pos hsize]
    rfl

/-- The TCP server looks at the function of a request before its size. -/
theorem ModbusTcpServer.handleRequest_frame (server : ModbusTcpServer) (transaction : UInt16)
    {pdu : Bytes} (hmin : 5 ≤ pdu.length) (hmax : pdu.length ≤ 252) :
    server.handleRequest (mbapFrame transaction server.unitId pdu) =
      if pdu.getD 0 0 ≠ kReadInputRegisters then
        .done (mbapFrame transaction server.unitId (exceptionPdu (pdu.getD 0 0) kIllegalFunction))
      else if pdu.length ≠ 5 then
        .done (mbapFrame transaction server.unitId (exceptionPdu (pdu.getD 0 0) kIllegalDataValue))
      else answerRead pdu >>= fun answer =>
        .done (mbapFrame transaction server.unitId answer) := by
  have hlength := length_mbapFrame transaction server.unitId pdu
  have hprotocol : readU16 (mbapFrame transaction server.unitId pdu) 2 = 0 := by
    show bigEndian 0 0 = 0
    decide
  have hsized : (readU16 (mbapFrame transaction server.unitId pdu) 4).toNat = pdu.length + 1 := by
    show (bigEndian (highByte (UInt16.ofNat (pdu.length + 1)))
      (lowByte (UInt16.ofNat (pdu.length + 1)))).toNat = pdu.length + 1
    -- the length field counts the unit id too and fits in 16 bits
    rw [bigEndian_bytes, UInt16.toNat_ofNat']
    omega
  have hunit : (mbapFrame transaction server.unitId pdu).getD 6 0 = server.unitId := rfl
  have hfunction : (mbapFrame transaction server.unitId pdu).getD 7 0 = pdu.getD 0 0 := rfl
  have hstart := readU16_mbapFrame transaction server.unitId pdu 1
  have hcount := readU16_mbapFrame transaction server.unitId pdu 3
  have hexception : ∀ function exception, exceptionResponse
      (mbapFrame transaction server.unitId pdu) function exception =
        mbapFrame transaction server.unitId (exceptionPdu function exception) := fun _ _ => rfl
  have hresponse : ∀ function registers, readResponse
      (mbapFrame transaction server.unitId pdu) server.unitId function registers =
        mbapFrame transaction server.unitId (readPdu function registers) := by
    intro function registers
    have hpdu : (readPdu function registers).length + 1 = 3 + registers.length * 2 := by
      rw [readPdu, List.length_cons, List.length_cons, length_wordBytes]
      omega
    have hframe : mbapFrame transaction server.unitId (readPdu function registers) =
        [highByte transaction, lowByte transaction, 0, 0,
          highByte (UInt16.ofNat (3 + registers.length * 2)),
          lowByte (UInt16.ofNat (3 + registers.length * 2)), server.unitId] ++
            readPdu function registers := by
      rw [← hpdu]
      rfl
    rw [hframe]
    rfl
  simp only [handleRequest, hlength, hprotocol, hsized, hunit, hfunction, hstart, hcount,
    hexception, hresponse, kMbapHeaderBytes, kMaximumAduBytes, kMaximumPduLength]
  -- the header is well formed, so the request is not dropped
  rw [if_neg (by
    rw [not_or, not_or, not_or]
    exact ⟨by omega, by omega, not_not.mpr rfl, by omega⟩), if_neg (not_not.mpr rfl)]
  by_cases hread : pdu.getD 0 0 = kReadInputRegisters
  · rw [if_neg (not_not.mpr hread), if_neg (not_not.mpr hread)]
    by_cases hsize : pdu.length = 5
    · rw [if_neg (by omega), if_neg (not_not.mpr hsize), hread, answerRead_framed]
    · rw [if_pos (by omega), if_pos hsize]
  · rw [if_pos hread, if_pos hread]

end Uhf.Modbus
