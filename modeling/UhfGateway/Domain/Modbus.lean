/-
Modbus basics shared by the poller and the servers (`domain/modbus`).

* `modbusCrc16` — the CRC of the serial line;
* `pd1000RequestPlan` — the 31 read requests of one polling cycle;
* `blockOffset_tiles` — the blocks of the plan cover the register image without gap
  or overlap;
* `wireFrame_injective` — no two of them are asked for by the same frame.
-/
import UhfGateway.Domain.Bytes

namespace Uhf.Domain

/-- One bit of `modbus_crc16`. -/
def crcBit (crc : UInt16) : UInt16 :=
  if crc &&& 1 ≠ 0 then (crc >>> 1) ^^^ 0xA001 else crc >>> 1

/-- One byte of `modbus_crc16`. -/
def crcByte (crc : UInt16) (byte : UInt8) : UInt16 :=
  Nat.repeat crcBit 8 (crc ^^^ byte.toUInt16)

def modbusCrc16 (data : Bytes) : UInt16 := data.foldl crcByte 0xFFFF

/-- The CRC as it goes over the line, low byte first. -/
def crcBytes (data : Bytes) : Bytes := [lowByte (modbusCrc16 data), highByte (modbusCrc16 data)]

/-- `append_crc`. -/
def withCrc (data : Bytes) : Bytes := data ++ crcBytes data

/-- The CRC in the last two bytes of a frame. -/
def receivedCrc (frame : Bytes) : UInt16 :=
  (frame.getD (frame.length - 2) 0).toUInt16 |||
    (frame.getD (frame.length - 1) 0).toUInt16 <<< 8

/-- The frame ends in the CRC of what stands before it. -/
def CrcMatches (frame : Bytes) : Prop :=
  modbusCrc16 (frame.take (frame.length - 2)) = receivedCrc frame

instance (frame : Bytes) : Decidable (CrcMatches frame) := inferInstanceAs (Decidable (_ = _))

theorem length_withCrc (data : Bytes) : (withCrc data).length = data.length + 2 := by
  rw [withCrc, List.length_append]
  rfl

theorem crcMatches_withCrc (data : Bytes) : CrcMatches (withCrc data) := by
  have hlow : (withCrc data).getD data.length 0 = lowByte (modbusCrc16 data) := by
    simp [withCrc, crcBytes]
  have hhigh : (withCrc data).getD (data.length + 1) 0 = highByte (modbusCrc16 data) := by
    simp [withCrc, crcBytes]
  rw [CrcMatches, receivedCrc, length_withCrc]
  rw [show data.length + 2 - 2 = data.length by omega,
    show data.length + 2 - 1 = data.length + 1 by omega, hlow, hhigh]
  rw [UInt16.or_comm, ← bigEndian, bigEndian_bytes, withCrc, List.take_left]

def kPd1000RequestCount : Nat := 31
def kReadInputRegistersFunction : UInt8 := 0x04
def kPd1000FirstAddress : UInt16 := 10001
def kPd1000LastAddress : UInt16 := 13615

structure ModbusReadRequest where
  slaveId : UInt8
  function : UInt8
  startAddress : UInt16
  registerCount : UInt16
  wireFrame : Bytes
  deriving DecidableEq, Repr

/-- Entry `index` of the plan. -/
def plannedRequest (slaveId : UInt8) (index : Nat) : ModbusReadRequest :=
  let startAddress : UInt16 :=
    if index = 0 then kPd1000FirstAddress else UInt16.ofNat (10016 + (index - 1) * 120)
  let registerCount : UInt16 := if index = 0 then 15 else 120
  { slaveId := slaveId
    function := kReadInputRegistersFunction
    startAddress := startAddress
    registerCount := registerCount
    wireFrame := withCrc [slaveId, kReadInputRegistersFunction, highByte startAddress,
      lowByte startAddress, highByte registerCount, lowByte registerCount] }

def pd1000RequestPlan (slaveId : UInt8) : List ModbusReadRequest :=
  (List.range kPd1000RequestCount).map (plannedRequest slaveId)

/-! ### The plan covers the address range -/

/-- Where block `index` begins in the register image. -/
def blockOffset (index : Nat) : Nat := if index = 0 then 0 else 15 + (index - 1) * 120

/-- How many registers block `index` has. -/
def blockSize (index : Nat) : Nat := if index = 0 then 15 else 120

theorem plannedRequest_start (slaveId : UInt8) {index : Nat} (h : index < kPd1000RequestCount) :
    (plannedRequest slaveId index).startAddress.toNat = 10001 + blockOffset index := by
  simp only [kPd1000RequestCount] at h
  simp only [plannedRequest, blockOffset]
  split
  · rfl
  · rw [UInt16.toNat_ofNat']
    omega

theorem plannedRequest_count (slaveId : UInt8) (index : Nat) :
    (plannedRequest slaveId index).registerCount.toNat = blockSize index := by
  simp only [plannedRequest, blockSize]
  split <;> rfl

theorem blockOffset_succ (index : Nat) :
    blockOffset (index + 1) = blockOffset index + blockSize index := by
  simp only [blockOffset, blockSize]
  split <;> split <;> omega

theorem blockSize_le (index : Nat) : blockSize index ≤ 120 := by
  rw [blockSize]
  split <;> omega

theorem blockOffset_add_le {index : Nat} (h : index < kPd1000RequestCount) :
    blockOffset index + blockSize index ≤ 3615 := by
  rw [kPd1000RequestCount] at h
  rw [blockOffset, blockSize]
  split <;> omega

/-- The blocks of the plan tile the image: every register belongs to exactly one. -/
theorem blockOffset_tiles {a : Nat} (h : a < 3615) :
    ∃ index, (index < kPd1000RequestCount ∧ blockOffset index ≤ a ∧
        a < blockOffset index + blockSize index) ∧
      ∀ other, other < kPd1000RequestCount → blockOffset other ≤ a →
        a < blockOffset other + blockSize other → other = index := by
  refine ⟨if a < 15 then 0 else (a - 15) / 120 + 1, ?_, ?_⟩
  · simp only [kPd1000RequestCount, blockOffset, blockSize]
    split
    · simp only [if_true]
      omega
    · rw [if_neg (by omega), if_neg (by omega)]
      omega
  · intro other _ hle hlt
    simp only [blockOffset, blockSize] at hle hlt
    split <;> split at hle <;> simp_all <;> omega

/-- Different blocks are asked for by different frames. -/
theorem wireFrame_injective (slaveId : UInt8) {i j : Nat} (hi : i < kPd1000RequestCount)
    (hj : j < kPd1000RequestCount)
    (h : (plannedRequest slaveId i).wireFrame = (plannedRequest slaveId j).wireFrame) : i = j := by
  have hstart : (plannedRequest slaveId i).startAddress = (plannedRequest slaveId j).startAddress := by
    rw [← bigEndian_bytes (plannedRequest slaveId i).startAddress,
      ← bigEndian_bytes (plannedRequest slaveId j).startAddress]
    have h2 := congrArg (fun frame => frame.getD 2 0) h
    have h3 := congrArg (fun frame => frame.getD 3 0) h
    simp only [plannedRequest, withCrc, List.cons_append, List.getD_cons_succ,
      List.getD_cons_zero] at h2 h3
    simp only [plannedRequest]
    rw [h2, h3]
  have hnat := congrArg UInt16.toNat hstart
  rw [plannedRequest_start slaveId hi, plannedRequest_start slaveId hj] at hnat
  simp only [blockOffset] at hnat
  split at hnat <;> split at hnat <;> omega

end Uhf.Domain
