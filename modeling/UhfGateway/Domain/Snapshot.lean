/-
The register image of the PD1000 and its interpretation (`domain/snapshot`).
-/
import UhfGateway.Domain.Modbus

namespace Uhf.Domain

def kPd1000RegisterCount : Nat := 3615
def kPd1000SpectrumOffset : Nat := 15
def kPd1000SpectrumCycles : Nat := 50
def kPd1000SpectrumPhaseBins : Nat := 72
def kPd1000SpectrumPointCount : Nat := kPd1000SpectrumCycles * kPd1000SpectrumPhaseBins
def kInvalidDataMarker : UInt16 := 0xFFBA
def kNotRefreshedMarker : UInt16 := 0xFFBC

/-- The 3615 registers, from address 10001 on. -/
abbrev Registers := Vector UInt16 kPd1000RegisterCount

inductive PayloadStatus
  | good
  | degraded
  | notRefreshed
  deriving DecidableEq, Repr

structure Measurement where
  raw : UInt16
  value : Int
  valid : Bool
  deriving DecidableEq, Repr

structure ParsedSnapshot where
  rawRegisters : Registers
  measurements : Vector Measurement 5
  spectrum : Vector Int kPd1000SpectrumPointCount
  spectrumValid : Vector Bool kPd1000SpectrumPointCount
  payloadStatus : PayloadStatus
  deriving DecidableEq

def isReserved (raw : UInt16) : Bool := raw = kInvalidDataMarker || raw = kNotRefreshedMarker

/-- Two's complement of sixteen bits. -/
def decodeInt16 (raw : UInt16) : Int :=
  if raw ≤ 0x7FFF then raw.toNat else (raw.toNat : Int) - 0x10000

def signedMeasurement (raw : UInt16) (minimum maximum : Int) : Measurement :=
  let value := decodeInt16 raw
  ⟨raw, value, !isReserved raw && decide (minimum ≤ value ∧ value ≤ maximum)⟩

def unsignedMeasurement (raw : UInt16) (minimum maximum : Nat) : Measurement :=
  ⟨raw, raw.toNat, !isReserved raw && decide (minimum ≤ raw.toNat ∧ raw.toNat ≤ maximum)⟩

/-- A spectrum point is valid if it is not a marker and lies in the range. -/
def validPoint (raw : UInt16) : Bool :=
  !isReserved raw && decide (-70 ≤ decodeInt16 raw ∧ decodeInt16 raw ≤ 15)

def parsePd1000Registers (rawRegisters : Registers) : ParsedSnapshot :=
  let measurements : Vector Measurement 5 := #v[
    signedMeasurement (rawRegisters.get ⟨0, by decide⟩) (-70) 15,
    unsignedMeasurement (rawRegisters.get ⟨1, by decide⟩) 0 65535,
    signedMeasurement (rawRegisters.get ⟨2, by decide⟩) (-70) 15,
    unsignedMeasurement (rawRegisters.get ⟨3, by decide⟩) 0 360,
    unsignedMeasurement (rawRegisters.get ⟨4, by decide⟩) 0 4096]
  let points : Vector UInt16 kPd1000SpectrumPointCount := Vector.ofFn fun index =>
    rawRegisters.get ⟨kPd1000SpectrumOffset + index.val, by
      have := index.isLt
      simp only [kPd1000SpectrumPointCount, kPd1000SpectrumCycles, kPd1000SpectrumPhaseBins,
        kPd1000SpectrumOffset, kPd1000RegisterCount] at *
      omega⟩
  let allNotRefreshed := points.all (· = kNotRefreshedMarker)
  let allValid := points.all validPoint
  let measurementsValid := measurements.all Measurement.valid
  { rawRegisters := rawRegisters
    measurements := measurements
    spectrum := points.map decodeInt16
    spectrumValid := points.map validPoint
    payloadStatus :=
      if allNotRefreshed then .notRefreshed
      else if !allValid || !measurementsValid then .degraded
      else .good }

/-- The image is kept as it was read. -/
@[simp] theorem parsePd1000Registers_rawRegisters (rawRegisters : Registers) :
    (parsePd1000Registers rawRegisters).rawRegisters = rawRegisters := rfl

end Uhf.Domain
