/-
Event bundles and their files (`storage/event_store`).

`encodeBundle` is the content `EventBundleStore::save` writes, `decodeBundle` what
`EventBundleStore::read` makes of the content of a file.

* `encodeBundle_isSome` — which bundles have a file.
-/
import UhfGateway.Acquisition.SnapshotStore

namespace Uhf.Storage

open Domain Acquisition

/-! ### Bundles -/

structure EventReasonStats where
  triggerCount : UInt32 := 0
  maxPeakDbm : Int32 := 0
  maxDeltaDb : Int32 := 0
  deriving DecidableEq

structure EventBundle where
  id : UInt64 := 0
  /-- On the steady clock; not stored. -/
  firstTriggeredAt : Nanoseconds := 0
  /-- Since the epoch of the system clock. -/
  firstTriggeredAtUtc : Nanoseconds := 0
  reasonMask : UInt8 := 0
  isPartial : Bool := false
  strong : EventReasonStats := {}
  sudden : EventReasonStats := {}
  frames : List PublishedSnapshot := []

def kEventMagic : Bytes := ascii "UHFE"
def kEventFormatVersion : UInt16 := 1
def kMaxEventFrames : ℕ := 6
def kHeaderBytes : ℕ := 54
def kFrameHeaderBytes : ℕ := 12
def kFrameBytes : ℕ := kFrameHeaderBytes + kPd1000RegisterCount * 2
def kCrcBytes : ℕ := 4
def kMaximumEventBytes : ℕ := kHeaderBytes + kMaxEventFrames * kFrameBytes + kCrcBytes
def kStrongReason : UInt8 := 1
def kSuddenReason : UInt8 := 2
def kReasonMask : UInt8 := kStrongReason ||| kSuddenReason

/-! ### Little-endian numbers -/

/-- The low `width` bytes of a number, lowest first. -/
def littleEndian (width value : ℕ) : Bytes :=
  (List.range width).map fun index => UInt8.ofNat (value >>> (index * 8))

def appendU16 (value : UInt16) : Bytes := littleEndian 2 value.toNat
def appendU32 (value : UInt32) : Bytes := littleEndian 4 value.toNat
def appendU64 (value : UInt64) : Bytes := littleEndian 8 value.toNat
def appendI32 (value : Int32) : Bytes := appendU32 value.toUInt32

/-- The number in the `width` bytes at `offset`. -/
def readLittleEndian (width : ℕ) (bytes : Bytes) (offset : ℕ) : ℕ :=
  (List.range width).foldl
    (fun value index => value ||| (bytes.getD (offset + index) 0).toNat <<< (index * 8)) 0

def readU16 (bytes : Bytes) (offset : ℕ) : UInt16 := UInt16.ofNat (readLittleEndian 2 bytes offset)
def readU32 (bytes : Bytes) (offset : ℕ) : UInt32 := UInt32.ofNat (readLittleEndian 4 bytes offset)
def readU64 (bytes : Bytes) (offset : ℕ) : UInt64 := UInt64.ofNat (readLittleEndian 8 bytes offset)
def readI32 (bytes : Bytes) (offset : ℕ) : Int32 := (readU32 bytes offset).toInt32

theorem length_littleEndian (width value : ℕ) : (littleEndian width value).length = width := by
  rw [littleEndian, List.length_map, List.length_range]

/-- One bit of `crc32`. -/
def crc32Bit (crc : UInt32) : UInt32 :=
  if crc &&& 1 ≠ 0 then (crc >>> 1) ^^^ 0xEDB88320 else crc >>> 1

/-- One byte of `crc32`. -/
def crc32Byte (crc : UInt32) (byte : UInt8) : UInt32 :=
  Nat.repeat crc32Bit 8 (crc ^^^ byte.toUInt32)

def crc32 (data : Bytes) : UInt32 := data.foldl crc32Byte 0xFFFFFFFF ^^^ 0xFFFFFFFF

/-! ### Writing -/

def statusCode : PayloadStatus → UInt8
  | .good => 0
  | .degraded => 1
  | .notRefreshed => 2

def decodeStatus (code : UInt8) : Option PayloadStatus :=
  if code = 0 then some .good
  else if code = 1 then some .degraded
  else if code = 2 then some .notRefreshed
  else none

/-- Whole milliseconds since the epoch, for a time not before it. -/
def timestampMilliseconds (timestamp : Nanoseconds) : Option UInt64 :=
  if timestamp.tdiv 1000000 < 0 then none else some (UInt64.ofNat (timestamp.tdiv 1000000).toNat)

def statsAreValid (stats : EventReasonStats) (present : Bool) : Bool :=
  if !present then stats.triggerCount = 0 && stats.maxPeakDbm = 0 && stats.maxDeltaDb = 0
  else decide (0 < stats.triggerCount) && decide (0 ≤ stats.maxDeltaDb)

/-- The checks on a bundle before anything is written. -/
def bundleIsValid (bundle : EventBundle) : Bool :=
  bundle.id ≠ 0 && bundle.reasonMask ≠ 0 && bundle.reasonMask &&& ~~~kReasonMask = 0 &&
    !bundle.frames.isEmpty && bundle.frames.length ≤ kMaxEventFrames &&
    statsAreValid bundle.strong (bundle.reasonMask &&& kStrongReason ≠ 0) &&
    statsAreValid bundle.sudden (bundle.reasonMask &&& kSuddenReason ≠ 0)

def encodeStats (stats : EventReasonStats) : Bytes :=
  appendU32 stats.triggerCount ++ appendI32 stats.maxPeakDbm ++ appendI32 stats.maxDeltaDb

def encodeHeader (milliseconds : UInt64) (bundle : EventBundle) : Bytes :=
  kEventMagic ++ appendU16 kEventFormatVersion ++ appendU64 milliseconds ++ appendU64 bundle.id ++
    [bundle.reasonMask, if bundle.isPartial then 1 else 0] ++ appendU16 0 ++
    encodeStats bundle.strong ++ encodeStats bundle.sudden ++
    appendU16 (UInt16.ofNat bundle.frames.length) ++ appendU16 0

def encodeFrame (frame : PublishedSnapshot) : Bytes :=
  appendU64 frame.generation ++ [statusCode frame.payload.payloadStatus, 0] ++
    appendU16 (UInt16.ofNat kPd1000RegisterCount) ++
    frame.payload.rawRegisters.toList.flatMap appendU16

/-- The frames, if their generations are not zero and differ from each other and from
the ones before. -/
def encodeFrames : List UInt64 → List PublishedSnapshot → Option Bytes
  | _, [] => some []
  | previous, frame :: frames =>
    if frame.generation = 0 then none
    else if frame.generation ∈ previous then none
    else (encodeFrames (previous ++ [frame.generation]) frames).map (encodeFrame frame ++ ·)

/-- The content of the file of a bundle, with the time that is part of its name. -/
def encodeBundle (bundle : EventBundle) : Option (UInt64 × Bytes) :=
  match timestampMilliseconds bundle.firstTriggeredAtUtc with
  | none => none
  | some milliseconds =>
    if !bundleIsValid bundle then none
    else
      match encodeFrames [] bundle.frames with
      | none => none
      | some frames =>
        let bytes := encodeHeader milliseconds bundle ++ frames
        if bytes.length ≠ kHeaderBytes + bundle.frames.length * kFrameBytes then none
        else some (milliseconds, bytes ++ appendU32 (crc32 bytes))

/-- The name of the file of a bundle. -/
def eventName (milliseconds : UInt64) (bundle : EventBundle) : Bytes :=
  ascii "event-" ++ ascii (toString milliseconds.toNat) ++ ascii "-" ++
    ascii (toString bundle.id.toNat) ++ ascii ".bin"

/-! ### Reading -/

/-- The frames from `offset` on, `count` of them. -/
def decodeFrames (bytes : Bytes) :
    (count offset : ℕ) → List PublishedSnapshot → Option (List PublishedSnapshot)
  | 0, _, frames => some frames
  | count + 1, offset, frames =>
    let generation := readU64 bytes offset
    match decodeStatus (bytes.getD (offset + 8) 0) with
    | none => none
    | some status =>
      if generation = 0 ∨ bytes.getD (offset + 9) 0 ≠ 0 ∨
          (readU16 bytes (offset + 10)).toNat ≠ kPd1000RegisterCount ∨
          frames.any (fun frame => frame.generation = generation) then none
      else
        let rawRegisters : Registers := Vector.ofFn fun index =>
          readU16 bytes (offset + kFrameHeaderBytes + index.val * 2)
        let payload := parsePd1000Registers rawRegisters
        if payload.payloadStatus ≠ status then none
        else
          decodeFrames bytes count (offset + kFrameBytes)
            (frames ++ [{ generation := generation, startedAt := 0, completedAt := 0
                          pollDuration := 0, payload := payload }])

/-- The time a file gives in milliseconds; the count is read as a signed one. -/
def decodeTime (count : UInt64) : Nanoseconds := count.toInt64.toInt * 1000000

def decodeBundle (bytes : Bytes) : Option EventBundle :=
  if bytes.take 4 ≠ kEventMagic ∨ readU16 bytes 4 ≠ kEventFormatVersion then none
  else
    let frameCount := (readU16 bytes 50).toNat
    if frameCount = 0 ∨ kMaxEventFrames < frameCount ∨
        bytes.length ≠ kHeaderBytes + frameCount * kFrameBytes + kCrcBytes then none
    else if crc32 (bytes.take (bytes.length - kCrcBytes)) ≠
        readU32 bytes (bytes.length - kCrcBytes) then none
    else
      let bundle : EventBundle := {
        id := readU64 bytes 14
        firstTriggeredAtUtc := decodeTime (readU64 bytes 6)
        reasonMask := bytes.getD 22 0
        isPartial := bytes.getD 23 0 ≠ 0
        strong := ⟨readU32 bytes 26, readI32 bytes 30, readI32 bytes 34⟩
        sudden := ⟨readU32 bytes 38, readI32 bytes 42, readI32 bytes 46⟩ }
      if bundle.id = 0 ∨ bundle.reasonMask = 0 ∨ bundle.reasonMask &&& ~~~kReasonMask ≠ 0 ∨
          1 < bytes.getD 23 0 ∨ bytes.getD 24 0 ≠ 0 ∨ bytes.getD 25 0 ≠ 0 ∨
          bytes.getD 52 0 ≠ 0 ∨ bytes.getD 53 0 ≠ 0 then none
      else if !statsAreValid bundle.strong (bundle.reasonMask &&& kStrongReason ≠ 0) ||
          !statsAreValid bundle.sudden (bundle.reasonMask &&& kSuddenReason ≠ 0) then none
      else
        (decodeFrames bytes frameCount kHeaderBytes []).map fun frames =>
          { bundle with frames := frames }

/-! ### The size of a file -/

theorem length_encodeFrame (frame : PublishedSnapshot) :
    (encodeFrame frame).length = kFrameBytes := by
  have hwords : ∀ words : List UInt16, (words.flatMap appendU16).length = words.length * 2 := by
    intro words
    induction words with
    | nil => rfl
    | cons w words ih =>
      rw [List.flatMap_cons, List.length_append, ih, appendU16, length_littleEndian,
        List.length_cons]
      omega
  rw [encodeFrame, List.length_append, List.length_append, List.length_append, hwords,
    Vector.length_toList, appendU64, appendU16, length_littleEndian, length_littleEndian]
  rfl

theorem length_encodeFrames {previous : List UInt64} {frames : List PublishedSnapshot}
    {bytes : Bytes} (h : encodeFrames previous frames = some bytes) :
    bytes.length = frames.length * kFrameBytes := by
  induction frames generalizing previous bytes with
  | nil =>
    cases h
    rw [List.length_nil, List.length_nil, Nat.zero_mul]
  | cons frame frames ih =>
    rw [encodeFrames] at h
    split at h
    · cases h
    split at h
    · cases h
    obtain ⟨rest, hrest, rfl⟩ := Option.map_eq_some_iff.mp h
    rw [List.length_append, length_encodeFrame, ih hrest, List.length_cons, Nat.add_mul, Nat.one_mul,
      Nat.add_comm]

theorem length_encodeHeader (milliseconds : UInt64) (bundle : EventBundle) :
    (encodeHeader milliseconds bundle).length = kHeaderBytes := rfl

/-- A bundle has a file if it passes the checks; the size always comes out right. -/
theorem encodeBundle_isSome {bundle : EventBundle} {milliseconds : UInt64} {frames : Bytes}
    (htime : timestampMilliseconds bundle.firstTriggeredAtUtc = some milliseconds)
    (hvalid : bundleIsValid bundle = true) (hframes : encodeFrames [] bundle.frames = some frames) :
    ∃ bytes, encodeBundle bundle = some (milliseconds, bytes) := by
  have hlength : (encodeHeader milliseconds bundle ++ frames).length =
      kHeaderBytes + bundle.frames.length * kFrameBytes := by
    rw [List.length_append, length_encodeHeader, length_encodeFrames hframes]
  refine ⟨encodeHeader milliseconds bundle ++ frames ++
    appendU32 (crc32 (encodeHeader milliseconds bundle ++ frames)), ?_⟩
  rw [encodeBundle, htime]
  simp only
  rw [hvalid, Bool.not_true, if_neg Bool.false_ne_true, hframes]
  simp only
  rw [if_neg (not_not.mpr hlength)]

end Uhf.Storage
