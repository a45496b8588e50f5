/-
Frames and their files (`storage/frame_store`).

`encodeRecord` is the content `FrameStore::save` writes, `decodeRecord` what `FrameStore::read`
makes of the content of a file.  The cleaner never opens a file: it goes by the time in its name.

* `decodeRecord_encodeRecord` — a frame is read back;
* `frame_files_dated` — so it is, and the name of every file gives the time the file holds.
-/
import UhfGateway.Storage.FileTimes

namespace Uhf.Storage

open Domain Acquisition

/-! ### Writing -/

structure FrameRecord where
  generation : UInt64 := 0
  /-- Since the epoch of the system clock. -/
  timestamp : Nanoseconds := 0
  payloadStatus : PayloadStatus := .degraded
  rawRegisters : Registers := Vector.replicate kPd1000RegisterCount 0

def kFrameMagic : Bytes := ascii "UHFF"
def kFrameFormatVersion : UInt16 := 1

/-- `kHeaderBytes` and `kFrameBytes` of the frame store. -/
def kRecordHeaderBytes : ℕ := 4 + 2 + 8 + 8 + 1 + 1 + 2
def kRecordBytes : ℕ := kRecordHeaderBytes + kPd1000RegisterCount * 2 + 4

/-- The bytes the CRC is taken of. -/
def recordBody (milliseconds : UInt64) (snapshot : PublishedSnapshot) : Bytes :=
  kFrameMagic ++ appendU16 kFrameFormatVersion ++ appendU64 snapshot.generation ++
    appendU64 milliseconds ++ [statusCode snapshot.payload.payloadStatus, 0] ++
    appendU16 (UInt16.ofNat kPd1000RegisterCount) ++
    snapshot.payload.rawRegisters.toList.flatMap appendU16

/-- The checksum in two halves, the low one first. -/
def appendChecksum (checksum : UInt32) : Bytes :=
  appendU16 (checksum &&& 0xFFFF).toUInt16 ++ appendU16 (checksum >>> 16).toUInt16

/-- The content of the file of a frame, with the time that is part of its name. -/
def encodeRecord (snapshot : PublishedSnapshot) (timestamp : Nanoseconds) :
    Option (UInt64 × Bytes) :=
  match timestampMilliseconds timestamp with
  | none => none
  | some milliseconds =>
    let body := recordBody milliseconds snapshot
    let bytes := body ++ appendChecksum (crc32 body)
    if bytes.length ≠ kRecordBytes then none else some (milliseconds, bytes)

/-- The name of the file of a frame. -/
def frameName (milliseconds : UInt64) (snapshot : PublishedSnapshot) : Bytes :=
  ascii "frame-" ++ decimal milliseconds.toNat ++ ascii "-" ++ decimal snapshot.generation.toNat ++
    ascii ".bin"

/-! ### Reading -/

/-- The checksum from its halves. -/
def readChecksum (bytes : Bytes) (offset : ℕ) : UInt32 :=
  (readU16 bytes offset).toUInt32 ||| (readU16 bytes (offset + 2)).toUInt32 <<< 16

/-- With the size that `read_bytes` insists on. -/
def decodeRecord (bytes : Bytes) : Option FrameRecord :=
  if bytes.length ≠ kRecordBytes then none
  else if bytes.take 4 ≠ kFrameMagic ∨ readU16 bytes 4 ≠ kFrameFormatVersion ∨
      (readU16 bytes 24).toNat ≠ kPd1000RegisterCount then none
  else if crc32 (bytes.take (bytes.length - 4)) ≠ readChecksum bytes (bytes.length - 4) then none
  else
    match decodeStatus (bytes.getD 22 0) with
    | none => none
    | some status =>
      some {
        generation := readU64 bytes 6
        timestamp := decodeTime (readU64 bytes 14)
        payloadStatus := status
        rawRegisters := Vector.ofFn fun index =>
          readU16 bytes (kRecordHeaderBytes + index.val * 2) }

/-! ### What is written is read -/

theorem length_flatMap_appendU16 (words : List UInt16) :
    (words.flatMap appendU16).length = words.length * 2 := by
  induction words with
  | nil => rfl
  | cons word words ih =>
    rw [List.flatMap_cons, List.length_append, ih, List.length_cons, appendU16,
      length_littleEndian]
    omega

theorem length_recordBody (milliseconds : UInt64) (snapshot : PublishedSnapshot) :
    (recordBody milliseconds snapshot).length = kRecordHeaderBytes + kPd1000RegisterCount * 2 := by
  have hmagic : kFrameMagic.length = 4 := rfl
  have hpair : ∀ first second : UInt8, [first, second].length = 2 := fun _ _ => rfl
  rw [recordBody]
  simp only [List.length_append, hmagic, appendU16, appendU64, length_littleEndian, hpair]
  rw [length_flatMap_appendU16, Vector.length_toList]
  rfl

/-- The halves make up the checksum. -/
theorem halves_or (checksum : UInt32) :
    (checksum &&& 0xFFFF).toUInt16.toUInt32 ||| (checksum >>> 16).toUInt16.toUInt32 <<< 16 =
      checksum := by
  have hlt := checksum.toNat_lt
  have hmask : checksum.toNat &&& 65535 = checksum.toNat % 65536 :=
    Nat.and_two_pow_sub_one_eq_mod checksum.toNat 16
  have hlow : (checksum &&& 0xFFFF).toUInt16.toUInt32.toNat = checksum.toNat % 65536 := by
    rw [UInt16.toNat_toUInt32, UInt32.toNat_toUInt16, UInt32.toNat_and]
    rw [show (0xFFFF : UInt32).toNat = 65535 from rfl, hmask]
    omega
  have hhigh : ((checksum >>> 16).toUInt16.toUInt32 <<< 16).toNat =
      (checksum.toNat / 65536) <<< 16 := by
    simp only [UInt32.toNat_shiftLeft, UInt16.toNat_toUInt32, UInt32.toNat_toUInt16,
      UInt32.toNat_shiftRight, UInt32.reduceToNat, Nat.reduceMod, Nat.shiftRight_eq_div_pow,
      Nat.shiftLeft_eq, Nat.reducePow]
    omega
  have hor := Nat.shiftLeft_add_eq_or_of_lt (i := 16) (b := checksum.toNat % 65536)
    (Nat.mod_lt _ (by decide)) (checksum.toNat / 65536)
  apply UInt32.toNat.inj
  rw [UInt32.toNat_or, hlow, hhigh, Nat.or_comm, ← hor, Nat.shiftLeft_eq]
  omega

theorem readChecksum_of_drop {bytes rest : Bytes} {offset : ℕ} {checksum : UInt32}
    (h : bytes.drop offset = appendChecksum checksum ++ rest) :
    readChecksum bytes offset = checksum := by
  rw [appendChecksum, List.append_assoc] at h
  have hlow := readU16_of_drop offset h
  have hhigh := readU16_of_drop (offset + 2) (drop_of_drop _ 2 (length_littleEndian _ _) h)
  rw [readChecksum, hlow, hhigh, halves_or]

/-- What `read` makes of a frame that has been saved with this time. -/
def storedRecord (milliseconds : UInt64) (snapshot : PublishedSnapshot) : FrameRecord where
  generation := snapshot.generation
  timestamp := decodeTime milliseconds
  payloadStatus := snapshot.payload.payloadStatus
  rawRegisters := snapshot.payload.rawRegisters

theorem encodeRecord_eq_some {snapshot : PublishedSnapshot} {timestamp : Nanoseconds}
    {milliseconds : UInt64} {bytes : Bytes} :
    encodeRecord snapshot timestamp = some (milliseconds, bytes) ↔
      timestampMilliseconds timestamp = some milliseconds ∧
        bytes = recordBody milliseconds snapshot ++
          appendChecksum (crc32 (recordBody milliseconds snapshot)) := by
  have hlength : ∀ milliseconds : UInt64, (recordBody milliseconds snapshot ++
      appendChecksum (crc32 (recordBody milliseconds snapshot))).length = kRecordBytes := by
    intro milliseconds
    rw [List.length_append, length_recordBody]
    rfl
  rw [encodeRecord]
  cases timestampMilliseconds timestamp with
  | none => simp
  | some time =>
    dsimp only
    rw [if_neg (not_not.mpr (hlength time)), Option.some.injEq, Option.some.injEq, Prod.mk.injEq]
    constructor
    · rintro ⟨rfl, rfl⟩
      exact ⟨rfl, rfl⟩
    · rintro ⟨rfl, rfl⟩
      exact ⟨rfl, rfl⟩

theorem decodeRecord_encodeRecord {snapshot : PublishedSnapshot} {timestamp : Nanoseconds}
    {milliseconds : UInt64} {bytes : Bytes}
    (h : encodeRecord snapshot timestamp = some (milliseconds, bytes)) :
    readU64 bytes 14 = milliseconds ∧
      decodeRecord bytes = some (storedRecord milliseconds snapshot) := by
  obtain ⟨-, hbytes⟩ := encodeRecord_eq_some.mp h
  have hbody := length_recordBody milliseconds snapshot
  have hlength : bytes.length = kRecordBytes := by
    rw [hbytes, List.length_append, hbody]
    rfl
  have hcut : bytes.length - 4 = (recordBody milliseconds snapshot).length := by
    rw [hlength, hbody]
    rfl
  have hchecked : bytes.take (bytes.length - 4) = recordBody milliseconds snapshot := by
    rw [hcut, hbytes, List.take_left]
  have hchecksum : readChecksum bytes (bytes.length - 4) =
      crc32 (recordBody milliseconds snapshot) := by
    have hdrop : bytes.drop (bytes.length - 4) =
        appendChecksum (crc32 (recordBody milliseconds snapshot)) ++ [] := by
      rw [hcut, hbytes, List.drop_left, List.append_nil]
    exact readChecksum_of_drop hdrop
  -- field by field, what the file goes on with
  generalize htail : appendChecksum (crc32 (recordBody milliseconds snapshot)) = tail at hbytes
  have hfields := hbytes
  simp only [recordBody, List.append_assoc] at hfields
  have h4 := drop_of_drop 0 4 rfl hfields
  have h6 := drop_of_drop _ 2 (length_littleEndian _ _) h4
  have h14 := drop_of_drop _ 8 (length_littleEndian _ _) h6
  have h22 := drop_of_drop _ 8 (length_littleEndian _ _) h14
  have h24 := drop_of_drop _ 2 rfl h22
  have h26 := drop_of_drop _ 2 (length_littleEndian _ _) h24
  have hmagic : bytes.take 4 = kFrameMagic := by
    rw [hfields]
    rfl
  have hcount : (readU16 bytes 24).toNat = kPd1000RegisterCount := by
    rw [readU16_of_drop 24 h24]
    rfl
  have hstatus : bytes.getD 22 0 = statusCode snapshot.payload.payloadStatus := by
    have hget := getD_drop bytes 22 0
    rw [h22] at hget
    exact hget.symm
  have hregisters : (Vector.ofFn fun index : Fin kPd1000RegisterCount =>
      readU16 bytes (kRecordHeaderBytes + index.val * 2)) = snapshot.payload.rawRegisters := by
    ext index hindex
    have hword : index < snapshot.payload.rawRegisters.toList.length := by
      rw [Vector.length_toList]
      exact hindex
    rw [Vector.getElem_ofFn, readU16_words kRecordHeaderBytes h26 hword, Vector.getElem_toList]
  have hformat : ¬ (bytes.take 4 ≠ kFrameMagic ∨ readU16 bytes 4 ≠ kFrameFormatVersion ∨
      (readU16 bytes 24).toNat ≠ kPd1000RegisterCount) := by
    rw [hmagic, readU16_of_drop 4 h4, hcount]
    simp
  refine ⟨readU64_of_drop 14 h14, ?_⟩
  rw [decodeRecord, if_neg (not_not.mpr hlength), if_neg hformat, hchecked, hchecksum,
    if_neg (not_not.mpr rfl), hstatus, decodeStatus_statusCode]
  dsimp only
  rw [readU64_of_drop 6 h6, readU64_of_drop 14 h14, hregisters]
  rfl

/-! ### Names -/

theorem ascii_toString (n : ℕ) : ascii (toString n) = decimal (n : Int) := by
  have htext : toString (n : Int) = n.repr := by
    rw [Int.toString_eq_repr, Int.repr_eq_if, if_pos (Int.natCast_nonneg n), Int.toNat_natCast]
  rw [decimal, htext]
  rfl

/-- Whole milliseconds of a time that the clock can tell. -/
theorem timestampMilliseconds_le {timestamp : Nanoseconds} {milliseconds : UInt64}
    (htime : ClockCount timestamp) (h : timestampMilliseconds timestamp = some milliseconds) :
    milliseconds.toNat ≤ lastMillisecond ∧
      (milliseconds.toNat : Int) = timestamp.tdiv 1000000 := by
  rw [timestampMilliseconds, Option.ite_none_left_eq_some] at h
  obtain ⟨hpos, hcount⟩ := h
  have hle : timestamp.tdiv 1000000 ≤ (2 ^ 63 - 1 : Int).tdiv 1000000 :=
    Int.tdiv_le_tdiv (by decide) (Int.le_sub_one_of_lt htime.2)
  have hlast : (2 ^ 63 - 1 : Int).tdiv 1000000 = 9223372036854 := by decide
  obtain rfl := Option.some.inj hcount
  generalize timestamp.tdiv 1000000 = whole at *
  rw [UInt64.toNat_ofNat', lastMillisecond]
  omega

/-- The name of a file is dated by the time that is put into it. -/
theorem filenameTimestamp_written {stem : Bytes}
    (hstem : stem = ascii "frame-" ∨ stem = ascii "event-") {timestamp : Nanoseconds}
    {count : UInt64} (htime : ClockCount timestamp)
    (h : timestampMilliseconds timestamp = some count) (rest : Bytes) :
    filenameTimestamp (stem ++ (decimal (count.toNat : Int) ++ (ascii "-" ++ rest))) =
      some (milliseconds count.toNat) ∧ decodeTime count = milliseconds count.toNat := by
  have hlast := (timestampMilliseconds_le htime h).1
  rw [lastMillisecond] at hlast
  constructor
  · exact (exact_iff (named_written hstem (by omega) rest)).mpr hlast
  · rw [decodeTime_of_lt (by omega)]
    rfl

/-- A frame is read back with the time at which it was saved, in whole milliseconds, and the name
of a file, be it of a frame or of an event, gives the time that is stored in it. -/
theorem frame_files_dated :
    (∀ snapshot timestamp, ClockCount timestamp → 0 ≤ timestamp →
      ∃ milliseconds bytes, encodeRecord snapshot timestamp = some (milliseconds, bytes) ∧
        decodeRecord bytes = some {
          generation := snapshot.generation
          timestamp := timestamp / 1000000 * 1000000
          payloadStatus := snapshot.payload.payloadStatus
          rawRegisters := snapshot.payload.rawRegisters }) ∧
    (∀ snapshot timestamp count bytes, ClockCount timestamp →
      encodeRecord snapshot timestamp = some (count, bytes) →
        readU64 bytes 14 = count ∧
          filenameTimestamp (frameName count snapshot) = some (milliseconds count.toNat)) ∧
    ∀ bundle count bytes, ClockCount bundle.firstTriggeredAtUtc →
      encodeBundle bundle = some (count, bytes) →
        readU64 bytes 6 = count ∧
          filenameTimestamp (eventName count bundle) = some (milliseconds count.toNat) := by
  refine ⟨?_, ?_, ?_⟩
  · intro snapshot timestamp htime hpos
    have hwhole : timestamp.tdiv 1000000 = timestamp / 1000000 := Int.tdiv_eq_ediv_of_nonneg hpos
    have hcount : timestampMilliseconds timestamp =
        some (UInt64.ofNat (timestamp.tdiv 1000000).toNat) := by
      have hnonneg := Int.tdiv_nonneg hpos (by decide : (0 : Int) ≤ 1000000)
      exact if_neg (Int.not_lt.mpr hnonneg)
    have hencode : encodeRecord snapshot timestamp = some (_, _) :=
      encodeRecord_eq_some.mpr ⟨hcount, rfl⟩
    refine ⟨_, _, hencode, ?_⟩
    rw [(decodeRecord_encodeRecord hencode).2, storedRecord,
      decodeTime_timestampMilliseconds htime hcount, hwhole]
  · intro snapshot timestamp count bytes htime hencode
    obtain ⟨hcount, -⟩ := encodeRecord_eq_some.mp hencode
    refine ⟨(decodeRecord_encodeRecord hencode).1, ?_⟩
    have hname := (filenameTimestamp_written (.inl rfl) htime hcount
      (decimal snapshot.generation.toNat ++ ascii ".bin")).1
    rw [frameName]
    simp only [List.append_assoc]
    exact hname
  · intro bundle count bytes htime hencode
    obtain ⟨hcount, -, frames, -, rfl⟩ := encodeBundle_cases hencode
    refine ⟨(header_fields count bundle _).milliseconds, ?_⟩
    have hname := (filenameTimestamp_written (.inr rfl) htime hcount
      (ascii (toString bundle.id.toNat) ++ ascii ".bin")).1
    rw [eventName, ascii_toString]
    simp only [List.append_assoc]
    exact hname

end Uhf.Storage
