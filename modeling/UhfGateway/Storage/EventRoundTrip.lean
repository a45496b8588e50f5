/-
What `EventBundleStore::save` writes is what `EventBundleStore::read` reads.

Encoder and decoder are separate code that meet in the layout of the file: a header with
its fields at fixed offsets, the frames one after the other, the CRC.  Both directions go
field by field: a number is read back from where it was put, and the bytes a number was
read from are the bytes it is written as.

* `readLittleEndian_of_drop`, `littleEndian_readLittleEndian` — the two directions for one
  number;
* `decodeBundle_encodeBundle`, `encodeBundle_decodeBundle` — and for a whole file;
* `event_file_round_trip` — both together.
-/
import Mathlib.Algebra.Order.Ring.Nat
import Mathlib.Data.List.GetD
import UhfGateway.Storage.EventReaders

namespace Uhf.Storage

open Domain Acquisition

/-! ### Numbers -/

theorem littleEndian_succ (width value : ℕ) :
    littleEndian (width + 1) value =
      littleEndian width value ++ [UInt8.ofNat (value / 256 ^ width)] := by
  have hpow : 256 ^ width = 2 ^ (width * 8) := by
    rw [show (256 : ℕ) = 2 ^ 8 from rfl, ← Nat.pow_mul, Nat.mul_comm]
  rw [littleEndian, List.range_succ, List.map_append, List.map_singleton,
    Nat.shiftRight_eq_div_pow, ← hpow]
  rfl

theorem readLittleEndian_lt (width : ℕ) (bytes : Bytes) (offset : ℕ) :
    readLittleEndian width bytes offset < 256 ^ width ∧
      readLittleEndian (width + 1) bytes offset = readLittleEndian width bytes offset +
        256 ^ width * (bytes.getD (offset + width) 0).toNat := by
  have hpow : ∀ n, 256 ^ n = 2 ^ (n * 8) := by
    intro n
    rw [show (256 : ℕ) = 2 ^ 8 from rfl, ← Nat.pow_mul, Nat.mul_comm]
  have hsucc : ∀ n, readLittleEndian n bytes offset < 256 ^ n →
      readLittleEndian (n + 1) bytes offset = readLittleEndian n bytes offset +
        256 ^ n * (bytes.getD (offset + n) 0).toNat := by
    intro n hlt
    rw [hpow] at hlt
    rw [readLittleEndian, List.range_succ, List.foldl_append]
    show readLittleEndian n bytes offset ||| _ = _
    rw [Nat.or_comm, ← Nat.shiftLeft_add_eq_or_of_lt hlt, Nat.shiftLeft_eq, hpow, Nat.add_comm,
      Nat.mul_comm]
  have hlt : readLittleEndian width bytes offset < 256 ^ width := by
    induction width with
    | zero => exact Nat.one_pos
    | succ n ih =>
      have hbyte := (bytes.getD (offset + n) 0).toNat_lt
      have hle : 256 ^ n * (bytes.getD (offset + n) 0).toNat ≤ 256 ^ n * 255 :=
        Nat.mul_le_mul_left _ (by omega)
      rw [hsucc n ih, Nat.pow_succ]
      omega
  exact ⟨hlt, hsucc width hlt⟩

/-- A number is read from where it was put. -/
theorem readLittleEndian_of_drop {width value offset : ℕ} {bytes rest : Bytes}
    (h : bytes.drop offset = littleEndian width value ++ rest) :
    readLittleEndian width bytes offset = value % 256 ^ width := by
  induction width generalizing rest with
  | zero => rw [Nat.pow_zero, Nat.mod_one]; rfl
  | succ n ih =>
    rw [littleEndian_succ, List.append_assoc] at h
    have hbyte : bytes.getD (offset + n) 0 = UInt8.ofNat (value / 256 ^ n) := by
      have hget : (bytes.drop offset).getD n 0 = UInt8.ofNat (value / 256 ^ n) := by
        rw [h, List.getD_append_right _ _ _ _ (Nat.le_of_eq (length_littleEndian n value)),
          length_littleEndian, Nat.sub_self]
        rfl
      rw [← hget, List.getD_eq_getElem?_getD, List.getD_eq_getElem?_getD, List.getElem?_drop]
    rw [(readLittleEndian_lt n bytes offset).2, ih h, hbyte, UInt8.toNat_ofNat',
      Nat.mod_pow_succ (b := 256)]

/-- The bytes a number was read from are the bytes it is written as. -/
theorem littleEndian_readLittleEndian {width offset : ℕ} {bytes : Bytes}
    (h : offset + width ≤ bytes.length) :
    littleEndian width (readLittleEndian width bytes offset) = (bytes.drop offset).take width := by
  have hstep : ∀ n low high, low < 256 ^ n →
      littleEndian n (low + 256 ^ n * high) = littleEndian n low := by
    intro n low high hlow
    rw [littleEndian, littleEndian]
    refine List.map_congr_left fun i hi => ?_
    have hi : i < n := List.mem_range.mp hi
    have hsplit : 256 ^ n * high = 2 ^ (i * 8) * (256 * (256 ^ (n - i - 1) * high)) := by
      rw [Nat.mul_comm i 8, Nat.pow_mul, ← Nat.mul_assoc, ← Nat.mul_assoc, show (2 : ℕ) ^ 8 = 256 from
        rfl, ← Nat.pow_succ, ← Nat.pow_add, show i + 1 + (n - i - 1) = n by omega]
    apply UInt8.toNat.inj
    rw [UInt8.toNat_ofNat', UInt8.toNat_ofNat', Nat.shiftRight_eq_div_pow,
      Nat.shiftRight_eq_div_pow, hsplit, Nat.add_mul_div_left _ _ (Nat.two_pow_pos _)]
    exact Nat.add_mul_mod_self_left _ _ _
  induction width with
  | zero => rfl
  | succ n ih =>
    obtain ⟨hlt, hsucc⟩ := readLittleEndian_lt n bytes offset
    have hget : (bytes.drop offset)[n]? = some (bytes.getD (offset + n) 0) := by
      rw [List.getElem?_drop, List.getD_eq_getElem?_getD,
        List.getElem?_eq_getElem (by omega), Option.getD_some]
    rw [littleEndian_succ, hsucc, hstep _ _ _ hlt, ih (by omega), List.take_add_one, hget,
      Nat.add_mul_div_left _ _ (Nat.pow_pos (by decide)), Nat.div_eq_of_lt hlt, Nat.zero_add,
      UInt8.ofNat_toNat]
    rfl

section Fields

variable {bytes rest : Bytes} (offset : ℕ)

theorem readU16_of_drop {value : UInt16} (h : bytes.drop offset = appendU16 value ++ rest) :
    readU16 bytes offset = value := by
  have hlt : value.toNat < 256 ^ 2 := value.toNat_lt
  rw [readU16, readLittleEndian_of_drop h, Nat.mod_eq_of_lt hlt, UInt16.ofNat_toNat]

theorem readU32_of_drop {value : UInt32} (h : bytes.drop offset = appendU32 value ++ rest) :
    readU32 bytes offset = value := by
  have hlt : value.toNat < 256 ^ 4 := value.toNat_lt
  rw [readU32, readLittleEndian_of_drop h, Nat.mod_eq_of_lt hlt, UInt32.ofNat_toNat]

theorem readU64_of_drop {value : UInt64} (h : bytes.drop offset = appendU64 value ++ rest) :
    readU64 bytes offset = value := by
  have hlt : value.toNat < 256 ^ 8 := value.toNat_lt
  rw [readU64, readLittleEndian_of_drop h, Nat.mod_eq_of_lt hlt, UInt64.ofNat_toNat]

theorem readI32_of_drop {value : Int32} (h : bytes.drop offset = appendI32 value ++ rest) :
    readI32 bytes offset = value := by
  rw [readI32, readU32_of_drop _ h, Int32.toInt32_toUInt32]

variable {offset}

theorem appendU16_readU16 (h : offset + 2 ≤ bytes.length) :
    appendU16 (readU16 bytes offset) = (bytes.drop offset).take 2 := by
  rw [appendU16, readU16, UInt16.toNat_ofNat_of_lt' (readLittleEndian_lt 2 bytes offset).1,
    littleEndian_readLittleEndian h]

theorem appendU32_readU32 (h : offset + 4 ≤ bytes.length) :
    appendU32 (readU32 bytes offset) = (bytes.drop offset).take 4 := by
  rw [appendU32, readU32, UInt32.toNat_ofNat_of_lt' (readLittleEndian_lt 4 bytes offset).1,
    littleEndian_readLittleEndian h]

theorem appendU64_readU64 (h : offset + 8 ≤ bytes.length) :
    appendU64 (readU64 bytes offset) = (bytes.drop offset).take 8 := by
  rw [appendU64, readU64, UInt64.toNat_ofNat_of_lt' (readLittleEndian_lt 8 bytes offset).1,
    littleEndian_readLittleEndian h]

theorem appendI32_readI32 (h : offset + 4 ≤ bytes.length) :
    appendI32 (readI32 bytes offset) = (bytes.drop offset).take 4 := by
  rw [appendI32, readI32, UInt32.toUInt32_toInt32, appendU32_readU32 h]

end Fields

/-! ### The header -/

theorem getD_drop (bytes : Bytes) (offset index : ℕ) :
    (bytes.drop offset).getD index 0 = bytes.getD (offset + index) 0 := by
  rw [List.getD_eq_getElem?_getD, List.getD_eq_getElem?_getD, List.getElem?_drop]

theorem drop_of_drop {bytes first rest : Bytes} (offset size : ℕ) (hsize : first.length = size)
    (h : bytes.drop offset = first ++ rest) : bytes.drop (offset + size) = rest := by
  rw [← List.drop_drop, h, ← hsize, List.drop_left]

/-- The fields of a header, each where `read` looks for it. -/
structure HeaderFields (milliseconds : UInt64) (bundle : EventBundle) (bytes : Bytes) : Prop where
  magic : bytes.take 4 = kEventMagic
  version : readU16 bytes 4 = kEventFormatVersion
  milliseconds : readU64 bytes 6 = milliseconds
  id : readU64 bytes 14 = bundle.id
  mask : bytes.getD 22 0 = bundle.reasonMask
  flag : bytes.getD 23 0 = if bundle.isPartial then 1 else 0
  reserved : bytes.getD 24 0 = 0 ∧ bytes.getD 25 0 = 0 ∧ bytes.getD 52 0 = 0 ∧ bytes.getD 53 0 = 0
  strong : (⟨readU32 bytes 26, readI32 bytes 30, readI32 bytes 34⟩ : EventReasonStats) =
    bundle.strong
  sudden : (⟨readU32 bytes 38, readI32 bytes 42, readI32 bytes 46⟩ : EventReasonStats) =
    bundle.sudden
  frames : readU16 bytes 50 = UInt16.ofNat bundle.frames.length

theorem header_fields (milliseconds : UInt64) (bundle : EventBundle) (rest : Bytes) :
    HeaderFields milliseconds bundle (encodeHeader milliseconds bundle ++ rest) := by
  generalize hbytes : encodeHeader milliseconds bundle ++ rest = bytes
  simp only [encodeHeader, encodeStats, List.append_assoc] at hbytes
  -- field by field, what the file goes on with
  have h4 := drop_of_drop 0 4 rfl hbytes.symm
  have h6 := drop_of_drop _ 2 rfl h4
  have h14 := drop_of_drop _ 8 rfl h6
  have h22 := drop_of_drop _ 8 rfl h14
  have h24 := drop_of_drop _ 2 rfl h22
  have h26 := drop_of_drop _ 2 rfl h24
  have h30 := drop_of_drop _ 4 rfl h26
  have h34 := drop_of_drop _ 4 rfl h30
  have h38 := drop_of_drop _ 4 rfl h34
  have h42 := drop_of_drop _ 4 rfl h38
  have h46 := drop_of_drop _ 4 rfl h42
  have h50 := drop_of_drop _ 4 rfl h46
  have h52 := drop_of_drop _ 2 rfl h50
  have hget : ∀ {offset : ℕ} {first second : UInt8} {rest : Bytes},
      bytes.drop offset = first :: second :: rest →
        bytes.getD offset 0 = first ∧ bytes.getD (offset + 1) 0 = second := by
    intro offset first second rest h
    rw [← getD_drop, ← Nat.add_zero offset, ← getD_drop, Nat.add_zero, h]
    exact ⟨rfl, rfl⟩
  refine ⟨?_, readU16_of_drop _ h4, readU64_of_drop _ h6, readU64_of_drop _ h14, (hget h22).1,
    (hget h22).2, ⟨(hget h24).1, (hget h24).2, (hget h52).1, (hget h52).2⟩, ?_, ?_,
    readU16_of_drop _ h50⟩
  · rw [← hbytes]
    rfl
  · rw [readU32_of_drop 26 h26, readI32_of_drop 30 h30,
      readI32_of_drop 34 h34]
  · rw [readU32_of_drop 38 h38, readI32_of_drop 42 h42,
      readI32_of_drop 46 h46]

/-! ### Frames read back -/

theorem readU16_words {bytes rest : Bytes} {words : List UInt16} (offset : ℕ)
    (h : bytes.drop offset = words.flatMap appendU16 ++ rest) {i : ℕ} (hi : i < words.length) :
    readU16 bytes (offset + i * 2) = words[i] := by
  induction words generalizing offset i with
  | nil => exact absurd hi (Nat.not_lt_zero i)
  | cons word words ih =>
    rw [List.flatMap_cons, List.append_assoc] at h
    cases i with
    | zero => exact readU16_of_drop _ h
    | succ i =>
      have hnext := ih _ (drop_of_drop _ 2 rfl h) (Nat.lt_of_succ_lt_succ hi)
      rw [show offset + (i + 1) * 2 = offset + 2 + i * 2 by omega]
      exact hnext

theorem decodeStatus_statusCode (status : PayloadStatus) :
    decodeStatus (statusCode status) = some status := by
  cases status <;> rfl

/-- A frame as `read` returns it: without the times of its acquisition. -/
def storedFrame (frame : PublishedSnapshot) : PublishedSnapshot :=
  { generation := frame.generation, startedAt := 0, completedAt := 0, pollDuration := 0
    payload := frame.payload }

/-- The payload is what its registers come to. -/
def Parsed (frame : PublishedSnapshot) : Prop :=
  frame.payload = parsePd1000Registers frame.payload.rawRegisters

/-- What `read` finds in the bytes of a frame. -/
theorem frame_fields {bytes rest : Bytes} {offset : ℕ} {frame : PublishedSnapshot}
    (h : bytes.drop offset = encodeFrame frame ++ rest) :
    readU64 bytes offset = frame.generation ∧
      bytes.getD (offset + 8) 0 = statusCode frame.payload.payloadStatus ∧
      bytes.getD (offset + 9) 0 = 0 ∧
      (readU16 bytes (offset + 10)).toNat = kPd1000RegisterCount ∧
      (Vector.ofFn fun index : Fin kPd1000RegisterCount =>
        readU16 bytes (offset + kFrameHeaderBytes + index.val * 2)) =
          frame.payload.rawRegisters := by
  rw [encodeFrame] at h
  simp only [List.append_assoc] at h
  have hstatus := drop_of_drop _ 8 (length_littleEndian _ _) h
  have hcount := drop_of_drop _ 2 rfl hstatus
  have hwords := drop_of_drop _ 2 (length_littleEndian _ _) hcount
  refine ⟨readU64_of_drop _ h, ?_, ?_, ?_, ?_⟩
  · have hget := getD_drop bytes (offset + 8) 0
    rw [hstatus] at hget
    exact hget.symm
  · have hget := getD_drop bytes (offset + 8) 1
    rw [hstatus] at hget
    exact hget.symm
  · rw [readU16_of_drop (offset + 10) hcount]
    rfl
  · ext index hindex
    have hlength : index < frame.payload.rawRegisters.toList.length := by
      rw [Vector.length_toList]
      exact hindex
    rw [Vector.getElem_ofFn, readU16_words (offset + kFrameHeaderBytes) hwords hlength,
      Vector.getElem_toList]

theorem decodeFrames_encodeFrames {bytes encoded rest : Bytes} {offset : ℕ}
    {frames : List PublishedSnapshot} (before : List PublishedSnapshot)
    (h : encodeFrames (before.map PublishedSnapshot.generation) frames = some encoded)
    (hbytes : bytes.drop offset = encoded ++ rest) (hparsed : ∀ frame ∈ frames, Parsed frame) :
    decodeFrames bytes frames.length offset before = some (before ++ frames.map storedFrame) := by
  induction frames generalizing before encoded offset with
  | nil => rw [List.map_nil, List.append_nil]; rfl
  | cons frame frames ih =>
    rw [encodeFrames] at h
    split at h
    · cases h
    next hzero =>
    split at h
    · cases h
    next hnew =>
    obtain ⟨later, hlater, rfl⟩ := Option.map_eq_some_iff.mp h
    rw [List.append_assoc] at hbytes
    obtain ⟨hgeneration, hstatus, hreserved, hcount, hregisters⟩ := frame_fields hbytes
    have hpayload : parsePd1000Registers frame.payload.rawRegisters = frame.payload :=
      (hparsed frame List.mem_cons_self).symm
    have hany : before.any (fun other => other.generation = frame.generation) = false := by
      rw [List.any_eq_false]
      intro other hother
      simp only [decide_eq_true_eq]
      intro heq
      exact hnew (heq ▸ List.mem_map_of_mem hother)
    have hnext := drop_of_drop _ _ (length_encodeFrame frame) hbytes
    have hrest := ih (before ++ [storedFrame frame]) (by
      rw [List.map_append]
      exact hlater) hnext (fun other hother => hparsed other (List.mem_cons_of_mem _ hother))
    rw [List.length_cons, decodeFrames, hstatus, decodeStatus_statusCode]
    simp only [hgeneration, hreserved, hcount, hany, hregisters, hpayload]
    rw [if_neg (by simpa using hzero), if_neg (not_not.mpr rfl)]
    refine hrest.trans ?_
    rw [List.append_assoc]
    rfl

/-! ### Files read back -/

/-- A count of the system clock: a signed number of 64 bits. -/
def ClockCount (time : Nanoseconds) : Prop := -2 ^ 63 ≤ time ∧ time < 2 ^ 63

theorem decodeTime_of_lt {count : UInt64} (h : count.toNat < 2 ^ 63) :
    decodeTime count = count.toNat * 1000000 := by
  have hint : count.toInt64.toInt = count.toNat := by
    rw [UInt64.toInt64, Int64.toInt, BitVec.toInt_eq_toNat_of_lt]
    · rfl
    · show 2 * count.toNat < 2 ^ 64
      omega
  rw [decodeTime, hint]

/-- A time that is saved is read back in whole milliseconds. -/
theorem decodeTime_timestampMilliseconds {time : Nanoseconds} {milliseconds : UInt64}
    (htime : ClockCount time) (h : timestampMilliseconds time = some milliseconds) :
    decodeTime milliseconds = time.tdiv 1000000 * 1000000 := by
  rw [timestampMilliseconds] at h
  split at h
  · cases h
  next hpos =>
  obtain rfl := Option.some.inj h
  have hsmall : time.tdiv 1000000 < 2 ^ 63 := by
    have hle : time.tdiv 1000000 ≤ (2 ^ 63 - 1 : Int).tdiv 1000000 :=
      Int.tdiv_le_tdiv (by decide) (Int.le_sub_one_of_lt htime.2)
    exact Int.lt_of_le_of_lt hle (by decide)
  generalize time.tdiv 1000000 = whole at *
  have hcount : (UInt64.ofNat whole.toNat).toNat = whole.toNat := by
    rw [UInt64.toNat_ofNat']
    omega
  rw [decodeTime_of_lt (by omega), hcount, Int.toNat_of_nonneg (Int.not_lt.mp hpos)]

/-- What a file consists of. -/
theorem encodeBundle_cases {bundle : EventBundle} {milliseconds : UInt64} {bytes : Bytes}
    (h : encodeBundle bundle = some (milliseconds, bytes)) :
    timestampMilliseconds bundle.firstTriggeredAtUtc = some milliseconds ∧
      bundleIsValid bundle = true ∧
      ∃ frames, encodeFrames [] bundle.frames = some frames ∧
        bytes = encodeHeader milliseconds bundle ++
          (frames ++ appendU32 (crc32 (encodeHeader milliseconds bundle ++ frames))) := by
  rw [encodeBundle] at h
  cases htime : timestampMilliseconds bundle.firstTriggeredAtUtc with
  | none => simp [htime] at h
  | some time =>
    simp only [htime] at h
    split at h
    · cases h
    next hvalid =>
    cases hframes : encodeFrames [] bundle.frames with
    | none => simp [hframes] at h
    | some frames =>
      simp only [hframes] at h
      split at h
      · cases h
      · obtain ⟨rfl, rfl⟩ := Prod.mk.inj (Option.some.inj h)
        refine ⟨rfl, by simpa using hvalid, frames, rfl, List.append_assoc _ _ _⟩

/-- What `read` demands of a file before it looks at the frames. -/
structure HeaderAccepted (bytes : Bytes) : Prop where
  magic : bytes.take 4 = kEventMagic
  version : readU16 bytes 4 = kEventFormatVersion
  some_frames : (readU16 bytes 50).toNat ≠ 0
  few_frames : (readU16 bytes 50).toNat ≤ kMaxEventFrames
  length : bytes.length = kHeaderBytes + (readU16 bytes 50).toNat * kFrameBytes + kCrcBytes
  crc : crc32 (bytes.take (bytes.length - kCrcBytes)) = readU32 bytes (bytes.length - kCrcBytes)
  id : readU64 bytes 14 ≠ 0
  mask : bytes.getD 22 0 ≠ 0
  reasons : bytes.getD 22 0 &&& ~~~kReasonMask = 0
  flag : ¬ 1 < bytes.getD 23 0
  reserved : bytes.getD 24 0 = 0 ∧ bytes.getD 25 0 = 0 ∧ bytes.getD 52 0 = 0 ∧ bytes.getD 53 0 = 0
  strong : statsAreValid ⟨readU32 bytes 26, readI32 bytes 30, readI32 bytes 34⟩
    (bytes.getD 22 0 &&& kStrongReason ≠ 0) = true
  sudden : statsAreValid ⟨readU32 bytes 38, readI32 bytes 42, readI32 bytes 46⟩
    (bytes.getD 22 0 &&& kSuddenReason ≠ 0) = true

/-- The bundle of a file. -/
def bundleOf (bytes : Bytes) (frames : List PublishedSnapshot) : EventBundle :=
  { id := readU64 bytes 14
    firstTriggeredAtUtc := decodeTime (readU64 bytes 6)
    reasonMask := bytes.getD 22 0
    isPartial := bytes.getD 23 0 ≠ 0
    strong := ⟨readU32 bytes 26, readI32 bytes 30, readI32 bytes 34⟩
    sudden := ⟨readU32 bytes 38, readI32 bytes 42, readI32 bytes 46⟩
    frames := frames }

theorem decodeBundle_eq_some {bytes : Bytes} {bundle : EventBundle} :
    decodeBundle bytes = some bundle ↔ HeaderAccepted bytes ∧ ∃ frames,
      decodeFrames bytes (readU16 bytes 50).toNat kHeaderBytes [] = some frames ∧
        bundle = bundleOf bytes frames := by
  rw [decodeBundle]
  constructor
  · intro h
    split at h
    · cases h
    next hformat =>
    simp only at h
    split at h
    · cases h
    next hcount =>
    split at h
    · cases h
    next hcrc =>
    split at h
    · cases h
    next hheader =>
    split at h
    · cases h
    next hstats =>
    obtain ⟨frames, hframes, rfl⟩ := Option.map_eq_some_iff.mp h
    simp only [not_or, not_not, Nat.not_lt, ne_eq] at hformat hcount hcrc hheader
    simp only [Bool.or_eq_true, Bool.not_eq_true', not_or, Bool.not_eq_false] at hstats
    obtain ⟨hid, hmask, hreasons, hflag, h24, h25, h52, h53⟩ := hheader
    exact ⟨⟨hformat.1, hformat.2, hcount.1, hcount.2.1, hcount.2.2, hcrc, hid, hmask, hreasons,
      hflag, ⟨h24, h25, h52, h53⟩, hstats.1, hstats.2⟩, frames, hframes, rfl⟩
  · rintro ⟨h, frames, hframes, rfl⟩
    obtain ⟨h24, h25, h52, h53⟩ := h.reserved
    rw [if_neg (not_or.mpr ⟨not_not.mpr h.magic, not_not.mpr h.version⟩)]
    simp only
    rw [if_neg (not_or.mpr ⟨h.some_frames, not_or.mpr
      ⟨Nat.not_lt.mpr h.few_frames, not_not.mpr h.length⟩⟩), if_neg (not_not.mpr h.crc), if_neg]
    · rw [h.strong, h.sudden, hframes]
      rfl
    · simp only [not_or, not_not, ne_eq]
      exact ⟨h.id, h.mask, h.reasons, h.flag, h24, h25, h52, h53⟩

/-- A bundle as `read` returns it: in whole milliseconds, without what is not stored. -/
def storedBundle (bundle : EventBundle) : EventBundle :=
  { bundle with
    firstTriggeredAt := 0
    firstTriggeredAtUtc := bundle.firstTriggeredAtUtc.tdiv 1000000 * 1000000
    frames := bundle.frames.map storedFrame }

theorem decodeBundle_encodeBundle {bundle : EventBundle} {milliseconds : UInt64} {bytes : Bytes}
    (h : encodeBundle bundle = some (milliseconds, bytes))
    (htime : ClockCount bundle.firstTriggeredAtUtc)
    (hparsed : ∀ frame ∈ bundle.frames, Parsed frame) :
    decodeBundle bytes = some (storedBundle bundle) := by
  obtain ⟨hmilliseconds, hvalid, frames, hframes, rfl⟩ := encodeBundle_cases h
  simp only [bundleIsValid, Bool.and_eq_true, decide_eq_true_eq, Bool.not_eq_true',
    List.isEmpty_eq_false_iff] at hvalid
  obtain ⟨⟨⟨⟨⟨⟨hid, hmask⟩, hreasons⟩, hsome⟩, hmany⟩, hstrong⟩, hsudden⟩ := hvalid
  generalize htail : frames ++ appendU32 (crc32 (encodeHeader milliseconds bundle ++ frames)) = tail
  have hfields := header_fields milliseconds bundle tail
  have hdrop : (encodeHeader milliseconds bundle ++ tail).drop kHeaderBytes = tail := by
    rw [← length_encodeHeader milliseconds bundle]
    exact List.drop_left
  have hlength : (encodeHeader milliseconds bundle ++ tail).length =
      kHeaderBytes + bundle.frames.length * kFrameBytes + kCrcBytes := by
    rw [← htail, List.length_append, List.length_append, length_encodeHeader,
      length_encodeFrames hframes, appendU32, length_littleEndian, Nat.add_assoc]
    rfl
  have hcrc : crc32 ((encodeHeader milliseconds bundle ++ tail).take
        ((encodeHeader milliseconds bundle ++ tail).length - kCrcBytes)) =
      readU32 (encodeHeader milliseconds bundle ++ tail)
        ((encodeHeader milliseconds bundle ++ tail).length - kCrcBytes) := by
    have hsize : (encodeHeader milliseconds bundle ++ tail).length - kCrcBytes =
        (encodeHeader milliseconds bundle ++ frames).length := by
      rw [hlength, Nat.add_sub_cancel, List.length_append, length_encodeHeader,
        length_encodeFrames hframes]
    rw [hsize, ← htail, ← List.append_assoc, List.take_left, @readU32_of_drop _ []]
    rw [List.drop_left, List.append_nil]
  -- from here on only the fields matter
  generalize encodeHeader milliseconds bundle ++ tail = bytes at *
  have hcount : (readU16 bytes 50).toNat = bundle.frames.length := by
    rw [hfields.frames, UInt16.toNat_ofNat_of_lt' (Nat.lt_of_le_of_lt hmany (by decide))]
  rw [decodeBundle_eq_some]
  refine ⟨⟨hfields.magic, hfields.version, ?_, ?_, ?_, hcrc, ?_, ?_, ?_, ?_, hfields.reserved, ?_, ?_⟩,
    bundle.frames.map storedFrame, ?_, ?_⟩
  · rw [hcount]
    exact fun hzero => hsome (List.eq_nil_of_length_eq_zero hzero)
  · rw [hcount]
    exact hmany
  · rw [hcount]
    exact hlength
  · rw [hfields.id]
    exact hid
  · rw [hfields.mask]
    exact hmask
  · rw [hfields.mask]
    exact hreasons
  · rw [hfields.flag]
    cases bundle.isPartial <;> decide
  · rw [hfields.strong, hfields.mask]
    exact hstrong
  · rw [hfields.sudden, hfields.mask]
    exact hsudden
  · rw [hcount]
    exact decodeFrames_encodeFrames [] hframes (hdrop.trans htail.symm) hparsed
  · have hpartial : decide (bytes.getD 23 0 ≠ 0) = bundle.isPartial := by
      rw [hfields.flag]
      cases bundle.isPartial <;> rfl
    rw [bundleOf, storedBundle, hfields.milliseconds, hfields.id, hfields.mask, hfields.strong,
      hfields.sudden, hpartial, decodeTime_timestampMilliseconds htime hmilliseconds]

/-! ### Frames written back -/

theorem take_append_slice (bytes : Bytes) (offset size : ℕ) :
    bytes.take offset ++ (bytes.drop offset).take size = bytes.take (offset + size) :=
  List.take_add.symm

theorem slice_append_slice (bytes : Bytes) (offset first second : ℕ) :
    (bytes.drop offset).take first ++ (bytes.drop (offset + first)).take second =
      (bytes.drop offset).take (first + second) := by
  rw [← List.drop_drop, ← List.take_add]

theorem slice_two {bytes : Bytes} {offset : ℕ} (h : offset + 2 ≤ bytes.length) :
    (bytes.drop offset).take 2 = [bytes.getD offset 0, bytes.getD (offset + 1) 0] := by
  have hget : ∀ index, index < bytes.length → bytes[index]? = some (bytes.getD index 0) := by
    intro index hindex
    rw [List.getD_eq_getElem?_getD, List.getElem?_eq_getElem hindex, Option.getD_some]
  rw [List.take_add_one, List.take_one, List.head?_drop, List.getElem?_drop, hget _ (by omega),
    hget _ (by omega)]
  rfl

theorem statusCode_of_decodeStatus {code : UInt8} {status : PayloadStatus}
    (h : decodeStatus code = some status) : statusCode status = code := by
  rw [decodeStatus] at h
  split at h
  · next hcode =>
    obtain rfl := Option.some.inj h
    exact hcode.symm
  split at h
  · next hcode =>
    obtain rfl := Option.some.inj h
    exact hcode.symm
  split at h
  · next hcode =>
    obtain rfl := Option.some.inj h
    exact hcode.symm
  · cases h

theorem words_written {bytes : Bytes} {offset count : ℕ} (h : offset + count * 2 ≤ bytes.length) :
    ((List.range count).map fun index => readU16 bytes (offset + index * 2)).flatMap appendU16 =
      (bytes.drop offset).take (count * 2) := by
  induction count with
  | zero => rfl
  | succ count ih =>
    rw [List.range_succ, List.map_append, List.flatMap_append, ih (by omega), List.map_singleton,
      List.flatMap_singleton, appendU16_readU16 (by omega), slice_append_slice, Nat.add_mul,
      Nat.one_mul]

/-- The frame at a place of a file, as `read` makes it. -/
def frameAt (bytes : Bytes) (offset : ℕ) : PublishedSnapshot :=
  { generation := readU64 bytes offset, startedAt := 0, completedAt := 0, pollDuration := 0
    payload := parsePd1000Registers (Vector.ofFn fun index =>
      readU16 bytes (offset + kFrameHeaderBytes + index.val * 2)) }

theorem encodeFrame_frameAt (bytes : Bytes) (offset : ℕ)
    (hlength : offset + kFrameBytes ≤ bytes.length)
    (hstatus : decodeStatus (bytes.getD (offset + 8) 0) =
      some (frameAt bytes offset).payload.payloadStatus)
    (hreserved : bytes.getD (offset + 9) 0 = 0)
    (hcount : (readU16 bytes (offset + 10)).toNat = kPd1000RegisterCount) :
    encodeFrame (frameAt bytes offset) = (bytes.drop offset).take kFrameBytes := by
  have hsize : kFrameBytes = 12 + 3615 * 2 := rfl
  have hregisters : (frameAt bytes offset).payload.rawRegisters.toList =
      (List.range kPd1000RegisterCount).map fun index =>
        readU16 bytes (offset + kFrameHeaderBytes + index * 2) := by
    rw [frameAt, parsePd1000Registers_rawRegisters]
    refine List.ext_getElem (by rw [Vector.length_toList, List.length_map, List.length_range]) ?_
    intro index _ _
    rw [Vector.getElem_toList, Vector.getElem_ofFn, List.getElem_map, List.getElem_range]
  have hwords : (frameAt bytes offset).payload.rawRegisters.toList.flatMap appendU16 =
      (bytes.drop (offset + 12)).take (kPd1000RegisterCount * 2) := by
    rw [hregisters]
    exact words_written (by rw [kPd1000RegisterCount, kFrameHeaderBytes]; omega)
  have hnumber : appendU16 (UInt16.ofNat kPd1000RegisterCount) =
      (bytes.drop (offset + 10)).take 2 := by
    rw [← hcount, UInt16.ofNat_toNat, appendU16_readU16 (by omega)]
  have hmark : [statusCode (frameAt bytes offset).payload.payloadStatus, 0] =
      (bytes.drop (offset + 8)).take 2 := by
    rw [slice_two (by omega), statusCode_of_decodeStatus hstatus, hreserved]
  rw [encodeFrame, hwords, hnumber, hmark]
  show appendU64 (readU64 bytes offset) ++ _ ++ _ ++ _ = _
  rw [appendU64_readU64 (by omega), slice_append_slice, slice_append_slice, slice_append_slice]
  rfl

/-- The frames `read` returns, written one after the other, are the bytes it read them from. -/
theorem encodeFrames_decodeFrames {bytes : Bytes} {count offset : ℕ}
    {before all : List PublishedSnapshot} (h : decodeFrames bytes count offset before = some all)
    (hlength : offset + count * kFrameBytes ≤ bytes.length) :
    ∃ frames, all = before ++ frames ∧ frames.length = count ∧
      encodeFrames (before.map PublishedSnapshot.generation) frames =
        some ((bytes.drop offset).take (count * kFrameBytes)) := by
  induction count generalizing offset before with
  | zero =>
    obtain rfl := Option.some.inj h
    refine ⟨[], (List.append_nil _).symm, rfl, ?_⟩
    rw [Nat.zero_mul]
    rfl
  | succ count ih =>
    rw [Nat.add_mul, Nat.one_mul] at hlength
    rw [decodeFrames] at h
    simp only at h
    cases hstatus : decodeStatus (bytes.getD (offset + 8) 0) with
    | none =>
      simp only [hstatus] at h
      cases h
    | some status =>
      simp only [hstatus] at h
      split at h
      · cases h
      next hmarks =>
      split at h
      · cases h
      next hpayload =>
      simp only [not_or, not_not, ne_eq] at hmarks hpayload
      obtain ⟨hzero, hreserved, hcount, hnew⟩ := hmarks
      obtain ⟨frames, hall, hmany, hframes⟩ := ih h (by omega)
      have hframe := encodeFrame_frameAt bytes offset (by omega)
        (by rw [hstatus, ← hpayload]; rfl) hreserved hcount
      refine ⟨frameAt bytes offset :: frames, ?_, ?_, ?_⟩
      · rw [hall, List.append_assoc]
        rfl
      · rw [List.length_cons, hmany]
      · have hnot : ¬ readU64 bytes offset ∈ before.map PublishedSnapshot.generation := by
          intro hmem
          obtain ⟨other, hother, heq⟩ := List.mem_map.mp hmem
          exact hnew (List.any_eq_true.mpr ⟨other, hother, decide_eq_true heq⟩)
        rw [List.map_append] at hframes
        rw [encodeFrames]
        show (if readU64 bytes offset = 0 then none
          else if readU64 bytes offset ∈ before.map PublishedSnapshot.generation then none
          else (encodeFrames (before.map PublishedSnapshot.generation ++ [readU64 bytes offset])
            frames).map (encodeFrame (frameAt bytes offset) ++ ·)) = _
        rw [if_neg hzero, if_neg hnot]
        refine (congrArg (Option.map _) hframes).trans ?_
        rw [Option.map_some, hframe, slice_append_slice, Nat.add_mul, Nat.one_mul,
          Nat.add_comm kFrameBytes]

/-! ### Files written back -/

theorem timestampMilliseconds_decodeTime {count : UInt64}
    (h : count.toNat ≤ (2 ^ 63 - 1) / 1000000) :
    timestampMilliseconds (decodeTime count) = some count := by
  have hdiv : (decodeTime count).tdiv 1000000 = count.toNat := by
    rw [decodeTime_of_lt (by omega), Int.mul_tdiv_cancel _ (by decide)]
  rw [timestampMilliseconds, hdiv, if_neg (by omega), Int.toNat_natCast, UInt64.ofNat_toNat]

theorem encodeHeader_bundleOf {bytes : Bytes} {frames : List PublishedSnapshot}
    (h : HeaderAccepted bytes) (hframes : frames.length = (readU16 bytes 50).toNat)
    (hlength : kHeaderBytes ≤ bytes.length) :
    encodeHeader (readU64 bytes 6) (bundleOf bytes frames) = bytes.take kHeaderBytes := by
  have hlong : 54 ≤ bytes.length := hlength
  obtain ⟨h24, h25, h52, h53⟩ := h.reserved
  have hflag : (if (bundleOf bytes frames).isPartial then 1 else 0) = bytes.getD 23 0 := by
    have hle : bytes.getD 23 0 = 0 ∨ bytes.getD 23 0 = 1 := by
      have hflag := h.flag
      rw [UInt8.lt_iff_toNat_lt] at hflag
      rcases Nat.le_one_iff_eq_zero_or_eq_one.mp (Nat.not_lt.mp hflag) with hzero | hone
      · exact .inl (UInt8.toNat.inj hzero)
      · exact .inr (UInt8.toNat.inj hone)
    show (if decide (bytes.getD 23 0 ≠ 0) = true then 1 else 0) = _
    rcases hle with hle | hle <;> rw [hle] <;> rfl
  have hmarks : [(bundleOf bytes frames).reasonMask, if (bundleOf bytes frames).isPartial then 1 else 0] =
      (bytes.drop 22).take 2 := by
    rw [hflag, slice_two (by omega)]
    rfl
  have hreserved : ∀ offset, offset + 2 ≤ bytes.length → bytes.getD offset 0 = 0 →
      bytes.getD (offset + 1) 0 = 0 → appendU16 0 = (bytes.drop offset).take 2 := by
    intro offset hoffset hfirst hsecond
    rw [slice_two hoffset, hfirst, hsecond]
    rfl
  have hcount : appendU16 (UInt16.ofNat (bundleOf bytes frames).frames.length) =
      (bytes.drop 50).take 2 := by
    show appendU16 (UInt16.ofNat frames.length) = _
    rw [hframes, UInt16.ofNat_toNat, appendU16_readU16 (by omega)]
  have hstrong : encodeStats (bundleOf bytes frames).strong =
      (bytes.drop 26).take 4 ++ (bytes.drop 30).take 4 ++ (bytes.drop 34).take 4 := by
    show appendU32 (readU32 bytes 26) ++ appendI32 (readI32 bytes 30) ++
      appendI32 (readI32 bytes 34) = _
    rw [appendU32_readU32 (by omega), appendI32_readI32 (by omega), appendI32_readI32 (by omega)]
  have hsudden : encodeStats (bundleOf bytes frames).sudden =
      (bytes.drop 38).take 4 ++ (bytes.drop 42).take 4 ++ (bytes.drop 46).take 4 := by
    show appendU32 (readU32 bytes 38) ++ appendI32 (readI32 bytes 42) ++
      appendI32 (readI32 bytes 46) = _
    rw [appendU32_readU32 (by omega), appendI32_readI32 (by omega), appendI32_readI32 (by omega)]
  have hid : appendU64 (bundleOf bytes frames).id = (bytes.drop 14).take 8 :=
    appendU64_readU64 (by omega)
  -- the fields are the bytes from the start up to the end of the header, piece by piece
  calc encodeHeader (readU64 bytes 6) (bundleOf bytes frames)
      = bytes.take 4 ++ (bytes.drop 4).take 2 ++ (bytes.drop 6).take 8 ++ (bytes.drop 14).take 8 ++
          (bytes.drop 22).take 2 ++ (bytes.drop 24).take 2 ++ (bytes.drop 26).take 4 ++
          (bytes.drop 30).take 4 ++ (bytes.drop 34).take 4 ++ (bytes.drop 38).take 4 ++
          (bytes.drop 42).take 4 ++ (bytes.drop 46).take 4 ++ (bytes.drop 50).take 2 ++
          (bytes.drop 52).take 2 := by
        rw [encodeHeader, hmarks, hcount, hstrong, hsudden, hid, ← h.version, ← h.magic,
          appendU16_readU16 (by omega), appendU64_readU64 (by omega)]
        nth_rewrite 1 [hreserved 24 (by omega) h24 h25]
        rw [hreserved 52 (by omega) h52 h53]
        simp only [List.append_assoc]
    _ = bytes.take kHeaderBytes := by
        simp only [take_append_slice]
        rfl

theorem encodeBundle_decodeBundle {bytes : Bytes} {bundle : EventBundle}
    (h : decodeBundle bytes = some bundle)
    (htime : (readU64 bytes 6).toNat ≤ (2 ^ 63 - 1) / 1000000) :
    encodeBundle bundle = some (readU64 bytes 6, bytes) := by
  obtain ⟨haccepted, frames, hframes, rfl⟩ := decodeBundle_eq_some.mp h
  have hlength := haccepted.length
  obtain ⟨frames', hall, hcount, hencoded⟩ :=
    encodeFrames_decodeFrames hframes (by rw [hlength]; exact Nat.le_add_right _ _)
  obtain rfl : frames = frames' := hall
  have hheader := encodeHeader_bundleOf haccepted hcount
    (by rw [hlength, Nat.add_assoc]; exact Nat.le_add_right _ _)
  have hvalid : bundleIsValid (bundleOf bytes frames) = true := by
    have hsome : frames.isEmpty = false := by
      rw [List.isEmpty_eq_false_iff]
      intro hnil
      rw [hnil] at hcount
      exact haccepted.some_frames hcount.symm
    have hfew : frames.length ≤ kMaxEventFrames := hcount ▸ haccepted.few_frames
    simp only [bundleIsValid, Bool.and_eq_true, decide_eq_true_eq, Bool.not_eq_true']
    exact ⟨⟨⟨⟨⟨⟨haccepted.id, haccepted.mask⟩, haccepted.reasons⟩, hsome⟩, hfew⟩,
      haccepted.strong⟩, haccepted.sudden⟩
  have hbody : bytes.take kHeaderBytes ++
      (bytes.drop kHeaderBytes).take ((readU16 bytes 50).toNat * kFrameBytes) =
        bytes.take (bytes.length - kCrcBytes) := by
    rw [take_append_slice, hlength, Nat.add_sub_cancel]
  have hcrc : appendU32 (crc32 (bytes.take (bytes.length - kCrcBytes))) =
      bytes.drop (bytes.length - kCrcBytes) := by
    have hlong : 4 ≤ bytes.length := by
      rw [hlength]
      exact Nat.le_add_left _ _
    rw [haccepted.crc, appendU32_readU32 (by rw [kCrcBytes]; omega), List.take_of_length_le]
    rw [List.length_drop, kCrcBytes]
    omega
  rw [encodeBundle]
  have hutc : timestampMilliseconds (bundleOf bytes frames).firstTriggeredAtUtc =
      some (readU64 bytes 6) := timestampMilliseconds_decodeTime htime
  have hfile : encodeFrames [] (bundleOf bytes frames).frames =
      some ((bytes.drop kHeaderBytes).take ((readU16 bytes 50).toNat * kFrameBytes)) := hencoded
  simp only [hutc, hvalid, hfile, hheader, hbody]
  rw [Bool.not_true, if_neg Bool.false_ne_true, if_neg, hcrc, List.take_append_drop]
  have hmany : (bundleOf bytes frames).frames.length = (readU16 bytes 50).toNat := hcount
  rw [not_not, List.length_take, hmany, hlength]
  omega

/-- What is saved is read back, and what is read is saved as it was. -/
theorem event_file_round_trip :
    (∀ bundle milliseconds bytes, ClockCount bundle.firstTriggeredAtUtc →
      (∀ frame ∈ bundle.frames, frame.payload = parsePd1000Registers frame.payload.rawRegisters) →
      encodeBundle bundle = some (milliseconds, bytes) →
        ∃ read, decodeBundle bytes = some read ∧ read.id = bundle.id ∧
          read.reasonMask = bundle.reasonMask ∧ read.isPartial = bundle.isPartial ∧
          read.strong = bundle.strong ∧ read.sudden = bundle.sudden ∧
          read.firstTriggeredAtUtc = bundle.firstTriggeredAtUtc.tdiv 1000000 * 1000000 ∧
          read.frames.map (fun frame => (frame.generation, frame.payload)) =
            bundle.frames.map (fun frame => (frame.generation, frame.payload))) ∧
    ∀ bytes read, decodeBundle bytes = some read →
      (readU64 bytes 6).toNat ≤ (2 ^ 63 - 1) / 1000000 →
        ∃ milliseconds, encodeBundle read = some (milliseconds, bytes) := by
  constructor
  · intro bundle milliseconds bytes htime hparsed hbytes
    refine ⟨storedBundle bundle, decodeBundle_encodeBundle hbytes htime hparsed, rfl, rfl, rfl, rfl,
      rfl, rfl, ?_⟩
    show (bundle.frames.map storedFrame).map _ = _
    rw [List.map_map]
    rfl
  · intro bytes read hread htime
    exact ⟨_, encodeBundle_decodeBundle hread htime⟩

end Uhf.Storage
