/-
What the checksums notice (`modbus_crc16`, `crc32`).

The CRC of the serial line and that of the files are shift registers of different widths.  Both
checks go over a message and compare the register with the bytes behind it.

* `modbusCrc16_withCrc` — a frame with its CRC behind it comes to zero;
* `crc_detection` — an error that is not longer than the checksum is noticed.
-/
import UhfGateway.Codes.ShiftRegister
import UhfGateway.Storage.FrameFile

namespace Uhf.Storage

open Codes Domain Acquisition

/-! ### The registers -/

/-- The polynomials of `modbus_crc16` and of `crc32`. -/
def crc16Poly : BitVec 16 := 0xA001#16
def crc32Poly : BitVec 32 := 0xEDB88320#32

theorem iterate_toBitVec {α β : Type} {f : α → α} {g : β → β} (toBits : α → β)
    (h : ∀ c, toBits (f c) = g (toBits c)) (n : ℕ) (c : α) :
    toBits (Nat.repeat f n c) = g^[n] (toBits c) := by
  induction n with
  | zero => rfl
  | succ n ih => rw [Nat.repeat, h, ih, Function.iterate_succ_apply']

theorem lowBit_iff {w : ℕ} (c : BitVec (w + 1)) :
    c &&& 1#(w + 1) ≠ 0#(w + 1) ↔ c.getLsbD 0 = true := by
  rw [BitVec.and_one_eq_setWidth_ofBool_getLsbD]
  cases c.getLsbD 0 <;> simp

theorem crcBit_toBitVec (c : UInt16) : (crcBit c).toBitVec = shiftBit crc16Poly c.toBitVec := by
  have hbit : c &&& 1 ≠ 0 ↔ c.toBitVec.getLsbD 0 = true := by
    rw [← lowBit_iff, ne_eq, ne_eq, ← UInt16.toBitVec_inj, UInt16.toBitVec_and]
    rfl
  rw [crcBit, shiftBit]
  by_cases h : c &&& 1 ≠ 0
  · rw [if_pos h, if_pos (hbit.mp h), UInt16.toBitVec_xor, UInt16.toBitVec_shiftRight]
    rfl
  · rw [if_neg h, if_neg (mt hbit.mpr h), UInt16.toBitVec_shiftRight]
    rfl

theorem crc32Bit_toBitVec (c : UInt32) : (crc32Bit c).toBitVec = shiftBit crc32Poly c.toBitVec := by
  have hbit : c &&& 1 ≠ 0 ↔ c.toBitVec.getLsbD 0 = true := by
    rw [← lowBit_iff, ne_eq, ne_eq, ← UInt32.toBitVec_inj, UInt32.toBitVec_and]
    rfl
  rw [crc32Bit, shiftBit]
  by_cases h : c &&& 1 ≠ 0
  · rw [if_pos h, if_pos (hbit.mp h), UInt32.toBitVec_xor, UInt32.toBitVec_shiftRight]
    rfl
  · rw [if_neg h, if_neg (mt hbit.mpr h), UInt32.toBitVec_shiftRight]
    rfl

theorem crcByte_toBitVec (c : UInt16) (byte : UInt8) :
    (crcByte c byte).toBitVec = absorb crc16Poly c.toBitVec byte := by
  rw [crcByte, iterate_toBitVec UInt16.toBitVec crcBit_toBitVec, UInt16.toBitVec_xor]
  rfl

theorem crc32Byte_toBitVec (c : UInt32) (byte : UInt8) :
    (crc32Byte c byte).toBitVec = absorb crc32Poly c.toBitVec byte := by
  rw [crc32Byte, iterate_toBitVec UInt32.toBitVec crc32Bit_toBitVec, UInt32.toBitVec_xor]
  rfl

theorem modbusCrc16_toBitVec (data : Bytes) :
    (modbusCrc16 data).toBitVec = register crc16Poly 0xFFFF#16 data :=
  (List.foldl_hom UInt16.toBitVec fun c byte => (crcByte_toBitVec c byte).symm).symm

theorem crc32_toBitVec (data : Bytes) :
    (crc32 data).toBitVec = register crc32Poly 0xFFFFFFFF#32 data ^^^ 0xFFFFFFFF#32 := by
  have hfold : (data.foldl crc32Byte 0xFFFFFFFF).toBitVec =
      register crc32Poly 0xFFFFFFFF#32 data :=
    (List.foldl_hom UInt32.toBitVec fun c byte => (crc32Byte_toBitVec c byte).symm).symm
  rw [crc32, UInt32.toBitVec_xor, hfold]
  rfl

/-! ### Numbers as bits -/

theorem getLsbD_ofNat_byte (value : ℕ) {i : ℕ} (h : i < 8) :
    (UInt8.ofNat value).toBitVec.getLsbD i = value.testBit i := by
  rw [UInt8.toBitVec_ofNat', BitVec.getLsbD_ofNat, decide_eq_true h, Bool.true_and]

theorem getD_messageBits_littleEndian (width value i : ℕ) :
    (messageBits (littleEndian width value)).getD i false =
      (decide (i < 8 * width) && value.testBit i) := by
  induction width with
  | zero => simp [littleEndian, messageBits]
  | succ width ih =>
    have hlength : (messageBits (littleEndian width value)).length = 8 * width := by
      rw [length_messageBits, length_littleEndian]
    have hlast : messageBits (littleEndian (width + 1) value) =
        messageBits (littleEndian width value) ++ byteBits (UInt8.ofNat (value / 256 ^ width)) := by
      rw [littleEndian_succ, messageBits, List.flatMap_append, List.flatMap_singleton]
      rfl
    rw [hlast]
    by_cases hlow : i < 8 * width
    · rw [List.getD_append _ _ _ _ (hlength ▸ hlow), ih, decide_eq_true hlow,
        decide_eq_true (by omega)]
    · rw [List.getD_append_right _ _ _ _ (by omega), hlength]
      by_cases hhigh : i < 8 * (width + 1)
      · have hpow : 256 ^ width = 2 ^ (8 * width) := by rw [Nat.pow_mul]
        rw [byteBits, List.getD_eq_getElem _ _ (by simp; omega), List.getElem_map,
          List.getElem_range, getLsbD_ofNat_byte _ (by omega), hpow, Nat.testBit_div_two_pow,
          decide_eq_true hhigh, Bool.true_and]
        congr 1
        omega
      · rw [List.getD_eq_default _ _ (by simp [byteBits]; omega), decide_eq_false hhigh,
          Bool.false_and]

theorem word_appendU16 (value : UInt16) :
    word 16 (messageBits (appendU16 value)) = value.toBitVec := by
  apply BitVec.eq_of_getLsbD_eq
  intro i hi
  rw [getLsbD_word, appendU16, getD_messageBits_littleEndian, decide_eq_true hi]
  rfl

theorem word_appendU32 (value : UInt32) :
    word 32 (messageBits (appendU32 value)) = value.toBitVec := by
  apply BitVec.eq_of_getLsbD_eq
  intro i hi
  rw [getLsbD_word, appendU32, getD_messageBits_littleEndian, decide_eq_true hi]
  rfl

/-! ### The checks -/

theorem receivedCrc_eq (frame : Bytes) (h : 2 ≤ frame.length) :
    receivedCrc frame = readU16 frame (frame.length - 2) := by
  have hfirst := (readLittleEndian_lt 0 frame (frame.length - 2)).2
  have hsecond := (readLittleEndian_lt 1 frame (frame.length - 2)).2
  have hnone : readLittleEndian 0 frame (frame.length - 2) = 0 := rfl
  have hlast : frame.length - 2 + 1 = frame.length - 1 := by omega
  rw [hlast] at hsecond
  have hstart : frame.length - 2 + 0 = frame.length - 2 := rfl
  rw [hstart] at hfirst
  apply UInt16.toNat.inj
  rw [readU16, UInt16.toNat_ofNat_of_lt' (readLittleEndian_lt 2 frame _).1, hsecond, hfirst, hnone,
    receivedCrc, UInt16.or_comm, ← bigEndian, toNat_bigEndian]
  omega

theorem crcMatches_iff {frame : Bytes} (h : 2 ≤ frame.length) :
    CrcMatches frame ↔ Passes crc16Poly 0xFFFF#16 0#16 2 frame := by
  have hinside : frame.length - 2 + 2 ≤ frame.length := by omega
  have hslice := appendU16_readU16 hinside
  have htail : (frame.drop (frame.length - 2)).length = 2 := by
    rw [List.length_drop]
    omega
  rw [List.take_of_length_le (Nat.le_of_eq htail)] at hslice
  rw [CrcMatches, Passes, BitVec.xor_zero, ← hslice, word_appendU16, ← modbusCrc16_toBitVec,
    receivedCrc_eq frame h, UInt16.toBitVec_inj]

theorem crc32_matches_iff {bytes : Bytes} (h : 4 ≤ bytes.length) :
    crc32 (bytes.take (bytes.length - 4)) = readU32 bytes (bytes.length - 4) ↔
      Passes crc32Poly 0xFFFFFFFF#32 0xFFFFFFFF#32 4 bytes := by
  have hinside : bytes.length - 4 + 4 ≤ bytes.length := by omega
  have hslice := appendU32_readU32 hinside
  have htail : (bytes.drop (bytes.length - 4)).length = 4 := by
    rw [List.length_drop]
    omega
  rw [List.take_of_length_le (Nat.le_of_eq htail)] at hslice
  rw [Passes, ← crc32_toBitVec, ← hslice, word_appendU32, UInt32.toBitVec_inj]

theorem crc16Poly_msb : crc16Poly.msb = true := rfl

theorem crc32Poly_msb : crc32Poly.msb = true := rfl

theorem modbusCrc16_withCrc (message : Bytes) : modbusCrc16 (withCrc message) = 0 := by
  have hlength : 2 ≤ (withCrc message).length := by
    rw [length_withCrc]
    omega
  have hpasses := (crcMatches_iff hlength).mp (crcMatches_withCrc message)
  rw [passes_iff crc16Poly_msb (by decide) rfl hlength, iterate_zero] at hpasses
  rw [← UInt16.toBitVec_inj, modbusCrc16_toBitVec, hpasses]
  rfl

theorem not_crcMatches_altered {frame error : Bytes} (hlength : 2 ≤ frame.length)
    (h : CrcMatches frame) (herror : error.length = frame.length)
    (hburst : Burst 16 (messageBits error)) : ¬ CrcMatches (altered frame error) := by
  have hshort : 2 ≤ (altered frame error).length := length_altered herror ▸ hlength
  rw [crcMatches_iff hlength] at h
  rw [crcMatches_iff hshort]
  exact h.not_altered crc16Poly_msb (by decide) rfl hlength herror hburst

theorem crc32_altered {bytes error : Bytes} (hlength : 4 ≤ bytes.length)
    (h : crc32 (bytes.take (bytes.length - 4)) = readU32 bytes (bytes.length - 4))
    (herror : error.length = bytes.length) (hburst : Burst 32 (messageBits error)) :
    crc32 ((altered bytes error).take ((altered bytes error).length - 4)) ≠
      readU32 (altered bytes error) ((altered bytes error).length - 4) := by
  have hshort : 4 ≤ (altered bytes error).length := length_altered herror ▸ hlength
  rw [crc32_matches_iff hlength] at h
  rw [ne_eq, crc32_matches_iff hshort]
  exact h.not_altered crc32Poly_msb (by decide) rfl hlength herror hburst

/-! ### Files -/

/-- The halves of a checksum are written one after the other, as the whole number would be. -/
theorem appendChecksum_eq (checksum : UInt32) : appendChecksum checksum = appendU32 checksum := by
  have hmask : checksum.toNat &&& 65535 = checksum.toNat % 65536 :=
    Nat.and_two_pow_sub_one_eq_mod checksum.toNat 16
  have hlow : (checksum &&& 0xFFFF).toUInt16.toNat = checksum.toNat % 65536 := by
    rw [UInt32.toNat_toUInt16, UInt32.toNat_and, show (0xFFFF : UInt32).toNat = 65535 from rfl,
      hmask]
    omega
  have hhigh : (checksum >>> 16).toUInt16.toNat = checksum.toNat / 65536 := by
    have hlt := checksum.toNat_lt
    simp only [UInt32.toNat_toUInt16, UInt32.toNat_shiftRight, UInt32.reduceToNat, Nat.reduceMod,
      Nat.shiftRight_eq_div_pow, Nat.reducePow]
    omega
  have hbyte : ∀ {first second : ℕ}, first % 256 = second % 256 →
      UInt8.ofNat first = UInt8.ofNat second := by
    intro first second h
    apply UInt8.toNat.inj
    rw [UInt8.toNat_ofNat', UInt8.toNat_ofNat']
    exact h
  rw [appendChecksum, appendU16, appendU16, hlow, hhigh, appendU32]
  simp only [littleEndian, List.range_succ, List.range_zero, List.nil_append, List.cons_append,
    List.map_cons, List.map_nil, List.cons.injEq, and_true]
  refine ⟨hbyte ?_, hbyte ?_, hbyte ?_, hbyte ?_⟩ <;> omega

theorem readChecksum_eq {bytes : Bytes} {offset : ℕ} (h : offset + 4 ≤ bytes.length) :
    readChecksum bytes offset = readU32 bytes offset := by
  have hdrop : bytes.drop offset =
      appendChecksum (readU32 bytes offset) ++ (bytes.drop offset).drop 4 := by
    rw [appendChecksum_eq, appendU32_readU32 h, List.take_append_drop]
  exact readChecksum_of_drop hdrop

theorem checked_appendU32 {body bytes : Bytes} (h : bytes = body ++ appendU32 (crc32 body)) :
    4 ≤ bytes.length ∧
      crc32 (bytes.take (bytes.length - 4)) = readU32 bytes (bytes.length - 4) := by
  have hlength : bytes.length = body.length + 4 := by
    rw [h, List.length_append, appendU32, length_littleEndian]
  have hcut : bytes.length - 4 = body.length := by omega
  have hdrop : bytes.drop body.length = appendU32 (crc32 body) ++ [] := by
    rw [h, List.drop_left, List.append_nil]
  refine ⟨by omega, ?_⟩
  rw [hcut, readU32_of_drop body.length hdrop, h, List.take_left]

/-- A file of a frame keeps the checksum that it has been given. -/
theorem encodeRecord_checked {snapshot : PublishedSnapshot} {timestamp : Nanoseconds}
    {milliseconds : UInt64} {bytes : Bytes}
    (h : encodeRecord snapshot timestamp = some (milliseconds, bytes)) :
    4 ≤ bytes.length ∧
      crc32 (bytes.take (bytes.length - 4)) = readU32 bytes (bytes.length - 4) := by
  obtain ⟨-, hbytes⟩ := encodeRecord_eq_some.mp h
  rw [appendChecksum_eq] at hbytes
  exact checked_appendU32 hbytes

/-- And a file of an event. -/
theorem encodeBundle_checked {bundle : EventBundle} {milliseconds : UInt64} {bytes : Bytes}
    (h : encodeBundle bundle = some (milliseconds, bytes)) :
    4 ≤ bytes.length ∧
      crc32 (bytes.take (bytes.length - 4)) = readU32 bytes (bytes.length - 4) := by
  obtain ⟨-, -, frames, -, hbytes⟩ := encodeBundle_cases h
  rw [← List.append_assoc] at hbytes
  exact checked_appendU32 hbytes

theorem decodeRecord_unchecked {bytes : Bytes}
    (h : crc32 (bytes.take (bytes.length - 4)) ≠ readChecksum bytes (bytes.length - 4)) :
    decodeRecord bytes = none := by
  rw [decodeRecord, if_pos h, ite_self, ite_self]

theorem decodeBundle_unchecked {bytes : Bytes}
    (h : crc32 (bytes.take (bytes.length - 4)) ≠ readU32 bytes (bytes.length - 4)) :
    decodeBundle bytes = none := by
  rw [Option.eq_none_iff_forall_ne_some]
  intro bundle hread
  obtain ⟨haccepted, -⟩ := decodeBundle_eq_some.mp hread
  exact h haccepted.crc

/-- A frame with its CRC behind it comes to zero, and neither a frame on the line nor a file that
has been stored passes its check with an error that is not longer than the checksum. -/
theorem crc_detection :
    (∀ message, modbusCrc16 (withCrc message) = 0) ∧
    (∀ message error, error.length = (withCrc message).length → Burst 16 (messageBits error) →
      ¬ CrcMatches (altered (withCrc message) error)) ∧
    (∀ snapshot timestamp milliseconds bytes error,
      encodeRecord snapshot timestamp = some (milliseconds, bytes) →
      error.length = bytes.length → Burst 32 (messageBits error) →
      crc32 ((altered bytes error).take ((altered bytes error).length - 4)) ≠
          readChecksum (altered bytes error) ((altered bytes error).length - 4) ∧
        decodeRecord (altered bytes error) = none) ∧
    (∀ bundle milliseconds bytes error, encodeBundle bundle = some (milliseconds, bytes) →
      error.length = bytes.length → Burst 32 (messageBits error) →
      crc32 ((altered bytes error).take ((altered bytes error).length - 4)) ≠
          readU32 (altered bytes error) ((altered bytes error).length - 4) ∧
        decodeBundle (altered bytes error) = none) := by
  refine ⟨modbusCrc16_withCrc, ?_, ?_, ?_⟩
  · intro message error herror hburst
    have hlength : 2 ≤ (withCrc message).length := by
      rw [length_withCrc]
      omega
    exact not_crcMatches_altered hlength (crcMatches_withCrc message) herror hburst
  · intro snapshot timestamp milliseconds bytes error h herror hburst
    obtain ⟨hlength, hchecked⟩ := encodeRecord_checked h
    have haltered : 4 ≤ (altered bytes error).length := length_altered herror ▸ hlength
    have hwrong := crc32_altered hlength hchecked herror hburst
    rw [← readChecksum_eq (by omega)] at hwrong
    exact ⟨hwrong, decodeRecord_unchecked hwrong⟩
  · intro bundle milliseconds bytes error h herror hburst
    obtain ⟨hlength, hchecked⟩ := encodeBundle_checked h
    have hwrong := crc32_altered hlength hchecked herror hburst
    exact ⟨hwrong, decodeBundle_unchecked hwrong⟩

end Uhf.Storage
