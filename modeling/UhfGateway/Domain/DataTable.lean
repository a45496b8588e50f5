/-
The data table of the PD1000 and what the parser makes of an image.

The table gives a type and a range for each of the first five registers, and the spectrum is an
array of signed points with two reserved codes.  `MeetsDataTable` says that a snapshot is the
reading of an image by that table; the parser applies the reserved codes to every measurement, also
to the one the table lets have all words.

* `meetsDataTable_iff` — for which images the parser reads the table.
-/
import UhfGateway.Domain.Snapshot

namespace Uhf.Domain

/-! ### The table -/

/-- A register of the table: its type and its range. -/
structure DataRow where
  signed : Bool
  minimum : Int
  maximum : Int
  deriving DecidableEq, Repr

/-- The rows of the addresses 10001 to 10005. -/
def dataTable : List DataRow :=
  [⟨true, -70, 15⟩, ⟨false, 0, 65535⟩, ⟨true, -70, 15⟩, ⟨false, 0, 360⟩, ⟨false, 0, 4096⟩]

/-- The number a word stands for. -/
def DataRow.reading (row : DataRow) (raw : UInt16) : Int :=
  if row.signed then raw.toInt16.toInt else raw.toNat

/-- A word with one of the reserved codes. -/
def Reserved (raw : UInt16) : Prop := raw = kInvalidDataMarker ∨ raw = kNotRefreshedMarker

/-- The reading is in range, and a signed word is not one of the reserved codes. -/
def DataRow.Valid (row : DataRow) (raw : UInt16) : Prop :=
  (row.minimum ≤ row.reading raw ∧ row.reading raw ≤ row.maximum) ∧
    (row.signed = true → ¬ Reserved raw)

/-- The measurement is the reading of a word by a row. -/
structure DataRow.Reads (row : DataRow) (word : UInt16) (m : Measurement) : Prop where
  raw : m.raw = word
  value : m.value = row.reading word
  valid : m.valid = true ↔ row.Valid word

/-- A point of the spectrum. -/
def pointRow : DataRow := ⟨true, -70, 15⟩

/-- The word at an index of the image. -/
def Registers.word (raw : Registers) (index : ℕ) : UInt16 := raw[index]?.getD 0

/-- The snapshot is the reading of the image by the table. -/
structure MeetsDataTable (raw : Registers) (s : ParsedSnapshot) : Prop where
  rawRegisters : s.rawRegisters = raw
  measurement : ∀ (index : Fin 5) (row : DataRow), dataTable[index.val]? = some row →
    row.Reads (raw.word index) (s.measurements.get index)
  point : ∀ index : Fin kPd1000SpectrumPointCount,
    s.spectrum.get index = pointRow.reading (raw.word (kPd1000SpectrumOffset + index)) ∧
      (s.spectrumValid.get index = true ↔ pointRow.Valid (raw.word (kPd1000SpectrumOffset + index)))
  notRefreshed : s.payloadStatus = .notRefreshed ↔
    ∀ index : Fin kPd1000SpectrumPointCount,
      raw.word (kPd1000SpectrumOffset + index) = kNotRefreshedMarker
  degraded : s.payloadStatus = .degraded ↔ s.payloadStatus ≠ .notRefreshed ∧
    ((∃ index, s.spectrumValid.get index = false) ∨ ∃ index, (s.measurements.get index).valid = false)

/-! ### Words -/

theorem decodeInt16_eq (raw : UInt16) : decodeInt16 raw = raw.toInt16.toInt := by
  have htoInt : raw.toInt16.toInt = raw.toBitVec.toInt := rfl
  have hlt := raw.toNat_lt
  have hnat : raw.toBitVec.toNat = raw.toNat := rfl
  have hle : raw ≤ 0x7FFF ↔ raw.toNat ≤ 32767 := UInt16.le_iff_toNat_le
  rw [htoInt, decodeInt16, BitVec.toInt_eq_toNat_cond, hnat]
  by_cases h : raw ≤ 0x7FFF
  · rw [if_pos h, if_pos (by have := hle.mp h; omega)]
  · rw [if_neg h, if_neg (by have := mt hle.mpr h; omega)]
    omega

theorem isReserved_iff (raw : UInt16) : isReserved raw = true ↔ Reserved raw := by
  rw [isReserved, Bool.or_eq_true, decide_eq_true_eq, decide_eq_true_eq, Reserved]

theorem signedMeasurement_reads (raw : UInt16) (minimum maximum : Int) :
    DataRow.Reads ⟨true, minimum, maximum⟩ raw (signedMeasurement raw minimum maximum) := by
  refine ⟨rfl, decodeInt16_eq raw, ?_⟩
  simp only [signedMeasurement, DataRow.Valid, DataRow.reading, if_true, ← decodeInt16_eq,
    Bool.and_eq_true, Bool.not_eq_true', decide_eq_true_eq, ← isReserved_iff, Bool.not_eq_true,
    forall_const]
  exact and_comm

theorem unsignedMeasurement_valid (raw : UInt16) (maximum : ℕ) :
    (unsignedMeasurement raw 0 maximum).valid = true ↔
      DataRow.Valid ⟨false, 0, maximum⟩ raw ∧ ¬ Reserved raw := by
  simp only [unsignedMeasurement, DataRow.Valid, DataRow.reading, Bool.and_eq_true,
    Bool.not_eq_true', decide_eq_true_eq, ← isReserved_iff, Bool.not_eq_true]
  constructor
  · rintro ⟨hreserved, -, hle⟩
    exact ⟨⟨⟨by simp, by simpa using hle⟩, by simp⟩, hreserved⟩
  · rintro ⟨⟨⟨-, hle⟩, -⟩, hreserved⟩
    exact ⟨hreserved, Nat.zero_le _, by simpa using hle⟩

/-- An unsigned measurement is read by its row where a valid word is not a reserved code. -/
theorem unsignedMeasurement_reads {raw : UInt16} {maximum : ℕ}
    (h : DataRow.Valid ⟨false, 0, maximum⟩ raw → ¬ Reserved raw) :
    DataRow.Reads ⟨false, 0, maximum⟩ raw (unsignedMeasurement raw 0 maximum) := by
  refine ⟨rfl, rfl, ?_⟩
  rw [unsignedMeasurement_valid]
  exact and_iff_left_of_imp h

/-- The table lets the frequency have every word. -/
theorem every_frequency_valid (raw : UInt16) : DataRow.Valid ⟨false, 0, 65535⟩ raw := by
  have hlt := raw.toNat_lt
  refine ⟨⟨by simp [DataRow.reading], ?_⟩, by simp⟩
  show (raw.toNat : Int) ≤ 65535
  omega

/-- Below the reserved codes a range excludes them by itself. -/
theorem valid_not_reserved {maximum : ℕ} (hmax : maximum < 0xFFBA) {raw : UInt16}
    (h : DataRow.Valid ⟨false, 0, maximum⟩ raw) : ¬ Reserved raw := by
  have hle : (raw.toNat : Int) ≤ maximum := h.1.2
  intro hreserved
  have hnat : 0xFFBA ≤ raw.toNat := by
    rcases hreserved with rfl | rfl
    · decide
    · decide
  omega

theorem validPoint_iff (raw : UInt16) : validPoint raw = true ↔ pointRow.Valid raw :=
  (signedMeasurement_reads raw (-70) 15).valid

theorem word_get (raw : Registers) (index : Fin kPd1000RegisterCount) :
    raw.get index = raw.word index := by
  rw [Registers.word, Vector.getElem?_eq_getElem index.isLt]
  rfl

/-! ### The parser -/

section Parser

variable (raw : Registers)

/-- The five measurements of an image. -/
theorem parsed_measurements :
    (parsePd1000Registers raw).measurements.toList =
      [signedMeasurement (raw.word 0) (-70) 15, unsignedMeasurement (raw.word 1) 0 65535,
        signedMeasurement (raw.word 2) (-70) 15, unsignedMeasurement (raw.word 3) 0 360,
        unsignedMeasurement (raw.word 4) 0 4096] := by
  simp only [parsePd1000Registers, word_get]
  rfl

theorem parsed_measurement (index : Fin 5) {m : Measurement}
    (h : (parsePd1000Registers raw).measurements.toList[index.val]? = some m) :
    (parsePd1000Registers raw).measurements.get index = m := by
  rw [Vector.getElem?_toList, Vector.getElem?_eq_getElem index.isLt] at h
  exact Option.some.inj h

theorem spectrum_lt (index : Fin kPd1000SpectrumPointCount) :
    kPd1000SpectrumOffset + index.val < kPd1000RegisterCount := by
  have hlt : index.val < 3600 := index.isLt
  show 15 + index.val < 3615
  omega

/-- The word behind a point. -/
theorem points_getElem (index : Fin kPd1000SpectrumPointCount) {n : ℕ} (hn : n < kPd1000RegisterCount)
    (h : n = kPd1000SpectrumOffset + index) :
    raw.get ⟨n, hn⟩ = raw.word (kPd1000SpectrumOffset + index) := by
  subst h
  exact word_get raw _

theorem parsed_point (index : Fin kPd1000SpectrumPointCount) :
    (parsePd1000Registers raw).spectrum.get index =
        decodeInt16 (raw.word (kPd1000SpectrumOffset + index)) ∧
      (parsePd1000Registers raw).spectrumValid.get index =
        validPoint (raw.word (kPd1000SpectrumOffset + index)) := by
  constructor
  · show (Vector.map decodeInt16 (Vector.ofFn _))[index.val] = _
    rw [Vector.getElem_map, Vector.getElem_ofFn, points_getElem raw index _ rfl]
  · show (Vector.map validPoint (Vector.ofFn _))[index.val] = _
    rw [Vector.getElem_map, Vector.getElem_ofFn, points_getElem raw index _ rfl]

theorem all_points {p : UInt16 → Bool} {points : Vector UInt16 kPd1000SpectrumPointCount}
    (hpoints : ∀ index : Fin kPd1000SpectrumPointCount,
      points[index.val] = raw.word (kPd1000SpectrumOffset + index)) :
    points.all p = true ↔
      ∀ index : Fin kPd1000SpectrumPointCount, p (raw.word (kPd1000SpectrumOffset + index)) = true := by
  rw [Vector.all_eq_true]
  constructor
  · intro h index
    rw [← hpoints index]
    exact h index.val index.isLt
  · intro h n hn
    have hword := hpoints ⟨n, hn⟩
    rw [hword]
    exact h ⟨n, hn⟩

/-- The tests the status comes from. -/
theorem parsed_status :
    ∃ points : Vector UInt16 kPd1000SpectrumPointCount,
      (∀ index : Fin kPd1000SpectrumPointCount,
        points[index.val] = raw.word (kPd1000SpectrumOffset + index)) ∧
      (parsePd1000Registers raw).payloadStatus =
        if points.all (· = kNotRefreshedMarker) then .notRefreshed
        else if !points.all validPoint ||
            !(parsePd1000Registers raw).measurements.all Measurement.valid then .degraded
        else .good :=
  ⟨Vector.ofFn fun index => raw.get ⟨kPd1000SpectrumOffset + index.val, spectrum_lt index⟩,
    fun index => by rw [Vector.getElem_ofFn, points_getElem raw index _ rfl],
    by
      simp only [parsePd1000Registers]
      rfl⟩

theorem parsed_notRefreshed :
    (parsePd1000Registers raw).payloadStatus = .notRefreshed ↔
      ∀ index : Fin kPd1000SpectrumPointCount,
        raw.word (kPd1000SpectrumOffset + index) = kNotRefreshedMarker := by
  obtain ⟨points, hpoints, hstatus⟩ := parsed_status raw
  have hall := all_points raw (p := fun x => decide (x = kNotRefreshedMarker)) hpoints
  simp only [decide_eq_true_eq] at hall
  rw [hstatus, ← hall]
  by_cases hmarked : points.all (· = kNotRefreshedMarker) = true
  · simp [hmarked]
  · simp only [hmarked, Bool.false_eq_true, if_false, iff_false]
    split <;> simp

theorem parsed_degraded :
    (parsePd1000Registers raw).payloadStatus = .degraded ↔
      (parsePd1000Registers raw).payloadStatus ≠ .notRefreshed ∧
        ((∃ index, (parsePd1000Registers raw).spectrumValid.get index = false) ∨
          ∃ index, ((parsePd1000Registers raw).measurements.get index).valid = false) := by
  obtain ⟨points, hpoints, hstatus⟩ := parsed_status raw
  have hspectrum : points.all validPoint = true ↔
      ¬ ∃ index, (parsePd1000Registers raw).spectrumValid.get index = false := by
    rw [all_points raw hpoints, not_exists]
    simp only [(parsed_point raw _).2, Bool.not_eq_false]
  have hmeasured : (parsePd1000Registers raw).measurements.all Measurement.valid = true ↔
      ¬ ∃ index, ((parsePd1000Registers raw).measurements.get index).valid = false := by
    rw [Vector.all_eq_true, not_exists]
    simp only [Bool.not_eq_false]
    constructor
    · intro h index
      exact h index.val index.isLt
    · intro h n hn
      exact h ⟨n, hn⟩
  rw [hstatus]
  by_cases hmarked : points.all (· = kNotRefreshedMarker) = true
  · simp [hmarked]
  · rw [if_neg hmarked]
    by_cases hs : ∃ index, (parsePd1000Registers raw).spectrumValid.get index = false
    · rw [Bool.eq_false_iff.mpr (mt hspectrum.mp (not_not.mpr hs))]
      simp [hs]
    · rw [hspectrum.mpr hs]
      by_cases hm : ∃ index, ((parsePd1000Registers raw).measurements.get index).valid = false
      · rw [Bool.eq_false_iff.mpr (mt hmeasured.mp (not_not.mpr hm))]
        simp [hm]
      · rw [hmeasured.mpr hm]
        simp [hs, hm]

end Parser

/-! ### Which images are read by the table -/

/-- The parser reads the table exactly if the register 10002 does not hold one of the codes that
are reserved elsewhere. -/
theorem meetsDataTable_iff (raw : Registers) :
    MeetsDataTable raw (parsePd1000Registers raw) ↔ ¬ Reserved (raw.word 1) := by
  constructor
  · intro h
    have hreads := h.measurement 1 ⟨false, 0, 65535⟩ rfl
    rw [parsed_measurement raw 1 (by rw [parsed_measurements]; rfl)] at hreads
    exact ((unsignedMeasurement_valid _ _).mp (hreads.valid.mpr (every_frequency_valid _))).2
  · intro hfree
    refine ⟨rfl, ?_, ?_, parsed_notRefreshed raw, parsed_degraded raw⟩
    · intro index row hrow
      have hlist := parsed_measurements raw
      have hsigned := fun word => signedMeasurement_reads word (-70) 15
      -- one row after the other; the narrow ranges leave out the codes by themselves
      rcases index with ⟨_ | _ | _ | _ | _ | n, hn⟩
      · obtain rfl := Option.some.inj hrow
        rw [parsed_measurement raw _ (by rw [hlist]; rfl)]
        exact hsigned _
      · obtain rfl := Option.some.inj hrow
        rw [parsed_measurement raw _ (by rw [hlist]; rfl)]
        exact unsignedMeasurement_reads fun _ => hfree
      · obtain rfl := Option.some.inj hrow
        rw [parsed_measurement raw _ (by rw [hlist]; rfl)]
        exact hsigned _
      · obtain rfl := Option.some.inj hrow
        rw [parsed_measurement raw _ (by rw [hlist]; rfl)]
        exact unsignedMeasurement_reads (valid_not_reserved (by decide))
      · obtain rfl := Option.some.inj hrow
        rw [parsed_measurement raw _ (by rw [hlist]; rfl)]
        exact unsignedMeasurement_reads (valid_not_reserved (by decide))
      · omega
    · intro index
      obtain ⟨hvalue, hvalid⟩ := parsed_point raw index
      rw [hvalue, hvalid, decodeInt16_eq, validPoint_iff]
      exact ⟨rfl, Iff.rfl⟩

/-- All registers are zero but the frequency, which is 65466 discharges a second. -/
def busyImage : Registers := Vector.ofFn fun index => if index.val = 1 then kInvalidDataMarker else 0

/-- The table has that frequency, and the parser calls it invalid. -/
theorem busyImage_misread : ¬ MeetsDataTable busyImage (parsePd1000Registers busyImage) := by
  intro h
  have hword : busyImage.word 1 = kInvalidDataMarker := by
    rw [Registers.word, busyImage, Vector.getElem?_ofFn]
    rfl
  have hreads := h.measurement 1 ⟨false, 0, 65535⟩ rfl
  rw [parsed_measurement busyImage 1 (by rw [parsed_measurements]; rfl)] at hreads
  exact ((unsignedMeasurement_valid _ _).mp (hreads.valid.mpr (every_frequency_valid _))).2 (.inl hword)

end Uhf.Domain
