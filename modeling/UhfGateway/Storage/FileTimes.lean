/-
The times in the names of the files (`StorageCleaner::filename_timestamp`).

The number in a name counts milliseconds and is limited to what a count of milliseconds can hold.
The clock counts nanoseconds, and holds a millionth of that.

* `filenameTimestamp_eq_some` — which names are accepted, and what is made of them;
* `file_times_iff` — which of the accepted names are dated as they say.
-/
import UhfGateway.Storage.EventRoundTrip
import UhfGateway.Storage.StorageCleaner

namespace Uhf.Storage

open Acquisition

/-! ### Clock counts -/

/-- The greatest number of milliseconds that the clock can hold. -/
def lastMillisecond : ℕ := 9223372036854

theorem clockTicks_le (n : Int) : clockTicks n ≤ 9223372036854775807 := by
  have hhigh : n.bmod 18446744073709551616 < 9223372036854775808 := Int.bmod_lt (by decide)
  exact Int.le_of_lt_add_one hhigh

/-- A count of milliseconds is kept as long as it fits. -/
theorem clockTicks_milliseconds (n : ℕ) :
    clockTicks (milliseconds n) = milliseconds n ↔ n ≤ lastMillisecond := by
  constructor
  · intro h
    have hle := clockTicks_le (milliseconds n)
    rw [h] at hle
    have hbound : (n : Int) * 1000000 ≤ 9223372036854775807 := hle
    rw [lastMillisecond]
    omega
  · intro h
    rw [lastMillisecond] at h
    show ((n : Int) * 1000000).bmod 18446744073709551616 = (n : Int) * 1000000
    exact Int.bmod_eq_of_le (by omega) (by omega)

/-! ### Names -/

/-- The number that stands behind the prefix of a name. -/
def nameNumber (name : Bytes) : Option ℕ :=
  fromChars ((name.drop 6).takeWhile (· ≠ '-'.toUInt8))

/-- A name that is accepted, with its number. -/
structure Named (name : Bytes) (number : ℕ) : Prop where
  kind : ((ascii "frame-").isPrefixOf name || (ascii "event-").isPrefixOf name) = true
  ends : ((name.drop 6).takeWhile (· ≠ '-'.toUInt8)).length ≠ (name.drop 6).length
  written : nameNumber name = some number
  inRange : number ≤ 9223372036854775807

theorem filenameTimestamp_eq_some {name : Bytes} {time : Nanoseconds} :
    filenameTimestamp name = some time ↔
      ∃ number, Named name number ∧ time = clockTicks (milliseconds number) := by
  rw [filenameTimestamp]
  constructor
  · intro h
    rw [Option.ite_none_right_eq_some] at h
    obtain ⟨hkind, h⟩ := h
    dsimp only at h
    rw [Option.ite_none_left_eq_some] at h
    obtain ⟨hends, h⟩ := h
    split at h
    · cases h
    · next number hnumber =>
      rw [Option.ite_none_left_eq_some, Option.some.injEq] at h
      obtain ⟨hrange, htime⟩ := h
      exact ⟨number, ⟨hkind, hends, hnumber, by omega⟩, htime.symm⟩
  · rintro ⟨number, hnamed, htime⟩
    have hnumber := hnamed.written
    have hrange := hnamed.inRange
    have hfits : ¬ 9223372036854775807 < number := by omega
    rw [nameNumber] at hnumber
    rw [if_pos hnamed.kind, htime]
    dsimp only
    rw [if_neg hnamed.ends, hnumber]
    exact if_neg hfits

/-- A name as `save` composes it. -/
theorem named_written {stem : Bytes} (hstem : stem = ascii "frame-" ∨ stem = ascii "event-")
    {number : ℕ} (hnumber : number ≤ 9223372036854775807) (rest : Bytes) :
    Named (stem ++ (decimal (number : Int) ++ (ascii "-" ++ rest))) number := by
  have hdrop : (stem ++ (decimal (number : Int) ++ (ascii "-" ++ rest))).drop 6 =
      decimal (number : Int) ++ (ascii "-" ++ rest) := by
    obtain rfl | rfl := hstem <;> rfl
  have hdigits : ∀ c ∈ decimal (number : Int), decide (c ≠ '-'.toUInt8) = true := by
    intro c hc
    have hdigit := List.all_eq_true.mp (all_isDigit_decimal number) c hc
    rw [decide_eq_true_eq]
    rintro rfl
    exact absurd hdigit (by decide)
  have hhyphen : (ascii "-" ++ rest).takeWhile (fun c => decide (c ≠ '-'.toUInt8)) = [] :=
    List.takeWhile_cons_of_neg (by decide)
  have htake : ((stem ++ (decimal (number : Int) ++ (ascii "-" ++ rest))).drop 6).takeWhile
      (fun c => decide (c ≠ '-'.toUInt8)) = decimal (number : Int) := by
    rw [hdrop, List.takeWhile_append_of_pos hdigits, hhyphen, List.append_nil]
  refine ⟨?_, ?_, ?_, hnumber⟩
  · obtain rfl | rfl := hstem
    · simp [List.isPrefixOf_iff_prefix]
    · simp [List.isPrefixOf_iff_prefix]
  · have hlength : (ascii "-").length = 1 := rfl
    rw [htake, hdrop, List.length_append, List.length_append, hlength]
    omega
  · rw [nameNumber, htake, fromChars_decimal (by omega)]

/-! ### Which names are dated as they say -/

/-- The names are dated by their numbers, and the candidates they make up are sorted by them. -/
structure DatedByNumber (root : Bytes) (directory : DataDirectory) (names : List Bytes) : Prop where
  exact : ∀ name ∈ names, ∀ number, Named name number →
    filenameTimestamp name = some (milliseconds number)
  sorted : ∀ name ∈ names, ∀ name' ∈ names, ∀ number number', Named name number →
    Named name' number' → number < number' → ∀ candidate candidate',
      candidateOf root directory name = some candidate →
        candidateOf root directory name' = some candidate' → candidate.before candidate' = true
  notOlder : ∀ name ∈ names, ∀ number time, Named name number →
    filenameTimestamp name = some time → milliseconds number ≤ time

theorem exact_iff {name : Bytes} {number : ℕ} (h : Named name number) :
    filenameTimestamp name = some (milliseconds number) ↔ number ≤ lastMillisecond := by
  rw [filenameTimestamp_eq_some, ← clockTicks_milliseconds]
  constructor
  · rintro ⟨number', h', htime⟩
    obtain rfl : number' = number := Option.some.inj (h'.written.symm.trans h.written)
    exact htime.symm
  · intro htime
    exact ⟨number, h, htime.symm⟩

/-- The accepted names are dated as they say, whatever other names are there, exactly if none of
them is later than the clock can tell. -/
theorem file_times_iff (root : Bytes) (directory : DataDirectory) (names : List Bytes) :
    DatedByNumber root directory names ↔
      ∀ name ∈ names, ∀ number, Named name number → number ≤ lastMillisecond := by
  constructor
  · intro h name hname number hnumber
    exact (exact_iff hnumber).mp (h.exact name hname number hnumber)
  · intro h
    have hexact : ∀ name ∈ names, ∀ number, Named name number →
        filenameTimestamp name = some (milliseconds number) := by
      intro name hname number hnumber
      exact (exact_iff hnumber).mpr (h name hname number hnumber)
    refine ⟨hexact, ?_, ?_⟩
    · intro name hname name' hname' number number' hnumber hnumber' hlt candidate candidate' hc hc'
      rw [candidateOf, hexact name hname number hnumber, Option.map_some, Option.some.injEq] at hc
      rw [candidateOf, hexact name' hname' number' hnumber', Option.map_some,
        Option.some.injEq] at hc'
      have htimes : candidate.timestamp < candidate'.timestamp := by
        rw [← hc, ← hc']
        show (number : Int) * 1000000 < (number' : Int) * 1000000
        omega
      rw [Candidate.before, if_pos (Int.ne_of_lt htimes), decide_eq_true_eq]
      exact htimes
    · intro name hname number time hnumber htime
      rw [hexact name hname number hnumber, Option.some.injEq] at htime
      exact Int.le_of_eq htime

/-- A frame of the year 2262, one millisecond later than the clock can tell. -/
def lateName : Bytes :=
  ascii "frame-" ++ (decimal ((9223372036855 : ℕ) : Int) ++ (ascii "-" ++ ascii "1.bin"))

/-- It is taken for one of the year 1677. -/
theorem lateName_misdated :
    lateName = ascii "frame-9223372036855-1.bin" ∧
      filenameTimestamp lateName = some (-9223372036854551616) ∧
      ¬ DatedByNumber (ascii "/data") .frames [lateName] := by
  have hnamed : Named lateName 9223372036855 := named_written (.inl rfl) (by decide) _
  have htime : clockTicks (milliseconds (9223372036855 : ℕ)) = -9223372036854551616 := by decide
  refine ⟨?_, filenameTimestamp_eq_some.mpr ⟨_, hnamed, htime.symm⟩, fun h => ?_⟩
  · rw [lateName, decimal_natCast]
    rfl
  · have hexact := (exact_iff hnamed).mp (h.exact _ List.mem_cons_self _ hnamed)
    exact absurd hexact (by decide)

end Uhf.Storage
