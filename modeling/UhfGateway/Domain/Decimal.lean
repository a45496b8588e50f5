/-
Decimal texts.

* `fromChars_decimal` — a written number is read back;
* `takeWhile_decimal` — its digits end where something else begins.
-/
import Mathlib.Algebra.Order.Ring.Nat
import UhfGateway.Domain.Bytes

namespace Uhf

def isDigit (c : UInt8) : Bool := '0'.toUInt8 ≤ c && c ≤ '9'.toUInt8

/-- The number that digits write. -/
def digitsValue (text : Bytes) : ℕ :=
  text.foldl (fun value c => value * 10 + (c - '0'.toUInt8).toNat) 0

/-- `std::from_chars` of an unsigned number of 64 bits that takes up the whole text. -/
def fromChars (text : Bytes) : Option ℕ :=
  if text ≠ [] ∧ text.all isDigit = true then
    if digitsValue text < 18446744073709551616 then some (digitsValue text) else none
  else none

/-- The byte of a character of `std::to_string`. -/
def charByte (c : Char) : UInt8 := UInt8.ofNat c.toNat

theorem decimal_natCast (n : ℕ) : decimal (n : Int) = (Nat.toDigits 10 n).map charByte := by
  have htext : toString (n : Int) = n.repr := by
    rw [Int.toString_eq_repr, Int.repr_eq_if, if_pos (Int.natCast_nonneg n), Int.toNat_natCast]
  rw [decimal, htext, ascii, Nat.toList_repr]
  rfl

theorem decimal_neg {n : ℕ} (h : 0 < n) : decimal (-(n : Int)) = '-'.toUInt8 :: decimal (n : Int) := by
  have htext : toString (-(n : Int)) = "-" ++ n.repr := by
    rw [Int.toString_eq_repr, Int.repr_eq_if, if_neg (by omega), Int.neg_neg, Int.toNat_natCast]
  rw [decimal_natCast, decimal, htext, ascii, String.toList_append, Nat.toList_repr]
  rfl

theorem charByte_digit {c : Char} (h : c.isDigit = true) :
    isDigit (charByte c) = true ∧ (charByte c - '0'.toUInt8).toNat = c.toNat - '0'.toNat := by
  have hbounds : 48 ≤ c.toNat ∧ c.toNat ≤ 57 := by
    rw [Char.isDigit, Bool.and_eq_true, decide_eq_true_eq, decide_eq_true_eq] at h
    exact ⟨h.1, h.2⟩
  have hbyte : (charByte c).toNat = c.toNat := by
    rw [charByte, UInt8.toNat_ofNat']
    omega
  have hzero : ('0'.toUInt8).toNat = 48 := rfl
  have hnine : ('9'.toUInt8).toNat = 57 := rfl
  have hle : '0'.toUInt8 ≤ charByte c := by
    rw [UInt8.le_iff_toNat_le]
    omega
  constructor
  · rw [isDigit, Bool.and_eq_true, decide_eq_true_eq, decide_eq_true_eq]
    refine ⟨hle, ?_⟩
    rw [UInt8.le_iff_toNat_le]
    omega
  · rw [UInt8.toNat_sub_of_le _ _ hle, hbyte, hzero]
    rfl

theorem all_isDigit_decimal (n : ℕ) : (decimal (n : Int)).all isDigit = true := by
  rw [decimal_natCast, List.all_map, List.all_eq_true]
  intro c hc
  exact (charByte_digit (Nat.isDigit_of_mem_toDigits (by decide) (by decide) hc)).1

theorem digitsValue_decimal (n : ℕ) : digitsValue (decimal (n : Int)) = n := by
  have hfold : ∀ (digits : List Char) (start : ℕ), (∀ c ∈ digits, c.isDigit = true) →
      (digits.map charByte).foldl (fun value c => value * 10 + (c - '0'.toUInt8).toNat) start =
        Nat.ofDigitChars 10 digits start := by
    intro digits
    induction digits with
    | nil => simp
    | cons c digits ih =>
      intro start hdigits
      obtain ⟨hc, hrest⟩ := List.forall_mem_cons.mp hdigits
      rw [List.map_cons, List.foldl_cons, ih _ hrest, Nat.ofDigitChars_cons, (charByte_digit hc).2,
        Nat.mul_comm]
  rw [digitsValue, decimal_natCast, hfold _ 0 fun c hc =>
    Nat.isDigit_of_mem_toDigits (by decide) (by decide) hc]
  exact Nat.ofDigitChars_ten_toDigits

theorem decimal_ne_nil (n : ℕ) : decimal (n : Int) ≠ [] := by
  rw [decimal_natCast]
  simp [Nat.toDigits_ne_nil]

theorem fromChars_lt {text : Bytes} {n : ℕ} (h : fromChars text = some n) :
    n < 18446744073709551616 := by
  rw [fromChars, Option.ite_none_right_eq_some, Option.ite_none_right_eq_some] at h
  obtain ⟨-, hlt, hn⟩ := h
  cases hn
  exact hlt

theorem fromChars_decimal {n : ℕ} (h : n < 18446744073709551616) :
    fromChars (decimal (n : Int)) = some n := by
  rw [fromChars, if_pos ⟨decimal_ne_nil n, all_isDigit_decimal n⟩, digitsValue_decimal, if_pos h]

theorem length_decimal_le {n k : ℕ} (hk : 0 < k) (h : n < 10 ^ k) :
    (decimal (n : Int)).length ≤ k := by
  rw [decimal_natCast, List.length_map, Nat.length_toDigits_le_iff (by decide) hk]
  exact h

/-- The text does not begin with a digit. -/
def NoDigit (text : Bytes) : Prop := ∀ c ∈ text.head?, isDigit c = false

theorem noDigit_cons {c : UInt8} (h : isDigit c = false) (rest : Bytes) : NoDigit (c :: rest) := by
  intro c' hc'
  rw [List.head?_cons, Option.mem_some_iff] at hc'
  rw [← hc']
  exact h

theorem takeWhile_digits {digits rest : Bytes} (hdigits : digits.all isDigit = true)
    (hrest : NoDigit rest) :
    (digits ++ rest).takeWhile isDigit = digits ∧ (digits ++ rest).dropWhile isDigit = rest := by
  rw [List.all_eq_true] at hdigits
  rw [List.takeWhile_append_of_pos hdigits, List.dropWhile_append_of_pos hdigits]
  cases rest with
  | nil => simp
  | cons c rest =>
    have hc : isDigit c = false := hrest c rfl
    simp [hc]

theorem takeWhile_decimal {n : ℕ} {rest : Bytes} (h : NoDigit rest) :
    (decimal (n : Int) ++ rest).takeWhile isDigit = decimal (n : Int) ∧
      (decimal (n : Int) ++ rest).dropWhile isDigit = rest :=
  takeWhile_digits (all_isDigit_decimal n) h

end Uhf
