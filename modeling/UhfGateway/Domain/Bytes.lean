/-
Byte strings and big-endian words.

A `std::string` or byte vector is the list of its bytes; `ascii` turns a literal
of the source into one, `decimal` and `jsonKey` are pieces of the texts it composes.
-/
import Mathlib.Data.List.Basic
import Mathlib.Tactic.Common

namespace Uhf

/-- A byte string. -/
abbrev Bytes := List UInt8

/-- The comparison of byte strings that the membership tests of the models evaluate. -/
instance : LawfulBEq Bytes := inferInstance

/-- The bytes of a string literal of the source. -/
def ascii (s : String) : Bytes := s.toList.map fun c => UInt8.ofNat c.toNat

/-- `std::to_string`. -/
def decimal (n : Int) : Bytes := ascii (toString n)

/-- The member of a JSON object with this key, up to the value. -/
def jsonKey (key : String) : Bytes := [0x22] ++ ascii key ++ [0x22] ++ ascii ":"

/-- Any literal below five names one of the five measurements. -/
instance neZero_five : @NeZero Nat Zero.ofOfNat0 5 := Nat.instNeZeroSucc

def highByte (value : UInt16) : UInt8 := (value >>> 8).toUInt8

def lowByte (value : UInt16) : UInt8 := (value &&& 0xFF).toUInt8

/-- The word with the given bytes. -/
def bigEndian (high low : UInt8) : UInt16 := high.toUInt16 <<< 8 ||| low.toUInt16

theorem toNat_highByte (value : UInt16) : (highByte value).toNat = value.toNat / 256 := by
  have hlt := value.toNat_lt
  simp only [highByte, UInt16.toNat_toUInt8, UInt16.toNat_shiftRight, UInt16.reduceToNat,
    Nat.reduceMod, Nat.shiftRight_eq_div_pow, Nat.reducePow]
  omega

theorem toNat_lowByte (value : UInt16) : (lowByte value).toNat = value.toNat % 256 := by
  have hmask : value.toNat &&& 255 = value.toNat % 256 := Nat.and_two_pow_sub_one_eq_mod value.toNat 8
  rw [lowByte, UInt16.toNat_toUInt8, UInt16.toNat_and]
  rw [show (0xFF : UInt16).toNat = 255 from rfl, hmask]
  omega

theorem toNat_bigEndian (high low : UInt8) :
    (bigEndian high low).toNat = high.toNat * 256 + low.toNat := by
  have hlow := low.toNat_lt
  have hhigh := high.toNat_lt
  have hor := Nat.shiftLeft_add_eq_or_of_lt (i := 8) (b := low.toNat) hlow high.toNat
  have hshift : (high.toUInt16 <<< 8).toNat = high.toNat <<< 8 := by
    simp only [UInt16.toNat_shiftLeft, UInt8.toNat_toUInt16, UInt16.reduceToNat, Nat.reduceMod,
      Nat.shiftLeft_eq, Nat.reducePow]
    omega
  rw [bigEndian, UInt16.toNat_or, hshift, UInt8.toNat_toUInt16, ← hor, Nat.shiftLeft_eq]

theorem bigEndian_bytes (value : UInt16) : bigEndian (highByte value) (lowByte value) = value := by
  apply UInt16.toNat.inj
  rw [toNat_bigEndian, toNat_highByte, toNat_lowByte]
  omega

/-- The bytes of a list of words, high byte first. -/
def wordBytes (words : List UInt16) : Bytes := words.flatMap fun w => [highByte w, lowByte w]

@[simp] theorem wordBytes_cons (w : UInt16) (words : List UInt16) :
    wordBytes (w :: words) = highByte w :: lowByte w :: wordBytes words := rfl

@[simp] theorem length_wordBytes (words : List UInt16) :
    (wordBytes words).length = 2 * words.length := by
  induction words with
  | nil => rfl
  | cons w ws ih =>
    rw [wordBytes_cons, List.length_cons, List.length_cons, ih, List.length_cons]
    omega

end Uhf
