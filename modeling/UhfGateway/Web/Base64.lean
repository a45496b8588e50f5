/-
Base 64 (`base64_encode` and `valid_websocket_key` of `web/http_server`).

Three bytes are four characters of six bits each.  The check of a key never calls the encoder: it
has rules of its own for the padding and for the bits behind the last byte.

* `base64Encode_injective` — different bytes are written differently;
* `websocket_key_exact` — so they are, and the keys accepted are what sixteen bytes are written as.
-/
import Mathlib.Data.List.GetD
import UhfGateway.Web.HttpRequest

namespace Uhf.Web

def base64Alphabet : Bytes :=
  ascii "ABCDEFGHIJKLMNOPQRSTUVWXYZabcdefghijklmnopqrstuvwxyz0123456789+/"

/-- The character for the low six bits. -/
def base64Character (combined : UInt32) : UInt8 :=
  base64Alphabet.getD (combined &&& 0x3F).toNat 0

def base64Encode : Bytes → Bytes
  | [] => []
  | first :: rest =>
    let second := rest.getD 0 0
    let third := rest.getD 1 0
    let combined := first.toUInt32 <<< 16 ||| second.toUInt32 <<< 8 ||| third.toUInt32
    base64Character (combined >>> 18) :: base64Character (combined >>> 12) ::
      (if 0 < rest.length then base64Character (combined >>> 6) else '='.toUInt8) ::
      (if 1 < rest.length then base64Character combined else '='.toUInt8) ::
      base64Encode (rest.drop 2)
termination_by bytes => bytes.length
decreasing_by
  simp only [List.length_drop, List.length_cons]
  omega

/-! ### Characters -/

/-- The character for six bits. -/
def letter (n : ℕ) : UInt8 :=
  if n < 26 then UInt8.ofNat (n + 65)
  else if n < 52 then UInt8.ofNat (n + 71)
  else if n < 62 then UInt8.ofNat (n - 4)
  else if n = 62 then '+'.toUInt8
  else '/'.toUInt8

theorem base64Alphabet_eq : base64Alphabet = (List.range 64).map letter := rfl

theorem base64Character_eq (combined : UInt32) :
    base64Character combined = letter (combined.toNat % 64) := by
  have hmask : (combined &&& 0x3F).toNat = combined.toNat % 64 :=
    Nat.and_two_pow_sub_one_eq_mod combined.toNat 6
  have hlt : combined.toNat % 64 < (List.map letter (List.range 64)).length := by
    rw [List.length_map, List.length_range]
    exact Nat.mod_lt _ (by decide)
  rw [base64Character, hmask, base64Alphabet_eq, List.getD_eq_getElem _ _ hlt, List.getElem_map,
    List.getElem_range]

theorem toNat_letter {n : ℕ} (h : n < 64) : (letter n).toNat =
    if n < 26 then n + 65 else if n < 52 then n + 71 else if n < 62 then n - 4
    else if n = 62 then 43 else 47 := by
  rw [letter]
  split_ifs
  · rw [UInt8.toNat_ofNat_of_lt' (by simp [UInt8.size]; omega)]
  · rw [UInt8.toNat_ofNat_of_lt' (by simp [UInt8.size]; omega)]
  · rw [UInt8.toNat_ofNat_of_lt' (by simp [UInt8.size]; omega)]
  · rfl
  · rfl

theorem letter_ne_pad {n : ℕ} (h : n < 64) : letter n ≠ '='.toUInt8 := by
  intro heq
  have htoNat := congrArg UInt8.toNat heq
  rw [toNat_letter h, show '='.toUInt8.toNat = 61 from rfl] at htoNat
  split_ifs at htoNat <;> omega

theorem base64Value_eq (c : UInt8) : base64Value c =
    if 65 ≤ c.toNat ∧ c.toNat ≤ 90 then some (UInt8.ofNat (c.toNat - 65))
    else if 97 ≤ c.toNat ∧ c.toNat ≤ 122 then some (UInt8.ofNat (c.toNat - 71))
    else if 48 ≤ c.toNat ∧ c.toNat ≤ 57 then some (UInt8.ofNat (c.toNat + 4))
    else if c.toNat = 43 then some (UInt8.ofNat 62)
    else if c.toNat = 47 then some (UInt8.ofNat 63)
    else none := by
  have hle : ∀ d : UInt8, d ≤ c ↔ d.toNat ≤ c.toNat := fun d => UInt8.le_iff_toNat_le
  have hge : ∀ d : UInt8, c ≤ d ↔ c.toNat ≤ d.toNat := fun d => UInt8.le_iff_toNat_le
  have heq : ∀ d : UInt8, c = d ↔ c.toNat = d.toNat := fun d => UInt8.toNat_inj.symm
  have hsub : ∀ (d e : UInt8) {n : ℕ}, d.toNat ≤ c.toNat →
      (c.toNat - d.toNat + e.toNat) % 256 = n % 256 → c - d + e = UInt8.ofNat n := by
    intro d e n hd h
    apply UInt8.toNat.inj
    rw [UInt8.toNat_add, UInt8.toNat_sub_of_le _ _ (UInt8.le_iff_toNat_le.mpr hd),
      UInt8.toNat_ofNat']
    exact h
  simp only [base64Value, isDigit, Bool.and_eq_true, decide_eq_true_eq, hle, hge, heq,
    show 'A'.toUInt8.toNat = 65 from rfl, show 'Z'.toUInt8.toNat = 90 from rfl,
    show 'a'.toUInt8.toNat = 97 from rfl, show 'z'.toUInt8.toNat = 122 from rfl,
    show '0'.toUInt8.toNat = 48 from rfl, show '9'.toUInt8.toNat = 57 from rfl,
    show '+'.toUInt8.toNat = 43 from rfl, show '/'.toUInt8.toNat = 47 from rfl]
  split_ifs with hupper hlower hdigit
  · rw [← UInt8.add_zero (c - _)]
    exact congrArg some (hsub 'A'.toUInt8 0 hupper.1 rfl)
  · refine congrArg some (hsub 'a'.toUInt8 26 hlower.1 ?_)
    show (c.toNat - 97 + 26) % 256 = (c.toNat - 71) % 256
    omega
  · refine congrArg some (hsub '0'.toUInt8 52 hdigit.1 ?_)
    show (c.toNat - 48 + 52) % 256 = (c.toNat + 4) % 256
    omega
  · rfl
  · rfl
  · rfl

theorem base64Value_letter {n : ℕ} (h : n < 64) :
    base64Value (letter n) = some (UInt8.ofNat n) := by
  rw [base64Value_eq, toNat_letter h]
  split_ifs <;> first | omega | rfl | (congr 2; omega)

theorem base64Value_eq_some {c v : UInt8} (h : base64Value c = some v) :
    v.toNat < 64 ∧ letter v.toNat = c := by
  have hvalue : v.toNat < 64 ∧ (if v.toNat < 26 then v.toNat + 65
      else if v.toNat < 52 then v.toNat + 71 else if v.toNat < 62 then v.toNat - 4
      else if v.toNat = 62 then 43 else 47) = c.toNat := by
    rw [base64Value_eq] at h
    split_ifs at h <;> simp only [Option.some.injEq] at h <;> rw [← h, UInt8.toNat_ofNat'] <;>
      constructor <;> try split_ifs
    all_goals omega
  refine ⟨hvalue.1, UInt8.toNat.inj ?_⟩
  rw [toNat_letter hvalue.1, hvalue.2]

/-! ### Groups -/

theorem toNat_combined (first second third : UInt8) :
    (first.toUInt32 <<< 16 ||| second.toUInt32 <<< 8 ||| third.toUInt32).toNat =
      first.toNat * 65536 + second.toNat * 256 + third.toNat := by
  have hfirst := first.toNat_lt
  have hsecond := second.toNat_lt
  have hthird := third.toNat_lt
  have hhigh : (first.toUInt32 <<< 16).toNat = first.toNat <<< 16 := by
    rw [UInt32.toNat_shiftLeft, UInt8.toNat_toUInt32, Nat.shiftLeft_eq, Nat.shiftLeft_eq]
    exact Nat.mod_eq_of_lt (show first.toNat * 65536 < 4294967296 by omega)
  have hmiddle : (second.toUInt32 <<< 8).toNat = second.toNat * 256 := by
    rw [UInt32.toNat_shiftLeft, UInt8.toNat_toUInt32, Nat.shiftLeft_eq]
    exact Nat.mod_eq_of_lt (show second.toNat * 256 < 4294967296 by omega)
  have hupper := Nat.shiftLeft_add_eq_or_of_lt (i := 16) (b := second.toNat * 256)
    (by omega) first.toNat
  have hlower := Nat.shiftLeft_add_eq_or_of_lt (i := 8) (b := third.toNat) (by omega)
    (first.toNat * 256 + second.toNat)
  have hsplit : first.toNat <<< 16 + second.toNat * 256 =
      (first.toNat * 256 + second.toNat) <<< 8 := by
    rw [Nat.shiftLeft_eq, Nat.shiftLeft_eq]
    omega
  rw [UInt32.toNat_or, UInt32.toNat_or, hhigh, hmiddle, UInt8.toNat_toUInt32, ← hupper, hsplit,
    ← hlower, Nat.shiftLeft_eq]
  omega

/-- The four characters of a group, by the six bits of each. -/
theorem base64Characters_combined (first second third : UInt8) :
    let combined := first.toUInt32 <<< 16 ||| second.toUInt32 <<< 8 ||| third.toUInt32
    base64Character (combined >>> 18) = letter (first.toNat / 4) ∧
      base64Character (combined >>> 12) = letter (first.toNat % 4 * 16 + second.toNat / 16) ∧
      base64Character (combined >>> 6) = letter (second.toNat % 16 * 4 + third.toNat / 64) ∧
      base64Character combined = letter (third.toNat % 64) := by
  intro combined
  have hcombined : combined.toNat = first.toNat * 65536 + second.toNat * 256 + third.toNat :=
    toNat_combined first second third
  have hfirst := first.toNat_lt
  have hsecond := second.toNat_lt
  have hthird := third.toNat_lt
  have hshift : ∀ bits : UInt32, bits.toNat < 32 →
      (combined >>> bits).toNat = combined.toNat / 2 ^ bits.toNat := by
    intro bits hbits
    rw [UInt32.toNat_shiftRight, Nat.mod_eq_of_lt hbits, Nat.shiftRight_eq_div_pow]
  simp only [base64Character_eq]
  refine ⟨?_, ?_, ?_, ?_⟩
  · rw [hshift 18 (by decide), hcombined]
    simp only [UInt32.reduceToNat]
    congr 1
    omega
  · rw [hshift 12 (by decide), hcombined]
    simp only [UInt32.reduceToNat]
    congr 1
    omega
  · rw [hshift 6 (by decide), hcombined]
    simp only [UInt32.reduceToNat]
    congr 1
    omega
  · rw [hcombined]
    congr 1
    omega

theorem base64Encode_group (first second third : UInt8) (rest : Bytes) :
    base64Encode (first :: second :: third :: rest) =
      letter (first.toNat / 4) :: letter (first.toNat % 4 * 16 + second.toNat / 16) ::
        letter (second.toNat % 16 * 4 + third.toNat / 64) :: letter (third.toNat % 64) ::
        base64Encode rest := by
  obtain ⟨h18, h12, h6, h0⟩ := base64Characters_combined first second third
  rw [base64Encode]
  simp only [List.getD_cons_zero, List.getD_cons_succ, List.length_cons, List.drop_succ_cons,
    List.drop_zero]
  rw [if_pos (by omega), if_pos (by omega), h18, h12, h6, h0]

theorem base64Encode_pair (first second : UInt8) :
    base64Encode [first, second] =
      [letter (first.toNat / 4), letter (first.toNat % 4 * 16 + second.toNat / 16),
        letter (second.toNat % 16 * 4), '='.toUInt8] := by
  obtain ⟨h18, h12, h6, -⟩ := base64Characters_combined first second 0
  rw [base64Encode]
  simp only [List.getD_cons_zero, List.getD_cons_succ, List.getD_nil, List.length_cons,
    List.length_nil, List.drop_succ_cons, List.drop_nil]
  rw [if_pos (by omega), if_neg (by omega), h18, h12, h6, base64Encode]
  rfl

theorem base64Encode_single (first : UInt8) :
    base64Encode [first] =
      [letter (first.toNat / 4), letter (first.toNat % 4 * 16), '='.toUInt8, '='.toUInt8] := by
  obtain ⟨h18, h12, -, -⟩ := base64Characters_combined first 0 0
  rw [base64Encode]
  simp only [List.getD_nil, List.length_nil, List.drop_nil]
  rw [if_neg (by omega), if_neg (by omega), h18, h12, base64Encode]
  rfl

/-! ### The way back -/

/-- The six bits that a character stands for. -/
def characterBits (c : UInt8) : ℕ := ((base64Value c).getD 0).toNat

/-- The bytes that the characters stand for, if they have been written by the encoder. -/
def base64Bytes : Bytes → Bytes
  | first :: second :: third :: fourth :: rest =>
    UInt8.ofNat (characterBits first * 4 + characterBits second / 16) ::
      if third = '='.toUInt8 then []
      else
        UInt8.ofNat (characterBits second % 16 * 16 + characterBits third / 4) ::
          if fourth = '='.toUInt8 then []
          else UInt8.ofNat (characterBits third % 4 * 64 + characterBits fourth) :: base64Bytes rest
  | _ => []

theorem characterBits_letter {n : ℕ} (h : n < 64) : characterBits (letter n) = n := by
  rw [characterBits, base64Value_letter h, Option.getD_some, UInt8.toNat_ofNat_of_lt']
  exact Nat.lt_trans h (by decide)

theorem byte_eq (byte : UInt8) {n : ℕ} (h : n = byte.toNat) : UInt8.ofNat n = byte := by
  rw [h, UInt8.ofNat_toNat]

theorem base64Bytes_base64Encode (bytes : Bytes) : base64Bytes (base64Encode bytes) = bytes := by
  induction h : bytes.length using Nat.strong_induction_on generalizing bytes with
  | _ n ih =>
    subst h
    match bytes with
    | [] =>
      rw [base64Encode]
      rfl
    | [first] =>
      have hfirst := first.toNat_lt
      rw [base64Encode_single, base64Bytes, if_pos rfl, characterBits_letter (by omega),
        characterBits_letter (by omega), byte_eq first (by omega)]
    | [first, second] =>
      have hfirst := first.toNat_lt
      have hsecond := second.toNat_lt
      rw [base64Encode_pair, base64Bytes, if_neg (letter_ne_pad (by omega)), if_pos rfl,
        characterBits_letter (by omega), characterBits_letter (by omega),
        characterBits_letter (by omega), byte_eq first (by omega), byte_eq second (by omega)]
    | first :: second :: third :: rest =>
      have hfirst := first.toNat_lt
      have hsecond := second.toNat_lt
      have hthird := third.toNat_lt
      have hrest := ih rest.length (by simp only [List.length_cons]; omega) rest rfl
      rw [base64Encode_group, base64Bytes, if_neg (letter_ne_pad (by omega)),
        if_neg (letter_ne_pad (by omega)), characterBits_letter (by omega),
        characterBits_letter (by omega), characterBits_letter (by omega),
        characterBits_letter (by omega), hrest, byte_eq first (by omega),
        byte_eq second (by omega), byte_eq third (by omega)]

theorem base64Encode_injective : Function.Injective base64Encode :=
  Function.LeftInverse.injective base64Bytes_base64Encode

/-! ### Keys -/

/-- Any four characters are what three bytes are written as. -/
theorem base64Encode_bits {a b c d : ℕ} (ha : a < 64) (hb : b < 64) (hc : c < 64) (hd : d < 64)
    (rest : Bytes) :
    base64Encode (UInt8.ofNat (a * 4 + b / 16) :: UInt8.ofNat (b % 16 * 16 + c / 4) ::
        UInt8.ofNat (c % 4 * 64 + d) :: rest) =
      letter a :: letter b :: letter c :: letter d :: base64Encode rest := by
  have hfirst : (UInt8.ofNat (a * 4 + b / 16)).toNat = a * 4 + b / 16 :=
    UInt8.toNat_ofNat_of_lt' (show _ < 256 by omega)
  have hsecond : (UInt8.ofNat (b % 16 * 16 + c / 4)).toNat = b % 16 * 16 + c / 4 :=
    UInt8.toNat_ofNat_of_lt' (show _ < 256 by omega)
  have hthird : (UInt8.ofNat (c % 4 * 64 + d)).toNat = c % 4 * 64 + d :=
    UInt8.toNat_ofNat_of_lt' (show _ < 256 by omega)
  have hletters : (a * 4 + b / 16) / 4 = a ∧
      (a * 4 + b / 16) % 4 * 16 + (b % 16 * 16 + c / 4) / 16 = b ∧
      (b % 16 * 16 + c / 4) % 16 * 4 + (c % 4 * 64 + d) / 64 = c ∧
      (c % 4 * 64 + d) % 64 = d := by
    refine ⟨?_, ?_, ?_, ?_⟩ <;> omega
  obtain ⟨hla, hlb, hlc, hld⟩ := hletters
  rw [base64Encode_group, hfirst, hsecond, hthird, hla, hlb, hlc, hld]

/-- Two characters are what one byte is written as, if they leave no bits behind it. -/
theorem base64Encode_last {a b : ℕ} (ha : a < 64) (hb : b < 64) (hrest : b % 16 = 0) :
    base64Encode [UInt8.ofNat (a * 4 + b / 16)] =
      [letter a, letter b, '='.toUInt8, '='.toUInt8] := by
  have hfirst : (UInt8.ofNat (a * 4 + b / 16)).toNat = a * 4 + b / 16 :=
    UInt8.toNat_ofNat_of_lt' (show _ < 256 by omega)
  have hla : (a * 4 + b / 16) / 4 = a := by omega
  have hlb : (a * 4 + b / 16) % 4 * 16 = b := by omega
  rw [base64Encode_single, hfirst, hla, hlb]

/-- Whole groups of characters are written for whole groups of bytes. -/
theorem base64Encode_append {bytes : Bytes} {n : ℕ} (h : bytes.length = 3 * n) (tail : Bytes) :
    ∃ text, text.length = 4 * n ∧ (∀ c ∈ text, (base64Value c).isSome = true) ∧
      base64Encode (bytes ++ tail) = text ++ base64Encode tail := by
  induction n generalizing bytes with
  | zero =>
    rw [Nat.mul_zero, List.length_eq_zero_iff] at h
    exact ⟨[], rfl, nofun, by rw [h, List.nil_append, List.nil_append]⟩
  | succ n ih =>
    match bytes, h with
    | first :: second :: third :: rest, h =>
      simp only [List.length_cons] at h
      have hrest : rest.length = 3 * n := by omega
      obtain ⟨text, hlength, hvalid, htext⟩ := ih hrest
      have hfirst := first.toNat_lt
      have hsecond := second.toNat_lt
      have hthird := third.toNat_lt
      have hletter : ∀ {n : ℕ}, n < 64 → (base64Value (letter n)).isSome = true := by
        intro n hn
        rw [base64Value_letter hn]
        rfl
      refine ⟨letter (first.toNat / 4) :: letter (first.toNat % 4 * 16 + second.toNat / 16) ::
        letter (second.toNat % 16 * 4 + third.toNat / 64) :: letter (third.toNat % 64) :: text,
        by simp only [List.length_cons]; omega, ?_, ?_⟩
      · simp only [List.forall_mem_cons]
        exact ⟨hletter (by omega), hletter (by omega), hletter (by omega), hletter (by omega),
          hvalid⟩
      · simp only [List.cons_append, base64Encode_group, htext]

/-- And whole groups of characters are what whole groups of bytes are written as. -/
theorem exists_base64Encode {text : Bytes} {n : ℕ} (h : text.length = 4 * n)
    (hvalid : ∀ c ∈ text, (base64Value c).isSome = true) :
    ∃ bytes : Bytes, bytes.length = 3 * n ∧
      ∀ tail, base64Encode (bytes ++ tail) = text ++ base64Encode tail := by
  induction n generalizing text with
  | zero =>
    rw [Nat.mul_zero, List.length_eq_zero_iff] at h
    refine ⟨[], rfl, fun tail => ?_⟩
    rw [h, List.nil_append, List.nil_append]
  | succ n ih =>
    match text, h with
    | first :: second :: third :: fourth :: rest, h =>
      simp only [List.length_cons] at h
      simp only [List.forall_mem_cons, Option.isSome_iff_exists] at hvalid
      obtain ⟨⟨a, ha⟩, ⟨b, hb⟩, ⟨c, hc⟩, ⟨d, hd⟩, hrest⟩ := hvalid
      have hlater : rest.length = 4 * n := by omega
      obtain ⟨bytes, hlength, hbytes⟩ := ih hlater
        (by simpa only [Option.isSome_iff_exists] using hrest)
      obtain ⟨hfirst, rfl⟩ := base64Value_eq_some ha
      obtain ⟨hsecond, rfl⟩ := base64Value_eq_some hb
      obtain ⟨hthird, rfl⟩ := base64Value_eq_some hc
      obtain ⟨hfourth, rfl⟩ := base64Value_eq_some hd
      refine ⟨UInt8.ofNat (a.toNat * 4 + b.toNat / 16) ::
        UInt8.ofNat (b.toNat % 16 * 16 + c.toNat / 4) ::
        UInt8.ofNat (c.toNat % 4 * 64 + d.toNat) :: bytes, by simp only [List.length_cons]; omega,
        fun tail => ?_⟩
      simp only [List.cons_append, base64Encode_bits hfirst hsecond hthird hfourth, hbytes]

theorem validWebsocketKey_append {front : Bytes} (h : front.length = 20) (a b c d : UInt8) :
    validWebsocketKey (front ++ [a, b, c, d]) = true ↔
      c = '='.toUInt8 ∧ d = '='.toUInt8 ∧ (∀ c ∈ front, (base64Value c).isSome = true) ∧
        (base64Value a).isSome = true ∧ ∃ bits, base64Value b = some bits ∧ bits % 16 = 0 := by
  have hpad : (front ++ [a, b, c, d]).drop 22 = [c, d] := by
    rw [List.drop_append, List.drop_of_length_le (by omega), h]
    rfl
  have hfirst : (front ++ [a, b, c, d]).take 21 = front ++ [a] := by
    rw [List.take_append, List.take_of_length_le (by omega), h]
    rfl
  have hsecond : ((front ++ [a, b, c, d]).drop 21).take 1 = [b] := by
    rw [List.drop_append, List.drop_of_length_le (by omega), h]
    rfl
  have hlength : (front ++ [a, b, c, d]).length = 24 := by
    rw [List.length_append, h]
    rfl
  have hequals : ascii "==" = ['='.toUInt8, '='.toUInt8] := rfl
  simp only [validWebsocketKey, hpad, hfirst, hsecond, hlength, hequals, Bool.and_eq_true,
    decide_eq_true_eq, List.all_eq_true, List.mem_append, List.mem_singleton, List.cons.injEq,
    and_true, true_and, forall_eq, Option.any_eq_true]
  constructor
  · rintro ⟨⟨⟨hc, hd⟩, hall⟩, hbits⟩
    exact ⟨hc, hd, fun x hx => hall x (.inl hx), hall a (.inr rfl), hbits⟩
  · rintro ⟨hc, hd, hfront, ha, hbits⟩
    refine ⟨⟨⟨hc, hd⟩, ?_⟩, hbits⟩
    rintro x (hx | rfl)
    · exact hfront x hx
    · exact ha

theorem validWebsocketKey_iff {key : Bytes} : validWebsocketKey key = true ↔
    ∃ front first second, key = front ++ [first, second, '='.toUInt8, '='.toUInt8] ∧
      front.length = 20 ∧ (∀ c ∈ front, (base64Value c).isSome = true) ∧
      (base64Value first).isSome = true ∧
      ∃ bits, base64Value second = some bits ∧ bits % 16 = 0 := by
  constructor
  · intro h
    have hlength : key.length = 24 := by
      simp only [validWebsocketKey, Bool.and_eq_true, decide_eq_true_eq] at h
      exact h.1.1.1
    have hfront : (key.take 20).length = 20 := by
      rw [List.length_take]
      omega
    obtain ⟨a, b, c, d, htail⟩ : ∃ a b c d, key.drop 20 = [a, b, c, d] := by
      have htail : (key.drop 20).length = 4 := by
        rw [List.length_drop]
        omega
      match key.drop 20, htail with
      | [a, b, c, d], _ => exact ⟨a, b, c, d, rfl⟩
    have hkey : key = key.take 20 ++ [a, b, c, d] := by rw [← htail, List.take_append_drop]
    rw [hkey, validWebsocketKey_append hfront] at h
    obtain ⟨rfl, rfl, hvalid, ha, hb⟩ := h
    exact ⟨key.take 20, a, b, hkey, hfront, hvalid, ha, hb⟩
  · rintro ⟨front, first, second, rfl, hlength, hvalid⟩
    exact (validWebsocketKey_append hlength _ _ _ _).mpr ⟨rfl, rfl, hvalid⟩

/-- Different bytes are written differently, and a key is accepted exactly if it is what sixteen
bytes, and no others, are written as. -/
theorem websocket_key_exact :
    Function.Injective base64Encode ∧
    ∀ key, validWebsocketKey key = true ↔
      ∃ bytes, (bytes.length = 16 ∧ key = base64Encode bytes) ∧
        ∀ other, other.length = 16 ∧ key = base64Encode other → other = bytes := by
  refine ⟨base64Encode_injective, fun key => ?_⟩
  rw [validWebsocketKey_iff]
  constructor
  · rintro ⟨front, first, second, rfl, hlength, hfront, hfirst, bits, hbits, hrest⟩
    obtain ⟨bytes, hbytes, hencode⟩ := exists_base64Encode (n := 5) hlength hfront
    obtain ⟨value, hvalue⟩ := Option.isSome_iff_exists.mp hfirst
    obtain ⟨ha, rfl⟩ := base64Value_eq_some hvalue
    obtain ⟨hb, rfl⟩ := base64Value_eq_some hbits
    have hzero : bits.toNat % 16 = 0 := congrArg UInt8.toNat hrest
    have hkey : front ++ [letter value.toNat, letter bits.toNat, '='.toUInt8, '='.toUInt8] =
        base64Encode (bytes ++ [UInt8.ofNat (value.toNat * 4 + bits.toNat / 16)]) := by
      rw [hencode, base64Encode_last ha hb hzero]
    refine ⟨_, ⟨?_, hkey⟩, ?_⟩
    · rw [List.length_append, hbytes]
      rfl
    · rintro other ⟨-, hother⟩
      exact base64Encode_injective (hother.symm.trans hkey)
  · rintro ⟨bytes, ⟨hlength, rfl⟩, -⟩
    have htake : (bytes.take 15).length = 3 * 5 := by
      rw [List.length_take]
      omega
    obtain ⟨last, hlast⟩ : ∃ last, bytes.drop 15 = [last] := by
      rw [← List.length_eq_one_iff, List.length_drop]
      omega
    obtain ⟨front, hfront, hvalid, hencode⟩ := base64Encode_append htake (bytes.drop 15)
    have hbyte := last.toNat_lt
    rw [List.take_append_drop, hlast, base64Encode_single] at hencode
    refine ⟨front, _, _, hencode, hfront, hvalid, ?_, _, base64Value_letter (by omega), ?_⟩
    · rw [base64Value_letter (by omega)]
      rfl
    · apply UInt8.toNat.inj
      rw [UInt8.toNat_mod, UInt8.toNat_ofNat_of_lt' (show _ < 256 by omega)]
      show last.toNat % 4 * 16 % 16 = 0
      omega

end Uhf.Web
