/-
The record of the administrator's password and the file that keeps it (`web/auth_store`).

The readers of the file look for a quoted key in its text; where the text is that of a record,
each finds its own member, since the digits between the keys cannot be mistaken for one.  The
derivation of a password is a parameter.

* `behind_misses`, `behind_skip`, `behind_hex` — what a key is not found in;
* `loadRecord_serializeRecord` — a record is read back as it was written.
-/
import UhfGateway.Domain.Decimal
import UhfGateway.Web.HttpServer
import UhfGateway.Web.JsonFields

namespace Uhf.Web.Auth

open Network (hexDigit)

/-! ### Records -/

def kPasswordHashBytes : ℕ := 32
def kPasswordIterations : UInt32 := 210000

/-- The iterations a file may ask for. -/
def InRange (iterations : UInt32) : Prop := 100000 ≤ iterations ∧ iterations ≤ 1000000

instance (iterations : UInt32) : Decidable (InRange iterations) :=
  inferInstanceAs (Decidable (_ ∧ _))

theorem kPasswordIterations_inRange : InRange kPasswordIterations := by decide

structure Record where
  iterations : UInt32
  salt : Vector UInt8 kSaltBytes
  passwordHash : Vector UInt8 kPasswordHashBytes
  mustChange : Bool
  range : InRange iterations

/-- `pbkdf2_sha256`: the digest of a password under a salt and a number of iterations. -/
abbrev Pbkdf2 := Bytes → Vector UInt8 kSaltBytes → UInt32 → Vector UInt8 kPasswordHashBytes

/-- `verify_password`. -/
def verifyPassword (pbkdf2 : Pbkdf2) (record : Record) (username password : Bytes) : Bool :=
  if username ≠ ascii "admin" ∨ kMaxPasswordBytes < password.length then false
  else pbkdf2 password record.salt record.iterations = record.passwordHash

/-! ### Its file -/

def hexEncode {count : ℕ} (bytes : Vector UInt8 count) : Bytes :=
  bytes.toList.flatMap fun byte => [hexDigit (byte.toNat / 16), hexDigit (byte.toNat % 16)]

/-- The loop of `hex_decode`. -/
def hexPairs : Bytes → Option Bytes
  | [] => some []
  | [_] => none
  | high :: low :: rest =>
    match hexValue high, hexValue low with
    | some high, some low => (hexPairs rest).map (((high <<< 4) ||| low) :: ·)
    | _, _ => none

/-- `hex_decode`, for a value of the given number of bytes. -/
def hexDecode (count : ℕ) (encoded : Bytes) : Option (Vector UInt8 count) :=
  if encoded = [] ∨ encoded.length % 2 ≠ 0 then none
  else
    (hexPairs encoded).bind fun bytes =>
      if h : bytes.length = count then some ⟨bytes.toArray, h⟩ else none

/-- `serialize_record`. -/
def serializeRecord (record : Record) : Bytes :=
  ascii "\x7b\"version\":1,\"username\":\"admin\",\"algorithm\":\"PBKDF2-HMAC-SHA256\",\"iterations\":" ++
    (decimal record.iterations.toNat ++ (ascii ",\"salt_hex\":\"" ++ (hexEncode record.salt ++
      (ascii "\",\"hash_hex\":\"" ++ (hexEncode record.passwordHash ++
        (ascii "\",\"must_change\":" ++
          (ascii (if record.mustChange then "true" else "false") ++ ascii "\x7d\n")))))))

/-- The text behind the first occurrence of a pattern. -/
def behind (pattern text : Bytes) : Option Bytes := (cut pattern text).map Prod.snd

/-- What stands behind the first occurrence of a quoted key and its colon, without blanks. -/
def memberValue (json : Bytes) (key : String) : Option Bytes :=
  match behind (quotedKey key) json with
  | none => none
  | some rest =>
    match rest.dropWhile isJsonSpace with
    | [] => none
    | c :: rest => if c ≠ ':'.toUInt8 then none else some (rest.dropWhile isJsonSpace)

/-- A string up to its closing quote; it has no escapes. -/
def plainString : Bytes → Option Bytes
  | [] => none
  | c :: rest =>
    if c = 0x22 then some []
    else if c = 0x5C ∨ c < 0x20 then none
    else (plainString rest).map (c :: ·)

/-- `json_string_field` of this file. -/
def stringField (json : Bytes) (key : String) : Option Bytes :=
  match memberValue json key with
  | some (c :: rest) => if c ≠ 0x22 then none else plainString rest
  | _ => none

/-- The loop of `json_uint_field`: a number below 2^32. -/
def uintLoop (result : ℕ) : Bytes → Option ℕ
  | [] => some result
  | c :: rest =>
    if !isDigit c then some result
    else
      let result := result * 10 + (c - '0'.toUInt8).toNat
      if 4294967295 < result then none else uintLoop result rest

/-- `json_uint_field`. -/
def uintField (json : Bytes) (key : String) : Option UInt32 :=
  match memberValue json key with
  | some (c :: rest) =>
    if !isDigit c then none else (uintLoop 0 (c :: rest)).map UInt32.ofNat
  | _ => none

/-- `json_bool_field`. -/
def boolField (json : Bytes) (key : String) : Option Bool :=
  match memberValue json key with
  | none => none
  | some value =>
    if value.take 4 = ascii "true" then some true
    else if value.take 5 = ascii "false" then some false
    else none

/-- `load_record` for the contents of the file; `none` if it throws. -/
def loadRecord (json : Bytes) : Option Record :=
  match stringField json "username", stringField json "algorithm", stringField json "salt_hex",
    stringField json "hash_hex", uintField json "iterations", boolField json "must_change" with
  | some username, some algorithm, some saltHex, some hashHex, some iterations, some mustChange =>
    if h : username = ascii "admin" ∧ algorithm = ascii "PBKDF2-HMAC-SHA256" ∧ InRange iterations then
      match hexDecode kSaltBytes saltHex, hexDecode kPasswordHashBytes hashHex with
      | some salt, some passwordHash => some ⟨iterations, salt, passwordHash, mustChange, h.2.2⟩
      | _, _ => none
    else none
  | _, _, _, _, _, _ => none

/-! ### Hexadecimal texts -/

theorem hexValue_hexDigit : ∀ n < 16, hexValue (hexDigit n) = some (UInt8.ofNat n) := by decide

theorem byte_of_halves : ∀ n < 256,
    (UInt8.ofNat (n / 16) <<< 4) ||| UInt8.ofNat (n % 16) = UInt8.ofNat n := by decide +kernel

theorem hexPairs_cons (byte : UInt8) (rest : Bytes) :
    hexPairs (hexDigit (byte.toNat / 16) :: hexDigit (byte.toNat % 16) :: rest) =
      (hexPairs rest).map (byte :: ·) := by
  have hlt := byte.toNat_lt
  have hbyte := byte_of_halves byte.toNat (by omega)
  rw [UInt8.ofNat_toNat] at hbyte
  rw [hexPairs, hexValue_hexDigit _ (by omega), hexValue_hexDigit _ (by omega)]
  show (hexPairs rest).map ((_ ||| _) :: ·) = _
  rw [hbyte]

theorem hexPairs_flatMap (bytes : Bytes) :
    hexPairs (bytes.flatMap fun byte => [hexDigit (byte.toNat / 16), hexDigit (byte.toNat % 16)]) =
      some bytes := by
  induction bytes with
  | nil => rfl
  | cons byte bytes ih =>
    rw [List.flatMap_cons, List.cons_append, List.cons_append, List.nil_append, hexPairs_cons, ih]
    rfl

theorem length_hexEncode {count : ℕ} (bytes : Vector UInt8 count) :
    (hexEncode bytes).length = 2 * count := by
  have hlength : ∀ bytes : Bytes, (bytes.flatMap fun byte =>
      [hexDigit (byte.toNat / 16), hexDigit (byte.toNat % 16)]).length = 2 * bytes.length := by
    intro bytes
    induction bytes with
    | nil => rfl
    | cons byte bytes ih =>
      rw [List.flatMap_cons, List.length_append, ih, List.length_cons, List.length_cons,
        List.length_cons, List.length_nil]
      omega
  rw [hexEncode, hlength, Vector.length_toList]

theorem hexDecode_hexEncode {count : ℕ} (hcount : 0 < count) (bytes : Vector UInt8 count) :
    hexDecode count (hexEncode bytes) = some bytes := by
  have hlength := length_hexEncode bytes
  rw [hexDecode, if_neg]
  · rw [hexEncode, hexPairs_flatMap, Option.bind_some, dif_pos Vector.length_toList]
    rfl
  · rintro (hempty | hodd)
    · rw [hempty, List.length_nil] at hlength
      omega
    · omega

/-- A digit of such a text; it begins no key, and it does not end a string. -/
def IsHexDigit (c : UInt8) : Prop := ∃ n < 16, c = hexDigit n

theorem hexEncode_digits {count : ℕ} (bytes : Vector UInt8 count) :
    ∀ c ∈ hexEncode bytes, IsHexDigit c := by
  intro c hc
  obtain ⟨byte, -, hc⟩ := List.mem_flatMap.mp hc
  have hlt := byte.toNat_lt
  simp only [List.mem_cons, List.not_mem_nil, or_false] at hc
  obtain rfl | rfl := hc
  · exact ⟨byte.toNat / 16, by omega, rfl⟩
  · exact ⟨byte.toNat % 16, by omega, rfl⟩

theorem IsHexDigit.plain {c : UInt8} (h : IsHexDigit c) : c ≠ 0x22 ∧ ¬ (c = 0x5C ∨ c < 0x20) := by
  obtain ⟨n, hn, rfl⟩ := h
  revert n
  decide

theorem key_not_hex : ¬ IsHexDigit 'h'.toUInt8 ∧ ¬ IsHexDigit 'm'.toUInt8 := by
  simp only [IsHexDigit]
  decide

theorem plainString_hex {text : Bytes} (h : ∀ c ∈ text, IsHexDigit c) (rest : Bytes) :
    plainString (text ++ 0x22 :: rest) = some text := by
  induction text with
  | nil => exact if_pos rfl
  | cons c text ih =>
    obtain ⟨hc, htext⟩ := List.forall_mem_cons.mp h
    rw [List.cons_append, plainString, if_neg hc.plain.1, if_neg hc.plain.2, ih htext]
    rfl

/-! ### Decimal texts -/

theorem le_digitsFold (digits : Bytes) (start : ℕ) :
    start ≤ digits.foldl (fun value c => value * 10 + (c - '0'.toUInt8).toNat) start := by
  induction digits generalizing start with
  | nil => exact Nat.le_refl start
  | cons c digits ih =>
    rw [List.foldl_cons]
    refine Nat.le_trans ?_ (ih _)
    omega

theorem uintLoop_digits {digits rest : Bytes} {start : ℕ} (hdigits : digits.all isDigit = true)
    (hrest : NoDigit rest)
    (h : digits.foldl (fun value c => value * 10 + (c - '0'.toUInt8).toNat) start ≤ 4294967295) :
    uintLoop start (digits ++ rest) =
      some (digits.foldl (fun value c => value * 10 + (c - '0'.toUInt8).toNat) start) := by
  induction digits generalizing start with
  | nil =>
    cases rest with
    | nil => rfl
    | cons c rest =>
      have hc : isDigit c = false := hrest c rfl
      rw [List.nil_append, uintLoop, hc]
      rfl
  | cons c digits ih =>
    rw [List.all_cons, Bool.and_eq_true] at hdigits
    rw [List.foldl_cons] at h ⊢
    have hsmall := Nat.le_trans (le_digitsFold digits _) h
    rw [List.cons_append, uintLoop, hdigits.1]
    simp only [Bool.not_true, Bool.false_eq_true, if_false]
    rw [if_neg (Nat.not_lt.mpr hsmall), ih hdigits.2 h]

theorem uintLoop_decimal {n : ℕ} {rest : Bytes} (hn : n ≤ 4294967295) (hrest : NoDigit rest) :
    uintLoop 0 (decimal n ++ rest) = some n := by
  have hvalue := digitsValue_decimal n
  rw [digitsValue] at hvalue
  rw [uintLoop_digits (all_isDigit_decimal n) hrest (by rw [hvalue]; exact hn), hvalue]

/-! ### Reading what was written -/

/-- Nowhere in the text does the pattern begin, whatever follows the text. -/
def misses (pattern : Bytes) : Bytes → Bool
  | [] => true
  | c :: rest => !(c :: rest).isPrefixOf pattern && !pattern.isPrefixOf (c :: rest) && misses pattern rest

theorem behind_misses {pattern before : Bytes} (h : misses pattern before = true) (text : Bytes) :
    behind pattern (before ++ text) = behind pattern text := by
  induction before with
  | nil => rfl
  | cons c before ih =>
    simp only [misses, Bool.and_eq_true, Bool.not_eq_true'] at h
    obtain ⟨⟨hlonger, hshorter⟩, hrest⟩ := h
    rw [List.cons_append, behind, cut, if_neg, Option.map_map]
    · exact ih hrest
    · intro hstart
      rw [List.isPrefixOf_iff_prefix] at hstart
      obtain h | h := List.prefix_or_prefix_of_prefix hstart (List.prefix_append (c :: before) text)
      · rw [List.isPrefixOf_iff_prefix.mpr h] at hshorter
        cases hshorter
      · rw [List.isPrefixOf_iff_prefix.mpr h] at hlonger
        cases hlonger

theorem behind_skip {c : UInt8} {pattern before : Bytes} (h : c ∉ before) (text : Bytes) :
    behind (c :: pattern) (before ++ text) = behind (c :: pattern) text := by
  rw [behind, cut_skip h, Option.map_map]
  rfl

/-- A quoted hexadecimal text is no key. -/
theorem behind_hex {k : UInt8} {pattern hex : Bytes} (hhex : ∀ c ∈ hex, IsHexDigit c)
    (hne : hex ≠ []) (hk : ¬ IsHexDigit k) (text : Bytes) :
    behind (0x22 :: k :: pattern) (0x22 :: (hex ++ text)) = behind (0x22 :: k :: pattern) text := by
  have hquote : (0x22 : UInt8) ∉ hex := fun hmem => (hhex _ hmem).plain.1 rfl
  cases hex with
  | nil => exact absurd rfl hne
  | cons c hex =>
    have hother : k ≠ c := by
      rintro rfl
      exact hk (hhex k List.mem_cons_self)
    rw [behind, cut, List.cons_append, List.isPrefixOf, List.isPrefixOf, beq_false_of_ne hother,
      Bool.false_and, Bool.and_false, if_neg Bool.false_ne_true, Option.map_map, ← List.cons_append]
    exact behind_skip hquote text

theorem behind_append {pattern before after : Bytes} (h : behind pattern before = some after)
    (text : Bytes) : behind pattern (before ++ text) = some (after ++ text) := by
  obtain ⟨⟨first, rest⟩, hcut, rfl⟩ := Option.map_eq_some_iff.mp h
  rw [behind, cut_append hcut text]
  rfl

theorem memberValue_append {json rest : Bytes} {key : String} {c : UInt8}
    (h : behind (quotedKey key) json = some (':'.toUInt8 :: c :: rest))
    (hc : isJsonSpace c = false) : memberValue json key = some (c :: rest) := by
  rw [memberValue, h]
  show some ((c :: rest).dropWhile isJsonSpace) = _
  rw [List.dropWhile_cons_of_neg (by rw [hc]; exact Bool.false_ne_true)]

/-- The text of a record up to the number. -/
def recordHead : Bytes :=
  ascii "\x7b\"version\":1,\"username\":\"admin\",\"algorithm\":\"PBKDF2-HMAC-SHA256\",\"iterations\":"

section Members

variable (record : Record) (rest : Bytes)

theorem recordHead_username : stringField (recordHead ++ rest) "username" = some (ascii "admin") := by
  have hhead : behind (quotedKey "username") recordHead =
      some (ascii ":\"admin\",\"algorithm\":\"PBKDF2-HMAC-SHA256\",\"iterations\":") := by decide
  rw [stringField, memberValue_append (behind_append hhead rest) (by decide)]
  rfl

theorem recordHead_algorithm :
    stringField (recordHead ++ rest) "algorithm" = some (ascii "PBKDF2-HMAC-SHA256") := by
  have hhead : behind (quotedKey "algorithm") recordHead =
      some (ascii ":\"PBKDF2-HMAC-SHA256\",\"iterations\":") := by decide
  rw [stringField, memberValue_append (behind_append hhead rest) (by decide)]
  rfl

theorem digit_noSpace {c : UInt8} (h : isDigit c = true) : isJsonSpace c = false := by
  simp only [isJsonSpace, Bool.or_eq_false_iff, decide_eq_false_iff_not]
  refine ⟨⟨⟨?_, ?_⟩, ?_⟩, ?_⟩ <;> rintro rfl <;> exact absurd h (by decide)

/-- What follows the hash in the text of a record. -/
def afterHash : Bytes :=
  ascii "\",\"must_change\":" ++
    (ascii (if record.mustChange then "true" else "false") ++ ascii "\x7d\n")

def afterSalt : Bytes :=
  ascii "\",\"hash_hex\":\"" ++ (hexEncode record.passwordHash ++ afterHash record)

def afterNumber : Bytes :=
  ascii ",\"salt_hex\":\"" ++ (hexEncode record.salt ++ afterSalt record)

theorem serialize_eq :
    serializeRecord record = recordHead ++ (decimal record.iterations.toNat ++ afterNumber record) :=
  rfl

theorem serialize_iterations :
    uintField (serializeRecord record) "iterations" = some record.iterations := by
  have hhead : behind (quotedKey "iterations") recordHead = some [':'.toUInt8] := by decide
  obtain ⟨c, digits, hdigits⟩ :=
    List.exists_cons_of_ne_nil (decimal_ne_nil record.iterations.toNat)
  have hall := all_isDigit_decimal record.iterations.toNat
  rw [hdigits, List.all_cons, Bool.and_eq_true] at hall
  have hc : isDigit c = true := hall.1
  have hbehind := behind_append hhead (decimal record.iterations.toNat ++ afterNumber record)
  rw [hdigits, List.singleton_append, List.cons_append] at hbehind
  have hafter : NoDigit (afterNumber record) := noDigit_cons (by decide) _
  have hrange : record.iterations.toNat ≤ 4294967295 := Nat.le_of_lt_succ record.iterations.toNat_lt
  have hnumber := uintLoop_decimal hrange hafter
  rw [hdigits, List.cons_append] at hnumber
  rw [serialize_eq, hdigits, uintField, List.cons_append, memberValue_append hbehind (digit_noSpace hc)]
  simp only [hc, Bool.not_true, Bool.false_eq_true, if_false]
  rw [hnumber, Option.map_some, UInt32.ofNat_toNat]

theorem behind_quoted {key : String} {before : Bytes} (h : 0x22 ∉ before) (text : Bytes) :
    behind (quotedKey key) (before ++ text) = behind (quotedKey key) text :=
  behind_skip h text

theorem decimal_no_quote (n : ℕ) : (0x22 : UInt8) ∉ decimal n := by
  intro hmem
  have hdigit := List.all_eq_true.mp (all_isDigit_decimal n) _ hmem
  exact absurd hdigit (by decide)

/-- A key that the beginning of the text does not hold is looked for behind the number. -/
theorem behind_afterNumber {key : String} (h : misses (quotedKey key) recordHead = true) :
    behind (quotedKey key) (serializeRecord record) = behind (quotedKey key) (afterNumber record) := by
  rw [serialize_eq, behind_misses h, behind_quoted (decimal_no_quote _)]

theorem stringField_hex {json hex : Bytes} {key : String} (rest : Bytes)
    (h : behind (quotedKey key) json = some (':'.toUInt8 :: 0x22 :: (hex ++ 0x22 :: rest)))
    (hhex : ∀ c ∈ hex, IsHexDigit c) : stringField json key = some hex := by
  rw [stringField, memberValue_append h (by decide)]
  exact plainString_hex hhex rest

theorem hexEncode_ne_nil {count : ℕ} (hcount : 0 < count) (bytes : Vector UInt8 count) :
    hexEncode bytes ≠ [] := by
  have hlength := length_hexEncode bytes
  intro hnil
  rw [hnil, List.length_nil] at hlength
  omega

theorem serialize_salt :
    stringField (serializeRecord record) "salt_hex" = some (hexEncode record.salt) := by
  have hkey : behind (quotedKey "salt_hex") (ascii ",\"salt_hex\":\"") = some [':'.toUInt8, 0x22] := by
    decide
  have hbehind := behind_append hkey (hexEncode record.salt ++ afterSalt record)
  refine stringField_hex (ascii ",\"hash_hex\":\"" ++
    (hexEncode record.passwordHash ++ afterHash record)) ?_ (hexEncode_digits record.salt)
  rw [behind_afterNumber record (by decide), afterNumber, hbehind]
  rfl

/-- A key that is not the one of the salt is looked for behind it. -/
theorem behind_afterSalt {key : String} {k : UInt8} {pattern : Bytes}
    (hkey : quotedKey key = 0x22 :: k :: pattern) (hk : ¬ IsHexDigit k)
    (h : misses (quotedKey key) (ascii ",\"salt_hex\":") = true) :
    behind (quotedKey key) (afterNumber record) = behind (quotedKey key) (afterSalt record) := by
  have hquote : ∀ text, ascii ",\"salt_hex\":\"" ++ text = ascii ",\"salt_hex\":" ++ 0x22 :: text :=
    fun _ => rfl
  rw [afterNumber, hquote, behind_misses h, hkey, behind_hex (hexEncode_digits record.salt)
    (hexEncode_ne_nil (by decide) record.salt) hk]

theorem behind_afterHash {key : String} {k : UInt8} {pattern : Bytes}
    (hkey : quotedKey key = 0x22 :: k :: pattern) (hk : ¬ IsHexDigit k)
    (h : misses (quotedKey key) (ascii "\",\"hash_hex\":") = true) :
    behind (quotedKey key) (afterSalt record) = behind (quotedKey key) (afterHash record) := by
  have hquote : ∀ text, ascii "\",\"hash_hex\":\"" ++ text = ascii "\",\"hash_hex\":" ++ 0x22 :: text :=
    fun _ => rfl
  rw [afterSalt, hquote, behind_misses h, hkey, behind_hex (hexEncode_digits record.passwordHash)
    (hexEncode_ne_nil (by decide) record.passwordHash) hk]

theorem serialize_hash :
    stringField (serializeRecord record) "hash_hex" = some (hexEncode record.passwordHash) := by
  have hkey : behind (quotedKey "hash_hex") (ascii "\",\"hash_hex\":\"") = some [':'.toUInt8, 0x22] := by
    decide
  have hbehind := behind_append hkey (hexEncode record.passwordHash ++ afterHash record)
  refine stringField_hex (ascii ",\"must_change\":" ++
    (ascii (if record.mustChange then "true" else "false") ++ ascii "\x7d\n")) ?_
    (hexEncode_digits record.passwordHash)
  rw [behind_afterNumber record (by decide), behind_afterSalt record rfl key_not_hex.1 (by decide),
    afterSalt, hbehind]
  rfl

theorem serialize_mustChange :
    boolField (serializeRecord record) "must_change" = some record.mustChange := by
  have hkey : behind (quotedKey "must_change") (ascii "\",\"must_change\":") = some [':'.toUInt8] := by
    decide
  have hbehind := behind_append hkey
    (ascii (if record.mustChange then "true" else "false") ++ ascii "\x7d\n")
  rw [← afterHash, ← behind_afterHash record rfl key_not_hex.2 (by decide),
    ← behind_afterSalt record rfl key_not_hex.2 (by decide),
    ← behind_afterNumber record (by decide)] at hbehind
  cases hmust : record.mustChange with
  | true =>
    rw [hmust] at hbehind
    rw [boolField, memberValue_append hbehind (by decide)]
    rfl
  | false =>
    rw [hmust] at hbehind
    rw [boolField, memberValue_append hbehind (by decide)]
    rfl

theorem loadRecord_serializeRecord : loadRecord (serializeRecord record) = some record := by
  have husername : stringField (serializeRecord record) "username" = some (ascii "admin") :=
    recordHead_username _
  have halgorithm : stringField (serializeRecord record) "algorithm" =
      some (ascii "PBKDF2-HMAC-SHA256") := recordHead_algorithm _
  rw [loadRecord, husername, halgorithm, serialize_salt, serialize_hash, serialize_iterations,
    serialize_mustChange]
  simp only [true_and]
  rw [dif_pos record.range, hexDecode_hexEncode (by decide), hexDecode_hexEncode (by decide)]

theorem length_serializeRecord : (serializeRecord record).length ≤ 4096 := by
  have hnumber : (decimal record.iterations.toNat).length ≤ 10 := by
    refine length_decimal_le (by decide) ?_
    have hlt := record.iterations.toNat_lt
    omega
  have hbool : (ascii (if record.mustChange then "true" else "false")).length ≤ 5 := by
    cases record.mustChange <;> decide
  have hhead : recordHead.length ≤ 80 := by decide
  have hkeys : (ascii ",\"salt_hex\":\"").length ≤ 20 ∧ (ascii "\",\"hash_hex\":\"").length ≤ 20 ∧
      (ascii "\",\"must_change\":").length ≤ 20 ∧ (ascii "\x7d\n").length ≤ 20 := by decide
  have hsalt : (hexEncode record.salt).length = 32 := length_hexEncode record.salt
  have hhash : (hexEncode record.passwordHash).length = 64 := length_hexEncode record.passwordHash
  rw [serialize_eq, afterNumber, afterSalt, afterHash]
  simp only [List.length_append]
  omega

theorem serializeRecord_ne_nil : serializeRecord record ≠ [] :=
  List.append_ne_nil_of_left_ne_nil (by decide) _

end Members

end Uhf.Web.Auth
