/-
The parser of a configuration's JSON object (`FlatJsonParser`, `ConfigStore::parse_values`).

The parser's position is what is left of the input.  A key that is met twice, an unknown key
and a number of members that no version of the program has written are errors.

* `stringLoop_jsonEscape` — an escaped text is read back;
* `parseValues_inRange` — what is parsed is in the ranges of `parse_field`.
-/
import UhfGateway.Config.Values
import UhfGateway.Domain.Decimal

namespace Uhf.Config

def isSpace (c : UInt8) : Bool :=
  c = ' '.toUInt8 || c = '\t'.toUInt8 || c = '\r'.toUInt8 || c = '\n'.toUInt8

def skipSpace (input : Bytes) : Bytes := input.dropWhile isSpace

def consume (expected : UInt8) : Bytes → Option Bytes
  | [] => none
  | c :: input => if c = expected then some input else none

/-! ### Strings -/

def hexValue (c : UInt8) : Option ℕ :=
  if isDigit c then some (c.toNat - '0'.toNat)
  else if 'a'.toUInt8 ≤ c ∧ c ≤ 'f'.toUInt8 then some (c.toNat - 'a'.toNat + 10)
  else if 'A'.toUInt8 ≤ c ∧ c ≤ 'F'.toUInt8 then some (c.toNat - 'A'.toNat + 10)
  else none

/-- The four digits of a code unit, and the input behind them. -/
def hexUnit : Bytes → Option (ℕ × Bytes)
  | a :: b :: c :: d :: input =>
    match hexValue a, hexValue b, hexValue c, hexValue d with
    | some a, some b, some c, some d => some (((a * 16 + b) * 16 + c) * 16 + d, input)
    | _, _, _, _ => none
  | _ => none

/-- `append_utf8`. -/
def utf8Bytes (codePoint : ℕ) : Bytes :=
  if codePoint ≤ 0x7F then [UInt8.ofNat codePoint]
  else if codePoint ≤ 0x7FF then
    [UInt8.ofNat (0xC0 + codePoint / 64), UInt8.ofNat (0x80 + codePoint % 64)]
  else if codePoint ≤ 0xFFFF then
    [UInt8.ofNat (0xE0 + codePoint / 4096), UInt8.ofNat (0x80 + codePoint / 64 % 64),
      UInt8.ofNat (0x80 + codePoint % 64)]
  else
    [UInt8.ofNat (0xF0 + codePoint / 262144), UInt8.ofNat (0x80 + codePoint / 4096 % 64),
      UInt8.ofNat (0x80 + codePoint / 64 % 64), UInt8.ofNat (0x80 + codePoint % 64)]

/-- The code point behind `\u`. -/
def codePoint (input : Bytes) : Option (ℕ × Bytes) :=
  match hexUnit input with
  | none => none
  | some (codeUnit, input) =>
    if 0xD800 ≤ codeUnit ∧ codeUnit ≤ 0xDBFF then
      match (consume '\\'.toUInt8 input).bind (consume 'u'.toUInt8) with
      | none => none
      | some input =>
        match hexUnit input with
        | none => none
        | some (lowSurrogate, input) =>
          if lowSurrogate < 0xDC00 ∨ 0xDFFF < lowSurrogate then none
          else some (0x10000 + (codeUnit - 0xD800) * 1024 + (lowSurrogate - 0xDC00), input)
    else if 0xDC00 ≤ codeUnit ∧ codeUnit ≤ 0xDFFF then none
    else some (codeUnit, input)

/-- What the escape sequence behind a backslash stands for, and the input behind it. -/
def escapeSequence : Bytes → Option (Bytes × Bytes)
  | [] => none
  | escaped :: input =>
    if escaped = '"'.toUInt8 ∨ escaped = '\\'.toUInt8 ∨ escaped = '/'.toUInt8 then
      some ([escaped], input)
    else if escaped = 'b'.toUInt8 then some ([0x08], input)
    else if escaped = 'f'.toUInt8 then some ([0x0C], input)
    else if escaped = 'n'.toUInt8 then some ([0x0A], input)
    else if escaped = 'r'.toUInt8 then some ([0x0D], input)
    else if escaped = 't'.toUInt8 then some ([0x09], input)
    else if escaped = 'u'.toUInt8 then
      match codePoint input with
      | none => none
      | some (codePoint, input) =>
        if codePoint < 0x20 ∨ 0x10FFFF < codePoint then none else some (utf8Bytes codePoint, input)
    else none

theorem consume_eq_some {expected : UInt8} {input rest : Bytes} :
    consume expected input = some rest ↔ input = expected :: rest := by
  cases input with
  | nil => simp [consume]
  | cons c input =>
    rw [consume]
    split
    · next h => simp [h]
    · next h => simp [h]

theorem hexUnit_length {input rest : Bytes} {unit : ℕ} (h : hexUnit input = some (unit, rest)) :
    rest.length + 4 = input.length := by
  rw [hexUnit.eq_def] at h
  split at h
  · split at h
    · cases h
      rfl
    · cases h
  · cases h

theorem codePoint_length {input rest : Bytes} {point : ℕ} (h : codePoint input = some (point, rest)) :
    rest.length < input.length := by
  rw [codePoint] at h
  split at h
  · cases h
  · next unit later hunit =>
    have hlater := hexUnit_length hunit
    split at h
    · split at h
      · cases h
      · next second hsecond =>
        obtain ⟨middle, hbackslash, hu⟩ := Option.bind_eq_some_iff.mp hsecond
        rw [consume_eq_some] at hbackslash hu
        split at h
        · cases h
        · next low behind hlow =>
          have hbehind := hexUnit_length hlow
          split at h
          · cases h
          · simp only [Option.some.injEq, Prod.mk.injEq] at h
            obtain ⟨-, rfl⟩ := h
            subst hbackslash hu
            simp only [List.length_cons] at hlater
            omega
    · split at h
      · cases h
      · cases h
        omega

theorem escapeSequence_length {input text rest : Bytes}
    (h : escapeSequence input = some (text, rest)) : rest.length < input.length := by
  cases input with
  | nil => cases h
  | cons escaped input =>
    have hplain : ∀ {text' : Bytes}, some (text', input) = some (text, rest) →
        rest.length < (escaped :: input).length := by
      intro text' heq
      simp only [Option.some.injEq, Prod.mk.injEq] at heq
      rw [← heq.2, List.length_cons]
      omega
    simp only [escapeSequence] at h
    split at h
    · exact hplain h
    · iterate 5
        split at h
        · exact hplain h
      split at h
      · split at h
        · cases h
        · next point behind hpoint =>
          have hbehind := codePoint_length hpoint
          split at h
          · cases h
          · simp only [Option.some.injEq, Prod.mk.injEq] at h
            rw [← h.2, List.length_cons]
            omega
      · cases h

/-- The loop of `parse_string` behind the opening quote. -/
def stringLoop (input result : Bytes) : Option (Bytes × Bytes) :=
  match input with
  | [] => none
  | c :: input =>
    if c = '"'.toUInt8 then if result.length ≤ 256 then some (result, input) else none
    else if c < 0x20 then none
    else if c ≠ '\\'.toUInt8 then stringLoop input (result ++ [c])
    else
      match _h : escapeSequence input with
      | none => none
      | some (text, rest) => stringLoop rest (result ++ text)
termination_by input.length
decreasing_by
  · simp
  · have hlength := escapeSequence_length _h
    simp only [List.length_cons]
    omega

def parseString (input : Bytes) : Option (Bytes × Bytes) :=
  (consume '"'.toUInt8 input).bind fun input => stringLoop input []

/-! ### Fields -/

def parseUnsigned (input : Bytes) : Option (ℕ × Bytes) :=
  (fromChars (input.takeWhile isDigit)).map fun value => (value, input.dropWhile isDigit)

/-- With `std::from_chars` of a signed number of 64 bits. -/
def parseSigned (input : Bytes) : Option (Int × Bytes) :=
  let negative := decide (input.head? = some '-'.toUInt8)
  let rest := if negative then input.tail else input
  let digits := rest.takeWhile isDigit
  let value : Int := if negative then -digitsValue digits else digitsValue digits
  if digits = [] then none
  else if value < -9223372036854775808 ∨ 9223372036854775807 < value then none
  else some (value, rest.dropWhile isDigit)

def parseBoolean (input : Bytes) : Option (Bool × Bytes) :=
  if (ascii "true").isPrefixOf input then some (true, input.drop 4)
  else if (ascii "false").isPrefixOf input then some (false, input.drop 5)
  else none

/-- The value of a member, if it is in range. -/
def Member.parse (values : Values) (input : Bytes) : Member → Option (Values × Bytes)
  | text _ _ set => (parseString input).map fun (value, rest) => (set value values, rest)
  | boolean _ _ set => (parseBoolean input).map fun (value, rest) => (set value values, rest)
  | unsigned _ minimum maximum _ set =>
    (parseUnsigned input).bind fun (value, rest) =>
      if value < minimum ∨ maximum < value then none else some (set value values, rest)
  | signed _ minimum maximum _ set =>
    (parseSigned input).bind fun (value, rest) =>
      if value < minimum ∨ maximum < value then none else some (set value values, rest)

/-- `parse_field` for a key that has not been met before. -/
def parseField (key : Bytes) (values : Values) (input : Bytes) : Option (Values × Bytes) :=
  if key = ascii "version" then
    (parseUnsigned input).bind fun (version, rest) =>
      if version = 0 then none else some (values, rest)
  else (members.find? fun m => m.key = key).bind (Member.parse values input)

/-- How many members an object may have. -/
def allowedCounts : List ℕ := [18, 19, 22, 23, 27, 28, 29, 30]

theorem skipSpace_length (input : Bytes) : (skipSpace input).length ≤ input.length :=
  (List.dropWhile_sublist isSpace).length_le

theorem stringLoop_length {input result text rest : Bytes}
    (h : stringLoop input result = some (text, rest)) : rest.length < input.length := by
  fun_induction stringLoop input result with
  | case1 => cases h
  | case2 =>
    cases h
    simp
  | case3 => cases h
  | case4 => cases h
  | case5 result c input _ _ _ ih =>
    have hrest := ih h
    rw [List.length_cons]
    omega
  | case6 => cases h
  | case7 result c input _ _ _ text' rest' hescape ih =>
    have hrest := ih h
    have hbehind := escapeSequence_length hescape
    rw [List.length_cons]
    omega

theorem parseString_length {input text rest : Bytes} (h : parseString input = some (text, rest)) :
    rest.length < input.length := by
  obtain ⟨later, hquote, hloop⟩ := Option.bind_eq_some_iff.mp h
  rw [consume_eq_some] at hquote
  have hrest := stringLoop_length hloop
  rw [hquote, List.length_cons]
  omega

theorem parseUnsigned_length {input rest : Bytes} {n : ℕ} (h : parseUnsigned input = some (n, rest)) :
    rest.length ≤ input.length := by
  simp only [parseUnsigned, Option.map_eq_some_iff, Prod.mk.injEq] at h
  obtain ⟨_, -, -, rfl⟩ := h
  exact (List.dropWhile_sublist isDigit).length_le

theorem parseSigned_length {input rest : Bytes} {n : Int} (h : parseSigned input = some (n, rest)) :
    rest.length ≤ input.length := by
  simp only [parseSigned, Option.ite_none_left_eq_some, Option.some.injEq, Prod.mk.injEq] at h
  obtain ⟨-, -, -, rfl⟩ := h
  refine Nat.le_trans (List.dropWhile_sublist isDigit).length_le ?_
  split
  · simp
  · exact Nat.le_refl _

theorem parseBoolean_length {input rest : Bytes} {b : Bool}
    (h : parseBoolean input = some (b, rest)) : rest.length ≤ input.length := by
  rw [parseBoolean] at h
  split at h
  · cases h
    simp
  · split at h
    · cases h
      simp
    · cases h

theorem Member.parse_length {m : Member} {values values' : Values} {input rest : Bytes}
    (h : m.parse values input = some (values', rest)) : rest.length ≤ input.length := by
  cases m with
  | text key get set =>
    obtain ⟨⟨value, rest'⟩, hvalue, hr⟩ := Option.map_eq_some_iff.mp h
    cases hr
    exact Nat.le_of_lt (parseString_length hvalue)
  | boolean key get set =>
    obtain ⟨⟨value, rest'⟩, hvalue, hr⟩ := Option.map_eq_some_iff.mp h
    cases hr
    exact parseBoolean_length hvalue
  | unsigned key minimum maximum get set =>
    obtain ⟨⟨value, rest'⟩, hvalue, hr⟩ := Option.bind_eq_some_iff.mp h
    simp only [Option.ite_none_left_eq_some, Option.some.injEq, Prod.mk.injEq] at hr
    obtain ⟨-, -, rfl⟩ := hr
    exact parseUnsigned_length hvalue
  | signed key minimum maximum get set =>
    obtain ⟨⟨value, rest'⟩, hvalue, hr⟩ := Option.bind_eq_some_iff.mp h
    simp only [Option.ite_none_left_eq_some, Option.some.injEq, Prod.mk.injEq] at hr
    obtain ⟨-, -, rfl⟩ := hr
    exact parseSigned_length hvalue

theorem parseField_length {key : Bytes} {values values' : Values} {input rest : Bytes}
    (h : parseField key values input = some (values', rest)) : rest.length ≤ input.length := by
  rw [parseField] at h
  split at h
  · obtain ⟨⟨version, rest'⟩, hversion, hr⟩ := Option.bind_eq_some_iff.mp h
    simp only [Option.ite_none_left_eq_some, Option.some.injEq, Prod.mk.injEq] at hr
    obtain ⟨-, -, rfl⟩ := hr
    exact parseUnsigned_length hversion
  · obtain ⟨m, -, hm⟩ := Option.bind_eq_some_iff.mp h
    exact m.parse_length hm

/-! ### Objects -/

/-- One member: its key, the values after it and the input behind it. -/
def parseMember (keys : List Bytes) (values : Values) (input : Bytes) :
    Option (Bytes × Values × Bytes) :=
  (parseString input).bind fun (key, rest) =>
    (consume ':'.toUInt8 (skipSpace rest)).bind fun rest =>
      if key ∈ keys then none
      else
        (parseField key values (skipSpace rest)).map fun (values, rest) =>
          (key, values, skipSpace rest)

theorem parseMember_eq_some {keys : List Bytes} {values values' : Values} {input rest key : Bytes}
    (h : parseMember keys values input = some (key, values', rest)) :
    key ∉ keys ∧ ∃ behind colon field, parseString input = some (key, behind) ∧
      consume ':'.toUInt8 (skipSpace behind) = some colon ∧
      parseField key values (skipSpace colon) = some (values', field) ∧ rest = skipSpace field := by
  obtain ⟨⟨key', behind⟩, hkey, h⟩ := Option.bind_eq_some_iff.mp h
  obtain ⟨colon, hcolon, h⟩ := Option.bind_eq_some_iff.mp h
  rw [Option.ite_none_left_eq_some] at h
  obtain ⟨⟨values'', field⟩, hfield, h⟩ := Option.map_eq_some_iff.mp h.2
  simp only [Prod.mk.injEq] at h
  obtain ⟨rfl, rfl, rfl⟩ := h
  exact ⟨by simp_all, behind, colon, field, hkey, hcolon, hfield, rfl⟩

theorem parseMember_length {keys : List Bytes} {values values' : Values} {input rest key : Bytes}
    (h : parseMember keys values input = some (key, values', rest)) :
    rest.length < input.length := by
  obtain ⟨-, behind, colon, field, hkey, hcolon, hfield, rfl⟩ := parseMember_eq_some h
  have hbehind := parseString_length hkey
  have hskipped := skipSpace_length behind
  have hrest := parseField_length hfield
  have hcolonSpace := skipSpace_length colon
  have hfieldSpace := skipSpace_length field
  rw [consume_eq_some] at hcolon
  rw [hcolon, List.length_cons] at hskipped
  omega

/-- The loop of `parse`; `keys` are the keys met so far. -/
def parseMembers (keys : List Bytes) (values : Values) (input : Bytes) : Option Values :=
  match _h : parseMember keys values input with
  | none => none
  | some (key, values, rest) =>
    match consume '}'.toUInt8 rest with
    | some behind =>
      if skipSpace behind = [] ∧ keys.length + 1 ∈ allowedCounts then some values else none
    | none =>
      match _hcomma : consume ','.toUInt8 rest with
      | none => none
      | some more => parseMembers (key :: keys) values (skipSpace more)
termination_by input.length
decreasing_by
  have hrest := parseMember_length _h
  have hskipped := skipSpace_length more
  rw [consume_eq_some] at _hcomma
  rw [_hcomma, List.length_cons] at hrest
  omega

/-- `FlatJsonParser::parse`. -/
def parseObject (values : Values) (input : Bytes) : Option Values :=
  (consume '{'.toUInt8 (skipSpace input)).bind fun rest =>
    if (consume '}'.toUInt8 (skipSpace rest)).isSome then none
    else parseMembers [] values (skipSpace rest)

def kMaxConfigBytes : ℕ := 16 * 1024

def parseValues (json : Bytes) : Option Values :=
  if kMaxConfigBytes < json.length then none else parseObject {} json

/-! ### What is parsed is in range -/

theorem utf8Bytes_noNull {point : ℕ} (h : 0x20 ≤ point) (hmax : point ≤ 0x10FFFF) :
    0 ∉ utf8Bytes point := by
  have hbyte : ∀ n : ℕ, 0 < n → n < 256 → (0 : UInt8) ≠ UInt8.ofNat n := by
    intro n hpos hlt heq
    have hnat := congrArg UInt8.toNat heq
    rw [UInt8.toNat_ofNat', Nat.mod_eq_of_lt hlt] at hnat
    simp at hnat
    omega
  have hlast : (0 : UInt8) ≠ UInt8.ofNat (0x80 + point % 64) := hbyte _ (by omega) (by omega)
  rw [utf8Bytes]
  split
  · simpa using hbyte point (by omega) (by omega)
  · split
    · simp only [List.mem_cons, List.not_mem_nil, or_false, not_or]
      exact ⟨hbyte _ (by omega) (by omega), hlast⟩
    · split
      · simp only [List.mem_cons, List.not_mem_nil, or_false, not_or]
        exact ⟨hbyte _ (by omega) (by omega), hbyte _ (by omega) (by omega), hlast⟩
      · simp only [List.mem_cons, List.not_mem_nil, or_false, not_or]
        exact ⟨hbyte _ (by omega) (by omega), hbyte _ (by omega) (by omega),
          hbyte _ (by omega) (by omega), hlast⟩

theorem escapeSequence_noNull {input text rest : Bytes}
    (h : escapeSequence input = some (text, rest)) : 0 ∉ text := by
  cases input with
  | nil => cases h
  | cons escaped input =>
    have hplain : ∀ {c : UInt8}, 0 ≠ c → some ([c], input) = some (text, rest) → 0 ∉ text := by
      intro c hc heq
      simp only [Option.some.injEq, Prod.mk.injEq] at heq
      rw [← heq.1]
      simpa using hc
    simp only [escapeSequence] at h
    split at h
    · next hescaped =>
      refine hplain ?_ h
      obtain rfl | rfl | rfl := hescaped <;> decide
    · iterate 5
        split at h
        · exact hplain (by decide) h
      split at h
      · split at h
        · cases h
        · split at h
          · cases h
          · next hrange =>
            simp only [Option.some.injEq, Prod.mk.injEq] at h
            rw [← h.1]
            exact utf8Bytes_noNull (by omega) (by omega)
      · cases h

theorem stringLoop_legible {input result text rest : Bytes} (hresult : 0 ∉ result)
    (h : stringLoop input result = some (text, rest)) : Legible text := by
  fun_induction stringLoop input result with
  | case1 => cases h
  | case2 result input hshort =>
    cases h
    exact ⟨hshort, hresult⟩
  | case3 => cases h
  | case4 => cases h
  | case5 result c input _ hprintable _ ih =>
    refine ih ?_ h
    have hc : (0 : UInt8) ≠ c := by
      rintro rfl
      exact hprintable (by decide)
    simp [hresult, hc]
  | case6 => cases h
  | case7 result c input _ _ _ text' rest' hescape ih =>
    refine ih ?_ h
    have htext := escapeSequence_noNull hescape
    simp [hresult, htext]

theorem parseString_legible {input text rest : Bytes} (h : parseString input = some (text, rest)) :
    Legible text := by
  obtain ⟨later, -, hloop⟩ := Option.bind_eq_some_iff.mp h
  exact stringLoop_legible (by simp) hloop

/-- The values after a member has been stored that is in its range. -/
inductive Member.Stores (values : Values) : Member → Values → Prop
  | text {key get set} {s : Bytes} (h : Legible s) :
      Stores values (.text key get set) (set s values)
  | boolean {key get set} (b : Bool) : Stores values (.boolean key get set) (set b values)
  | unsigned {key minimum maximum get set} {n : ℕ} (h : minimum ≤ n ∧ n ≤ maximum) :
      Stores values (.unsigned key minimum maximum get set) (set n values)
  | signed {key minimum maximum get set} {n : Int} (h : minimum ≤ n ∧ n ≤ maximum) :
      Stores values (.signed key minimum maximum get set) (set n values)

theorem Member.parse_stores {m : Member} {values values' : Values} {input rest : Bytes}
    (h : m.parse values input = some (values', rest)) : m.Stores values values' := by
  cases m with
  | text key get set =>
    obtain ⟨⟨value, rest'⟩, hvalue, hr⟩ := Option.map_eq_some_iff.mp h
    cases hr
    exact .text (parseString_legible hvalue)
  | boolean key get set =>
    obtain ⟨⟨value, rest'⟩, hvalue, hr⟩ := Option.map_eq_some_iff.mp h
    cases hr
    exact .boolean value
  | unsigned key minimum maximum get set =>
    obtain ⟨⟨value, rest'⟩, hvalue, hr⟩ := Option.bind_eq_some_iff.mp h
    simp only [Option.ite_none_left_eq_some, Option.some.injEq, Prod.mk.injEq, not_or,
      Nat.not_lt] at hr
    obtain ⟨hrange, rfl, -⟩ := hr
    exact .unsigned hrange
  | signed key minimum maximum get set =>
    obtain ⟨⟨value, rest'⟩, hvalue, hr⟩ := Option.bind_eq_some_iff.mp h
    simp only [Option.ite_none_left_eq_some, Option.some.injEq, Prod.mk.injEq, not_or,
      Int.not_lt] at hr
    obtain ⟨hrange, rfl, -⟩ := hr
    exact .signed hrange

theorem bmod_int32 {n : Int} (h : -70 ≤ n ∧ n ≤ 15) : n.bmod Int32.size = n := by
  refine Int.bmod_eq_of_le ?_ ?_
  · simp only [Int32.size]
    omega
  · simp only [Int32.size]
    omega

set_option maxRecDepth 2000 in
theorem Values.InRange.stores {values values' : Values} (h : values.InRange) {m : Member}
    (hm : m ∈ members) (hstores : m.Stores values values') : values'.InRange := by
  simp only [InRange, members, List.forall_mem_cons, Member.Admits] at h ⊢
  simp only [members, List.mem_cons, List.not_mem_nil, or_false] at hm
  -- one case for each member: its new value is in range, and the others are what they were
  rcases hm with rfl | rfl | rfl | rfl | rfl | rfl | rfl | rfl | rfl | rfl | rfl | rfl | rfl | rfl |
    rfl | rfl | rfl | rfl | rfl | rfl | rfl | rfl | rfl | rfl | rfl | rfl | rfl | rfl | rfl
  all_goals
    cases hstores
    simp only [h, true_and, and_true, List.not_mem_nil, false_imp_iff, implies_true]
  -- what is left is the new value of a text or of a number
  all_goals clear h
  all_goals first
    | assumption
    | rw [Int32.toInt_ofInt, bmod_int32 (by assumption)]
      assumption
    | simp only [UInt8.toNat_ofNat', UInt16.toNat_ofNat', UInt32.toNat_ofNat', UInt64.toNat_ofNat']
      omega

theorem parseField_inRange {key : Bytes} {values values' : Values} {input rest : Bytes}
    (hvalues : values.InRange) (h : parseField key values input = some (values', rest)) :
    values'.InRange := by
  rw [parseField] at h
  split at h
  · obtain ⟨⟨version, rest'⟩, -, hr⟩ := Option.bind_eq_some_iff.mp h
    simp only [Option.ite_none_left_eq_some, Option.some.injEq, Prod.mk.injEq] at hr
    rw [← hr.2.1]
    exact hvalues
  · obtain ⟨m, hfound, hm⟩ := Option.bind_eq_some_iff.mp h
    exact hvalues.stores (List.mem_of_find?_eq_some hfound) (m.parse_stores hm)

theorem parseMember_inRange {keys : List Bytes} {values values' : Values} {input rest key : Bytes}
    (hvalues : values.InRange) (h : parseMember keys values input = some (key, values', rest)) :
    values'.InRange := by
  obtain ⟨-, _, _, _, -, -, hfield, -⟩ := parseMember_eq_some h
  exact parseField_inRange hvalues hfield

theorem parseMembers_inRange {keys : List Bytes} {values values' : Values} {input : Bytes}
    (hvalues : values.InRange) (h : parseMembers keys values input = some values') :
    values'.InRange := by
  fun_induction parseMembers keys values input with
  | case1 => cases h
  | case2 _ _ _ _ _ _ hparsed =>
    cases h
    exact parseMember_inRange hvalues hparsed
  | case3 => cases h
  | case4 => cases h
  | case5 _ _ _ _ _ _ hparsed _ _ _ ih => exact ih (parseMember_inRange hvalues hparsed) h

theorem parseValues_inRange {json : Bytes} {values : Values} (h : parseValues json = some values) :
    values.InRange := by
  rw [parseValues, Option.ite_none_left_eq_some] at h
  obtain ⟨rest, -, h⟩ := Option.bind_eq_some_iff.mp h.2
  rw [Option.ite_none_left_eq_some] at h
  exact parseMembers_inRange defaults_inRange h.2

end Uhf.Config
