/-
The members of a JSON body (`json_string_field`, `json_object_field`).

The readers look for the quoted key in the text of the body, wherever it stands.  The trees here
are the objects whose values are strings and objects again, with the blanks and the escapes of
their text.

* `jsonStringBody_iff` — a string is read up to its closing quote;
* `scan_value`, `scan_members` — the brace count goes over a value and leaves it as it was;
* `field_extraction_iff` — when the readers return the value of a member.
-/
import UhfGateway.Web.HttpRequest

namespace Uhf.Web

/-! ### Objects and their texts -/

/-- A character of a string: itself, a simple escape, or one by its code. -/
inductive JsonChar
  | plain (c : UInt8) (h : 0x20 ≤ c ∧ c ≠ 0x22 ∧ c ≠ 0x5C)
  | escape (c character : UInt8) (h : simpleEscape c = some character)
  | unicode (d₁ d₂ d₃ d₄ : UInt8) (code : ℕ) (hcode : hexCode [d₁, d₂, d₃, d₄] = some code)
      (h : ¬ (0xD800 ≤ code ∧ code ≤ 0xDFFF))

namespace JsonChar

def text : JsonChar → Bytes
  | plain c _ => [c]
  | escape c _ _ => [0x5C, c]
  | unicode d₁ d₂ d₃ d₄ _ _ _ => [0x5C, 'u'.toUInt8, d₁, d₂, d₃, d₄]

def value : JsonChar → Bytes
  | plain c _ => [c]
  | escape _ character _ => [character]
  | unicode _ _ _ _ code _ _ => appendUtf8 [] code

end JsonChar

/-- The text of a string with its quotes. -/
def literal (chars : List JsonChar) : Bytes := 0x22 :: (chars.flatMap JsonChar.text ++ [0x22])

/-- What a string stands for. -/
def decoded (chars : List JsonChar) : Bytes := chars.flatMap JsonChar.value

/-- Blanks between two tokens. -/
abbrev Space := { text : Bytes // text.all isJsonSpace = true }

/-- A key with the blanks around it and around its colon. -/
structure JsonKey where
  before : Space
  chars : List JsonChar
  beforeColon : Space
  afterColon : Space

def JsonKey.text (key : JsonKey) : Bytes :=
  key.before.val ++ (literal key.chars ++ (key.beforeColon.val ++ ':'.toUInt8 :: key.afterColon.val))

mutual

inductive JsonValue
  | string (chars : List JsonChar)
  | object (blank : Space) (members : JsonMembers)

inductive JsonMembers
  | nil
  | cons (key : JsonKey) (value : JsonValue) (after : Space) (rest : JsonMembers)

end

mutual

def JsonValue.text : JsonValue → Bytes
  | .string chars => literal chars
  | .object blank members => 0x7B :: (blank.val ++ (members.text [] ++ [0x7D]))

/-- The members with a comma before each but the first one. -/
def JsonMembers.text : Bytes → JsonMembers → Bytes
  | _, .nil => []
  | lead, .cons key value after rest =>
    lead ++ (key.text ++ (value.text ++ (after.val ++ rest.text [','.toUInt8])))

end

def JsonMembers.toList : JsonMembers → List (JsonKey × JsonValue)
  | .nil => []
  | .cons key value _ rest => (key, value) :: rest.toList

/-- A body that is an object. -/
structure JsonObject where
  before : Space
  blank : Space
  members : JsonMembers
  after : Space

def JsonObject.text (o : JsonObject) : Bytes :=
  o.before.val ++ ((JsonValue.object o.blank o.members).text ++ o.after.val)

/-! ### Strings -/

theorem appendUtf8_append (value : Bytes) (code : ℕ) :
    appendUtf8 value code = value ++ appendUtf8 [] code := by
  rw [appendUtf8, appendUtf8]
  split
  · rfl
  split
  · rfl
  split <;> rfl

/-- A string that fits is read up to its closing quote. -/
theorem jsonStringBody_literal {maxBytes : ℕ} {value : Bytes} {chars : List JsonChar} (after : Bytes)
    (h : (value ++ decoded chars).length ≤ maxBytes) :
    jsonStringBody maxBytes value (chars.flatMap JsonChar.text ++ 0x22 :: after) =
      some (value ++ decoded chars) := by
  induction chars generalizing value with
  | nil =>
    have hempty : decoded [] = [] := rfl
    rw [hempty, List.append_nil] at h ⊢
    rw [List.flatMap_nil, List.nil_append, jsonStringBody.eq_def]
    simp only
    rw [if_pos trivial, if_pos h]
  | cons c chars ih =>
    have hsplit : decoded (c :: chars) = c.value ++ decoded chars := List.flatMap_cons
    rw [hsplit, ← List.append_assoc] at h ⊢
    have hroom : (value ++ c.value).length ≤ maxBytes := by
      rw [List.length_append] at h
      omega
    rw [List.flatMap_cons, List.append_assoc]
    cases c with
    | plain c hplain =>
      obtain ⟨hlow, hquote, hslash⟩ := hplain
      have hone : value.length + 1 ≤ maxBytes := by rwa [List.length_append] at hroom
      show jsonStringBody maxBytes value (c :: _) = _
      rw [jsonStringBody.eq_def]
      simp only
      rw [if_neg hquote, if_pos hslash, if_neg (UInt8.not_lt.mpr hlow), if_neg (Nat.not_lt.mpr hone)]
      exact ih h
    | escape c character hescape =>
      have hone : value.length + 1 ≤ maxBytes := by rwa [List.length_append] at hroom
      have hnot : c ≠ 'u'.toUInt8 := by
        rintro rfl
        cases hescape
      show jsonStringBody maxBytes value (0x5C :: c :: _) = _
      rw [jsonStringBody.eq_def]
      simp only
      rw [if_neg (by decide), if_neg (by decide), if_neg hnot]
      simp only [hescape]
      rw [if_neg (Nat.not_lt.mpr hone)]
      exact ih h
    | unicode d₁ d₂ d₃ d₄ code hcode hplain =>
      have happend : value ++ JsonChar.value (.unicode d₁ d₂ d₃ d₄ code hcode hplain) =
          appendUtf8 value code := (appendUtf8_append value code).symm
      rw [happend] at h hroom ⊢
      show jsonStringBody maxBytes value (0x5C :: 'u'.toUInt8 :: d₁ :: d₂ :: d₃ :: d₄ :: _) = _
      rw [jsonStringBody.eq_def]
      simp only
      rw [if_neg (by decide), if_neg (by decide), if_pos trivial]
      simp only [hcode]
      rw [if_neg hplain, if_neg (Nat.not_lt.mpr hroom)]
      exact ih h

/-- And what is read is the beginning of a string. -/
theorem literal_of_jsonStringBody {maxBytes : ℕ} {value text result : Bytes}
    (h : jsonStringBody maxBytes value text = some result) :
    ∃ chars after, text = chars.flatMap JsonChar.text ++ 0x22 :: after ∧
      result = value ++ decoded chars ∧ result.length ≤ maxBytes := by
  induction hlen : text.length using Nat.strongRecOn generalizing text value with
  | ind n ih =>
    -- one character, and then the rest
    have hcons : ∀ (c : JsonChar) (rest : Bytes), text = c.text ++ rest →
        jsonStringBody maxBytes (value ++ c.value) rest = some result →
          ∃ chars after, text = chars.flatMap JsonChar.text ++ 0x22 :: after ∧
            result = value ++ decoded chars ∧ result.length ≤ maxBytes := by
      intro c rest htext hrest
      have hshorter : rest.length < n := by
        rw [← hlen, htext, List.length_append]
        cases c <;> simp [JsonChar.text]
      obtain ⟨chars, after, hchars, hresult, hle⟩ := ih _ hshorter hrest rfl
      refine ⟨c :: chars, after, ?_, ?_, hle⟩
      · rw [htext, hchars, List.flatMap_cons, List.append_assoc]
      · rw [hresult, List.append_assoc]
        rfl
    cases text with
    | nil => cases h
    | cons c rest =>
      rw [jsonStringBody.eq_def] at h
      simp only at h
      split at h
      · next hquote =>
        split at h
        · next hfits =>
          obtain rfl := Option.some.inj h
          exact ⟨[], rest, congrArg (· :: rest) hquote, (List.append_nil value).symm, hfits⟩
        · cases h
      next hquote =>
      split at h
      · next hslash =>
        split at h
        · cases h
        next hlow =>
        split at h
        · cases h
        · exact hcons (.plain c ⟨UInt8.not_lt.mp hlow, hquote, hslash⟩) rest rfl h
      next hslash =>
      rw [not_not] at hslash
      cases rest with
      | nil => cases h
      | cons escaped rest =>
        simp only at h
        split at h
        · next hcode =>
          split at h
          · next d₁ d₂ d₃ d₄ rest =>
            split at h
            · cases h
            next code hdigits =>
            split at h
            · cases h
            next hplain =>
            split at h
            · cases h
            · refine hcons (.unicode d₁ d₂ d₃ d₄ code hdigits hplain) rest ?_ ?_
              · rw [hslash, hcode]
                rfl
              · rw [show JsonChar.value (.unicode d₁ d₂ d₃ d₄ code hdigits hplain) =
                  appendUtf8 [] code from rfl, ← appendUtf8_append]
                exact h
          · cases h
        next hcode =>
        split at h
        · cases h
        next character hescape =>
        split at h
        · cases h
        · refine hcons (.escape escaped character hescape) rest ?_ h
          rw [hslash]
          rfl

/-! ### Objects -/

theorem scan_quoted (depth : ℕ) (value : Bytes) {c : UInt8} (hquote : c ≠ 0x22) (hslash : c ≠ 0x5C)
    (rest : Bytes) : jsonObjectBody depth true false value (c :: rest) =
      jsonObjectBody depth true false (value ++ [c]) rest := by
  rw [jsonObjectBody, if_pos rfl, if_neg Bool.false_ne_true, decide_eq_true hquote,
    decide_eq_false hslash]

theorem scan_escaped (depth : ℕ) (value : Bytes) (c : UInt8) (rest : Bytes) :
    jsonObjectBody depth true false value (0x5C :: c :: rest) =
      jsonObjectBody depth true false (value ++ [0x5C, c]) rest := by
  rw [jsonObjectBody, if_pos rfl, if_neg Bool.false_ne_true]
  show jsonObjectBody depth true true (value ++ [0x5C]) (c :: rest) = _
  rw [jsonObjectBody, if_pos rfl, if_pos rfl, List.append_assoc]
  rfl

/-- A hexadecimal digit is neither a quote nor a backslash. -/
theorem hexCode_digits {d₁ d₂ d₃ d₄ : UInt8} {code : ℕ} (h : hexCode [d₁, d₂, d₃, d₄] = some code) :
    ∀ d ∈ [d₁, d₂, d₃, d₄], d ≠ 0x22 ∧ d ≠ 0x5C := by
  have hdigit : ∀ d, hexValue d ≠ none → d ≠ 0x22 ∧ d ≠ 0x5C := by
    intro d hd
    constructor
    · rintro rfl
      exact hd rfl
    · rintro rfl
      exact hd rfl
  intro d hd
  refine hdigit d fun hnone => ?_
  have hall : [d₁, d₂, d₃, d₄].mapM hexValue = none := by
    simp only [List.mem_cons, List.not_mem_nil, or_false] at hd
    rcases hd with rfl | rfl | rfl | rfl <;> simp [hnone]
  rw [hexCode, hall] at h
  cases h

/-- Inside a string a character does not end it. -/
theorem scan_char (depth : ℕ) (value : Bytes) (c : JsonChar) (rest : Bytes) :
    jsonObjectBody depth true false value (c.text ++ rest) =
      jsonObjectBody depth true false (value ++ c.text) rest := by
  cases c with
  | plain c hplain => exact scan_quoted depth value hplain.2.1 hplain.2.2 rest
  | escape c character hescape => exact scan_escaped depth value c rest
  | unicode d₁ d₂ d₃ d₄ code hcode hplain =>
    have hdigits := hexCode_digits hcode
    simp only [List.forall_mem_cons] at hdigits
    obtain ⟨h₁, h₂, h₃, h₄, -⟩ := hdigits
    show jsonObjectBody depth true false value (0x5C :: 'u'.toUInt8 :: d₁ :: d₂ :: d₃ :: d₄ :: rest) = _
    rw [scan_escaped, scan_quoted _ _ h₁.1 h₁.2, scan_quoted _ _ h₂.1 h₂.2,
      scan_quoted _ _ h₃.1 h₃.2, scan_quoted _ _ h₄.1 h₄.2]
    simp only [List.append_assoc]
    rfl

theorem scan_literal (depth : ℕ) (value : Bytes) (chars : List JsonChar) (rest : Bytes) :
    jsonObjectBody depth false false value (literal chars ++ rest) =
      jsonObjectBody depth false false (value ++ literal chars) rest := by
  have hchars : ∀ value, jsonObjectBody depth true false value
      (chars.flatMap JsonChar.text ++ 0x22 :: rest) =
        jsonObjectBody depth false false (value ++ (chars.flatMap JsonChar.text ++ [0x22])) rest := by
    induction chars with
    | nil =>
      intro value
      rw [List.flatMap_nil, List.nil_append, jsonObjectBody, if_pos rfl, if_neg Bool.false_ne_true]
      rfl
    | cons c chars ih =>
      intro value
      rw [List.flatMap_cons, List.append_assoc, scan_char, ih, List.append_assoc, List.append_assoc]
  rw [literal, List.cons_append, List.append_assoc, jsonObjectBody, if_neg Bool.false_ne_true,
    if_pos rfl]
  refine (hchars _).trans ?_
  rw [List.append_assoc]
  rfl

/-- Outside of a string, what is neither a quote nor a brace only goes by. -/
theorem scan_other (depth : ℕ) (value : Bytes) {between : Bytes}
    (h : ∀ c ∈ between, c ≠ 0x22 ∧ c ≠ 0x7B ∧ c ≠ 0x7D) (rest : Bytes) :
    jsonObjectBody depth false false value (between ++ rest) =
      jsonObjectBody depth false false (value ++ between) rest := by
  induction between generalizing value with
  | nil => rw [List.nil_append, List.append_nil]
  | cons c between ih =>
    obtain ⟨⟨hquote, hopen, hclose⟩, hrest⟩ := List.forall_mem_cons.mp h
    rw [List.cons_append, jsonObjectBody, if_neg Bool.false_ne_true, if_neg hquote, if_neg hopen,
      if_neg hclose, ih _ hrest, List.append_assoc]
    rfl

theorem space_other (space : Space) : ∀ c ∈ space.val, c ≠ 0x22 ∧ c ≠ 0x7B ∧ c ≠ 0x7D := by
  intro c hc
  have hspace := List.all_eq_true.mp space.property c hc
  refine ⟨?_, ?_, ?_⟩ <;> rintro rfl <;> exact absurd hspace (by decide)

theorem single_other {c : UInt8} (h : c ≠ 0x22 ∧ c ≠ 0x7B ∧ c ≠ 0x7D) :
    ∀ d ∈ [c], d ≠ 0x22 ∧ d ≠ 0x7B ∧ d ≠ 0x7D := by
  intro d hd
  rw [List.mem_singleton.mp hd]
  exact h

theorem scan_key (depth : ℕ) (value : Bytes) (key : JsonKey) (rest : Bytes) :
    jsonObjectBody depth false false value (key.text ++ rest) =
      jsonObjectBody depth false false (value ++ key.text) rest := by
  have hcolon : ∀ c ∈ [':'.toUInt8], c ≠ 0x22 ∧ c ≠ 0x7B ∧ c ≠ 0x7D := single_other (by decide)
  have hcons : ∀ text : Bytes, ':'.toUInt8 :: text = [':'.toUInt8] ++ text := fun _ => rfl
  rw [JsonKey.text, hcons]
  simp only [List.append_assoc]
  rw [scan_other _ _ (space_other _), scan_literal, scan_other _ _ (space_other _),
    scan_other _ _ hcolon, scan_other _ _ (space_other _)]
  simp only [List.append_assoc]

mutual

/-- A value goes by and leaves the depth as it was. -/
theorem scan_value (depth : ℕ) (value : Bytes) (v : JsonValue) (rest : Bytes) :
    jsonObjectBody (depth + 1) false false value (v.text ++ rest) =
      jsonObjectBody (depth + 1) false false (value ++ v.text) rest := by
  cases v with
  | string chars => exact scan_literal _ _ chars rest
  | object blank members =>
    rw [JsonValue.text, List.cons_append, jsonObjectBody, if_neg Bool.false_ne_true,
      if_neg (by decide), if_pos rfl]
    simp only [List.append_assoc]
    rw [scan_other _ _ (space_other _), scan_members (depth + 1) _ [] (fun _ h => absurd h List.not_mem_nil)
      members, List.singleton_append, jsonObjectBody, if_neg Bool.false_ne_true, if_neg (by decide),
      if_neg (by decide), if_pos rfl, if_neg (by omega)]
    simp only [List.append_assoc]
    rfl

theorem scan_members (depth : ℕ) (value : Bytes) (lead : Bytes)
    (hlead : ∀ c ∈ lead, c ≠ 0x22 ∧ c ≠ 0x7B ∧ c ≠ 0x7D) (members : JsonMembers) (rest : Bytes) :
    jsonObjectBody (depth + 1) false false value (members.text lead ++ rest) =
      jsonObjectBody (depth + 1) false false (value ++ members.text lead) rest := by
  cases members with
  | nil => rw [JsonMembers.text, List.nil_append, List.append_nil]
  | cons key v after members =>
    have hcomma : ∀ c ∈ [','.toUInt8], c ≠ 0x22 ∧ c ≠ 0x7B ∧ c ≠ 0x7D := single_other (by decide)
    rw [JsonMembers.text]
    simp only [List.append_assoc]
    rw [scan_other _ _ hlead, scan_key, scan_value, scan_other _ _ (space_other _),
      scan_members _ _ _ hcomma]
    simp only [List.append_assoc]

end

/-- The scan returns what it has gone over. -/
theorem jsonObjectBody_consumed {depth : ℕ} {quoted escaped : Bool} {value text result : Bytes}
    (h : jsonObjectBody depth quoted escaped value text = some result) :
    ∃ consumed after, text = consumed ++ after ∧ result = value ++ consumed := by
  induction text generalizing depth quoted escaped value with
  | nil => cases h
  | cons c rest ih =>
    have hnext : ∀ {depth quoted escaped},
        jsonObjectBody depth quoted escaped (value ++ [c]) rest = some result →
          ∃ consumed after, c :: rest = consumed ++ after ∧ result = value ++ consumed := by
      intro depth quoted escaped hrest
      obtain ⟨consumed, after, rfl, hresult⟩ := ih hrest
      exact ⟨c :: consumed, after, rfl, by rw [hresult, List.append_assoc]; rfl⟩
    rw [jsonObjectBody] at h
    split at h
    · split at h
      · exact hnext h
      · exact hnext h
    split at h
    · exact hnext h
    split at h
    · exact hnext h
    split at h
    · split at h
      · obtain rfl := Option.some.inj h
        exact ⟨[c], rest, rfl, rfl⟩
      · exact hnext h
    · exact hnext h

/-- An object is gone over up to its closing brace. -/
theorem jsonObjectBody_object (blank : Space) (members : JsonMembers) (after : Bytes) :
    jsonObjectBody 1 false false [0x7B] (blank.val ++ (members.text [] ++ 0x7D :: after)) =
      some (JsonValue.object blank members).text := by
  rw [scan_other _ _ (space_other _),
    scan_members 0 _ [] (fun _ h => absurd h List.not_mem_nil), jsonObjectBody,
    if_neg Bool.false_ne_true, if_neg (by decide), if_neg (by decide), if_pos rfl, if_pos rfl,
    JsonValue.text]
  simp only [List.append_assoc]
  rfl

/-! ### Members -/

/-- A key as the readers look for it. -/
def quotedKey (key : String) : Bytes := [0x22] ++ ascii key ++ [0x22]

/-- The first place where the text has the key in quotes is followed by a colon and by `rest`. -/
def FollowsKey (text : Bytes) (key : String) (rest : Bytes) : Prop :=
  ∃ (before : Bytes) (blank blank' : Space), cut (quotedKey key) text =
    some (before, blank.val ++ ':'.toUInt8 :: (blank'.val ++ rest))

theorem dropWhile_space (blank : Space) {c : UInt8} (h : isJsonSpace c = false) (rest : Bytes) :
    (blank.val ++ c :: rest).dropWhile isJsonSpace = c :: rest := by
  rw [List.dropWhile_append_of_pos (List.all_eq_true.mp blank.property),
    List.dropWhile_cons_of_neg (by rw [h]; exact Bool.false_ne_true)]

theorem space_dropWhile {text rest : Bytes} {c : UInt8} (h : text.dropWhile isJsonSpace = c :: rest) :
    ∃ blank : Space, text = blank.val ++ c :: rest := by
  refine ⟨⟨text.takeWhile isJsonSpace, List.all_takeWhile⟩, ?_⟩
  rw [← h]
  exact List.takeWhile_append_dropWhile.symm

theorem jsonMember_iff {text rest : Bytes} {key : String} {opening : UInt8}
    (hopening : isJsonSpace opening = false) :
    jsonMember text key opening = some rest ↔ FollowsKey text key (opening :: rest) := by
  rw [jsonMember, FollowsKey, quotedKey]
  constructor
  · intro h
    obtain ⟨⟨before, after⟩, hcut, h⟩ := Option.bind_eq_some_iff.mp h
    simp only at h
    split at h
    · next c behind hbehind =>
      split at h
      · cases h
      next hcolon =>
      rw [not_not] at hcolon
      subst hcolon
      split at h
      · next c value hvalue =>
        split at h
        · next heq =>
          obtain rfl := Option.some.inj h
          subst heq
          obtain ⟨blank, hblank⟩ := space_dropWhile hbehind
          obtain ⟨blank', hblank'⟩ := space_dropWhile hvalue
          exact ⟨before, blank, blank', by rw [hcut, hblank, hblank']⟩
        · cases h
      · cases h
    · cases h
  · rintro ⟨before, blank, blank', hcut⟩
    rw [hcut]
    simp only [Option.bind_eq_bind, Option.bind_some]
    rw [dropWhile_space blank (by decide)]
    simp only
    rw [if_neg (not_not.mpr rfl), dropWhile_space blank' hopening]
    exact if_pos rfl

/-- A text in which a pattern stands at one place only. -/
def StandsOnce (pattern text : Bytes) : Prop :=
  ∀ a z a' z', text = a ++ (pattern ++ z) → text = a' ++ (pattern ++ z') → a = a'

theorem cut_of_once {pattern text a z : Bytes} (h : StandsOnce pattern text)
    (htext : text = a ++ (pattern ++ z)) : cut pattern text = some (a, z) := by
  obtain ⟨⟨a', z'⟩, hcut⟩ := exists_cut pattern a z
  rw [← htext] at hcut
  have hparts := cut_parts hcut
  obtain rfl := h _ _ _ _ htext hparts
  rw [htext] at hparts
  rw [hcut, List.append_cancel_left (List.append_cancel_left hparts)]

theorem member_text {key : JsonKey} {v : JsonValue} (members : JsonMembers)
    (h : (key, v) ∈ members.toList) (lead : Bytes) :
    ∃ before after, members.text lead = before ++ (key.text ++ (v.text ++ after)) := by
  cases members with
  | nil => exact absurd h List.not_mem_nil
  | cons first value space rest =>
    rw [JsonMembers.text]
    obtain heq | hrest := List.mem_cons.mp h
    · obtain ⟨rfl, rfl⟩ := Prod.mk.inj heq
      exact ⟨lead, _, rfl⟩
    · obtain ⟨before, after, htext⟩ := member_text rest hrest [','.toUInt8]
      refine ⟨lead ++ (first.text ++ (value.text ++ (space.val ++ before))), after, ?_⟩
      rw [htext]
      simp only [List.append_assoc]

/-- A key without escapes stands in the text as the readers look for it. -/
theorem literal_plain {chars : List JsonChar} {k : String} (h : ∀ c ∈ chars, c.text = c.value)
    (hdecoded : decoded chars = ascii k) : literal chars = quotedKey k := by
  rw [quotedKey, ← hdecoded, literal, decoded, List.flatMap_congr h]
  rfl

/-- Where the quoted key stands once, what follows it is the member. -/
theorem followsKey_of_once {o : JsonObject} {k : String} {key : JsonKey} {v : JsonValue}
    (hmember : (key, v) ∈ o.members.toList) (hkey : literal key.chars = quotedKey k)
    (honce : StandsOnce (quotedKey k) o.text) : ∃ after, FollowsKey o.text k (v.text ++ after) := by
  obtain ⟨before, after, htext⟩ := member_text _ hmember []
  refine ⟨after ++ ([0x7D] ++ o.after.val), o.before.val ++ (0x7B :: (o.blank.val ++ (before ++
    key.before.val))), key.beforeColon, key.afterColon, cut_of_once honce ?_⟩
  rw [JsonObject.text, JsonValue.text, htext, JsonKey.text, hkey]
  simp only [List.append_assoc, List.cons_append, List.nil_append]

/-- A string member is read exactly if a string of the same value follows the first place of its
quoted key, and an object member exactly if its text does; so it is where the quoted key stands
at one place only and is written without escapes. -/
theorem field_extraction_iff {o : JsonObject} {k : String} {key : JsonKey}
    (hkey : decoded key.chars = ascii k) :
    (∀ chars maxBytes, (key, JsonValue.string chars) ∈ o.members.toList →
      (decoded chars).length ≤ maxBytes →
        (jsonStringField o.text k maxBytes = some (decoded chars) ↔
          ∃ chars' after, FollowsKey o.text k (literal chars' ++ after) ∧
            decoded chars' = decoded chars)) ∧
    (∀ blank members, (key, JsonValue.object blank members) ∈ o.members.toList →
      (jsonObjectField o.text k = some (JsonValue.object blank members).text ↔
        ∃ after, FollowsKey o.text k ((JsonValue.object blank members).text ++ after))) ∧
    ((∀ c ∈ key.chars, c.text = c.value) → StandsOnce (quotedKey k) o.text →
      ∀ v, (key, v) ∈ o.members.toList → ∃ after, FollowsKey o.text k (v.text ++ after)) := by
  refine ⟨?_, ?_, ?_⟩
  · intro chars maxBytes _ hfits
    rw [jsonStringField]
    constructor
    · intro h
      obtain ⟨rest, hmember, hbody⟩ := Option.bind_eq_some_iff.mp h
      obtain ⟨chars', after, rfl, hvalue, -⟩ := literal_of_jsonStringBody hbody
      refine ⟨chars', after, ?_, hvalue.symm⟩
      have hfollows := (jsonMember_iff (by decide)).mp hmember
      rwa [literal, List.cons_append, List.append_assoc]
    · rintro ⟨chars', after, hfollows, hvalue⟩
      rw [literal, List.cons_append, List.append_assoc] at hfollows
      rw [(jsonMember_iff (by decide)).mpr hfollows, ← hvalue]
      exact jsonStringBody_literal after (by rw [List.nil_append, hvalue]; exact hfits)
  · intro blank members _
    rw [jsonObjectField]
    constructor
    · intro h
      obtain ⟨rest, hmember, hbody⟩ := Option.bind_eq_some_iff.mp h
      obtain ⟨consumed, after, rfl, hresult⟩ := jsonObjectBody_consumed hbody
      refine ⟨after, ?_⟩
      rw [hresult]
      exact (jsonMember_iff (by decide)).mp hmember
    · rintro ⟨after, hfollows⟩
      rw [JsonValue.text, List.cons_append, List.append_assoc, List.append_assoc] at hfollows
      rw [(jsonMember_iff (by decide)).mpr hfollows]
      exact jsonObjectBody_object blank members after
  · exact fun hplain honce v hmember => followsKey_of_once hmember (literal_plain hplain hkey) honce

/-! ### One key in two places -/

/-- No blanks. -/
def noSpace : Space := ⟨[], rfl⟩

def bareKey (chars : List JsonChar) : JsonKey := ⟨noSpace, chars, noSpace, noSpace⟩

/-- An object without blanks. -/
def bareObject (members : JsonMembers) : JsonObject := ⟨noSpace, noSpace, members, noSpace⟩

/-- In an object of one member the member is read. -/
theorem field_extraction_single : ∃ (o : JsonObject) (chars : List JsonChar),
    o.text = ascii "\x7b\"k\":\"v\"\x7d" ∧ decoded chars = ascii "v" ∧
      jsonStringField o.text "k" 256 = some (decoded chars) := by
  have hkey : decoded [.plain 0x6B (by decide)] = ascii "k" := rfl
  have hcut : cut (quotedKey "k") (ascii "\x7b\"k\":\"v\"\x7d") =
      some (ascii "\x7b", ascii ":\"v\"\x7d") := by decide
  have hiff := (@field_extraction_iff
    (bareObject (.cons (bareKey [.plain 0x6B (by decide)]) (.string [.plain 0x76 (by decide)]) noSpace
      .nil)) "k" (bareKey [.plain 0x6B (by decide)]) hkey).1 [.plain 0x76 (by decide)] 256
    List.mem_cons_self (by decide)
  exact ⟨_, _, rfl, rfl, hiff.mpr ⟨[.plain 0x76 (by decide)], ascii "\x7d",
    ⟨ascii "\x7b", noSpace, noSpace, hcut⟩, rfl⟩⟩

/-- An inner member of the same name in front, or a string that is the name itself. -/
theorem field_extraction_misread : (∃ (o : JsonObject) (key : JsonKey) (chars : List JsonChar),
    o.text = ascii "\x7b\"a\":\x7b\"k\":\"x\"\x7d,\"k\":\"y\"\x7d" ∧
      (key, JsonValue.string chars) ∈ o.members.toList ∧ decoded key.chars = ascii "k" ∧
      (o.members.toList.map fun member => decoded member.1.chars).Nodup ∧
      decoded chars = ascii "y" ∧ jsonStringField o.text "k" 256 = some (ascii "x")) ∧
    ∃ (o : JsonObject) (key : JsonKey) (blank : Space) (members : JsonMembers),
      o.text = ascii "\x7b\"a\":\"k\",\"k\":\x7b\x7d\x7d" ∧
        (key, JsonValue.object blank members) ∈ o.members.toList ∧ decoded key.chars = ascii "k" ∧
        jsonObjectField o.text "k" = none := by
  constructor
  · refine ⟨bareObject (.cons (bareKey [.plain 0x61 (by decide)]) (.object noSpace
      (.cons (bareKey [.plain 0x6B (by decide)]) (.string [.plain 0x78 (by decide)]) noSpace .nil))
      noSpace (.cons (bareKey [.plain 0x6B (by decide)]) (.string [.plain 0x79 (by decide)]) noSpace
        .nil)), _, _, rfl, List.mem_cons_of_mem _ List.mem_cons_self, rfl, by decide, rfl, ?_⟩
    decide
  · refine ⟨bareObject (.cons (bareKey [.plain 0x61 (by decide)]) (.string [.plain 0x6B (by decide)])
      noSpace (.cons (bareKey [.plain 0x6B (by decide)]) (.object noSpace .nil) noSpace .nil)),
      _, _, _, rfl, List.mem_cons_of_mem _ List.mem_cons_self, rfl, ?_⟩
    decide

end Uhf.Web
