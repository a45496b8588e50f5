/-
The text of a configuration and its way back (`ConfigStore::serialize`, `parse_version`).

The file is read by two routines that know nothing of each other: the parser of the values,
and a search for the version.

* `Member.parse_write` — each member is read back from what is written of it;
* `parseValues_serialize`, `parseVersion_serialize` — what both find in a written file;
* `codec_round_trip` — a configuration that has been accepted survives its text.
-/
import Mathlib.Algebra.Order.BigOperators.Group.List
import Mathlib.Algebra.Order.Ring.Nat
import Mathlib.Data.List.Nodup
import Mathlib.Data.List.TakeWhile
import UhfGateway.Config.Documents

namespace Uhf.Config

/-- `json_escape`. -/
def jsonEscape (value : Bytes) : Bytes :=
  value.flatMap fun c =>
    if c = '"'.toUInt8 ∨ c = '\\'.toUInt8 then ['\\'.toUInt8, c] else [c]

def Member.write (values : Values) : Member → Bytes
  | text _ get _ => '"'.toUInt8 :: jsonEscape (get values) ++ ['"'.toUInt8]
  | boolean _ get _ => if get values then ascii "true" else ascii "false"
  | unsigned _ _ _ get _ => decimal (get values)
  | signed _ _ _ get _ => decimal (get values)

/-- A key and a value, as they stand in a line of the file. -/
def entry (key value : Bytes) : Bytes :=
  '"'.toUInt8 :: key ++ '"'.toUInt8 :: ':'.toUInt8 :: ' '.toUInt8 :: value

/-- The end of the file behind the last member. -/
def fileEnd : Bytes := ascii "\n\x7d\n"

def serialize (snapshot : Snapshot) : Bytes :=
  ascii "\x7b\n  " ++
    (ascii ",\n  ").intercalate
      (entry (ascii "version") (decimal snapshot.version.toNat) ::
        members.map fun m => entry m.key (m.write snapshot.values)) ++
    fileEnd

/-- What is left of the contents from the first occurrence of a text on. -/
def findText (text : Bytes) : Bytes → Option Bytes
  | [] => if text = [] then some [] else none
  | c :: contents =>
    if text.isPrefixOf (c :: contents) then some (c :: contents) else findText text contents

/-- `std::isspace`. -/
def isCSpace (c : UInt8) : Bool := c = 0x20 || (0x09 ≤ c && c ≤ 0x0D)

theorem isDigit_notSpace {c : UInt8} (h : isDigit c = true) : isCSpace c = false := by
  simp only [isDigit, isCSpace, Bool.and_eq_true, Bool.or_eq_false_iff, Bool.and_eq_false_iff,
    decide_eq_true_eq, decide_eq_false_iff_not, UInt8.le_iff_toNat_le, ← UInt8.toNat_inj,
    UInt8.reduceToNat] at h ⊢
  have hlow : 48 ≤ c.toNat := h.1
  omega

def parseVersion (contents : Bytes) : Option UInt64 :=
  (findText (ascii "\"version\"") contents).bind fun found =>
    let digits := ((found.dropWhile (· ≠ ':'.toUInt8)).tail.dropWhile isCSpace).takeWhile isDigit
    (fromChars digits).bind fun version =>
      if version = 0 then none else some (UInt64.ofNat version)

/-! ### Strings -/

/-- The text holds no control characters. -/
def Printable (text : Bytes) : Prop := ∀ c ∈ text, 0x20 ≤ c

instance (text : Bytes) : Decidable (Printable text) := List.decidableBAll _ text

theorem stringLoop_jsonEscape {value : Bytes} (hprintable : Printable value) (result rest : Bytes) :
    stringLoop (jsonEscape value ++ '"'.toUInt8 :: rest) result =
      if (result ++ value).length ≤ 256 then some (result ++ value, rest) else none := by
  induction value generalizing result with
  | nil =>
    rw [jsonEscape, List.flatMap_nil, List.nil_append, stringLoop, if_pos rfl, List.append_nil]
  | cons c value ih =>
    obtain ⟨hc, hvalue⟩ := List.forall_mem_cons.mp hprintable
    have hgoOn := ih hvalue (result ++ [c])
    rw [List.append_assoc, List.singleton_append] at hgoOn
    rw [← hgoOn, jsonEscape, List.flatMap_cons]
    by_cases hescaped : c = '"'.toUInt8 ∨ c = '\\'.toUInt8
    · rw [if_pos hescaped, List.cons_append, List.cons_append, stringLoop, if_neg (by decide),
        if_neg (by decide), if_neg (by simp)]
      have hsequence : escapeSequence (c :: (jsonEscape value ++ '"'.toUInt8 :: rest)) =
          some ([c], jsonEscape value ++ '"'.toUInt8 :: rest) := by
        rw [escapeSequence, if_pos]
        obtain rfl | rfl := hescaped
        · exact .inl rfl
        · exact .inr (.inl rfl)
      simp only [List.singleton_append]
      split
      · next hnone =>
        rw [← jsonEscape, List.cons_append, hsequence] at hnone
        cases hnone
      · next text' rest' hsome =>
        rw [← jsonEscape, List.cons_append, hsequence] at hsome
        cases hsome
        rfl
    · rw [not_or] at hescaped
      have hnotControl : ¬ c < 0x20 := UInt8.not_lt.mpr hc
      rw [if_neg (by simp [hescaped]), List.singleton_append, List.cons_append, stringLoop,
        if_neg hescaped.1, if_neg hnotControl, if_pos hescaped.2, ← jsonEscape]

theorem parseString_write {value : Bytes} (hprintable : Printable value)
    (hshort : value.length ≤ 256) (rest : Bytes) :
    parseString ('"'.toUInt8 :: jsonEscape value ++ '"'.toUInt8 :: rest) = some (value, rest) := by
  rw [parseString, List.cons_append, consume, if_pos rfl, Option.bind_some,
    stringLoop_jsonEscape hprintable, List.nil_append, if_pos hshort]

/-! ### Numbers -/

theorem parseUnsigned_decimal {n : ℕ} (hn : n < 18446744073709551616) {rest : Bytes}
    (hrest : NoDigit rest) : parseUnsigned (decimal (n : Int) ++ rest) = some (n, rest) := by
  obtain ⟨htake, hdrop⟩ := takeWhile_decimal (n := n) hrest
  rw [parseUnsigned, htake, hdrop, fromChars_decimal hn]
  rfl

theorem head_decimal_ne {n : ℕ} {c : UInt8} (hc : isDigit c = false) (rest : Bytes) :
    (decimal (n : Int) ++ rest).head? ≠ some c := by
  intro hhead
  have hdigits := all_isDigit_decimal n
  cases htext : decimal (n : Int) with
  | nil => exact decimal_ne_nil n htext
  | cons first more =>
    rw [htext, List.cons_append, List.head?_cons, Option.some.injEq] at hhead
    rw [htext, List.all_cons, hhead, hc] at hdigits
    cases hdigits

theorem parseSigned_decimal {z : Int} (hlow : -9223372036854775808 ≤ z)
    (hhigh : z ≤ 9223372036854775807) {rest : Bytes} (hrest : NoDigit rest) :
    parseSigned (decimal z ++ rest) = some (z, rest) := by
  have hrange : ¬ (z < -9223372036854775808 ∨ 9223372036854775807 < z) := by omega
  rcases Int.lt_or_le z 0 with hneg | hpos
  · obtain ⟨n, rfl, hn⟩ : ∃ n : ℕ, z = -(n : Int) ∧ 0 < n := ⟨z.natAbs, by omega, by omega⟩
    obtain ⟨htake, hdrop⟩ := takeWhile_decimal (n := n) hrest
    rw [decimal_neg hn, List.cons_append]
    simp only [parseSigned, List.head?_cons, decide_true, if_true, List.tail_cons, htake, hdrop,
      decimal_ne_nil, if_false, digitsValue_decimal, hrange]
  · obtain ⟨n, rfl⟩ : ∃ n : ℕ, z = (n : Int) := ⟨z.natAbs, by omega⟩
    obtain ⟨htake, hdrop⟩ := takeWhile_decimal (n := n) hrest
    have hsign : (decimal (n : Int) ++ rest).head? ≠ some '-'.toUInt8 :=
      head_decimal_ne (by decide) rest
    simp only [parseSigned, hsign, decide_false, Bool.false_eq_true, if_false, htake, hdrop,
      decimal_ne_nil, digitsValue_decimal, hrange]

theorem parseBoolean_write (b : Bool) (rest : Bytes) :
    parseBoolean ((if b then ascii "true" else ascii "false") ++ rest) = some (b, rest) := by
  cases b with
  | true => rfl
  | false => rfl

/-! ### Members -/

/-- The value of one member taken over from other values. -/
def Member.copy (source target : Values) : Member → Values
  | text _ get set => set (get source) target
  | boolean _ get set => set (get source) target
  | unsigned _ _ _ get set => set (get source) target
  | signed _ _ _ get set => set (get source) target

/-- The text of a member is printable, and its range is one of a 64 bit number. -/
def Member.Writable (values : Values) : Member → Prop
  | text _ get _ => Printable (get values)
  | boolean .. => True
  | unsigned _ _ maximum _ _ => maximum < 18446744073709551616
  | signed _ minimum maximum _ _ =>
      -9223372036854775808 ≤ minimum ∧ maximum ≤ 9223372036854775807

theorem Member.parse_write {m : Member} {source target : Values} (hadmits : m.Admits source)
    (hwritable : m.Writable source) {rest : Bytes} (hrest : NoDigit rest) :
    m.parse target (m.write source ++ rest) = some (m.copy source target, rest) := by
  cases m with
  | text key get set =>
    rw [write, parse, List.append_assoc, List.singleton_append,
      parseString_write hwritable hadmits.short]
    rfl
  | boolean key get set =>
    rw [write, parse, parseBoolean_write]
    rfl
  | unsigned key minimum maximum get set =>
    have hrange : ¬ (get source < minimum ∨ maximum < get source) := by
      rw [not_or, Nat.not_lt, Nat.not_lt]
      exact hadmits
    rw [write, parse, parseUnsigned_decimal (Nat.lt_of_le_of_lt hadmits.2 hwritable) hrest,
      Option.bind_some]
    simp only [hrange, if_false]
    rfl
  | signed key minimum maximum get set =>
    have hrange : ¬ (get source < minimum ∨ maximum < get source) := by
      rw [not_or, Int.not_lt, Int.not_lt]
      exact hadmits
    rw [write, parse, parseSigned_decimal (Int.le_trans hwritable.1 hadmits.1)
      (Int.le_trans hadmits.2 hwritable.2) hrest, Option.bind_some]
    simp only [hrange, if_false]
    rfl

theorem skipSpace_of_not {c : UInt8} (h : isSpace c = false) (rest : Bytes) :
    skipSpace (c :: rest) = c :: rest := by
  simp [skipSpace, h]

/-- Spaces between the tokens. -/
def Blank (gap : Bytes) : Prop := ∀ c ∈ gap, isSpace c = true

theorem skipSpace_gap (input : Bytes) : ∃ gap, Blank gap ∧ input = gap ++ skipSpace input :=
  ⟨input.takeWhile isSpace, fun _ hc => List.mem_takeWhile_imp hc,
    List.takeWhile_append_dropWhile.symm⟩

theorem Blank.not_mem {gap : Bytes} (h : Blank gap) {c : UInt8} (hc : isSpace c = false) :
    c ∉ gap := by
  intro hmem
  rw [h c hmem] at hc
  cases hc

theorem Blank.skipSpace {gap : Bytes} (h : Blank gap) (rest : Bytes) :
    skipSpace (gap ++ rest) = skipSpace rest := List.dropWhile_append_of_pos h

theorem skipSpace_decimal (n : ℕ) (rest : Bytes) :
    skipSpace (decimal (n : Int) ++ rest) = decimal (n : Int) ++ rest := by
  have hdigits := all_isDigit_decimal n
  cases htext : decimal (n : Int) with
  | nil => exact absurd htext (decimal_ne_nil n)
  | cons first more =>
    rw [htext, List.all_cons, Bool.and_eq_true] at hdigits
    have hspace : isSpace first = false := by
      rw [Bool.eq_false_iff]
      intro hspace
      simp only [isSpace, Bool.or_eq_true, decide_eq_true_eq] at hspace
      rcases hspace with ((rfl | rfl) | rfl) | rfl <;> exact absurd hdigits.1 (by decide)
    exact skipSpace_of_not hspace _

theorem Member.skipSpace_write (m : Member) (values : Values) (rest : Bytes) :
    skipSpace (m.write values ++ rest) = m.write values ++ rest := by
  cases m with
  | text key get set =>
    rw [write, List.cons_append, List.cons_append]
    exact skipSpace_of_not (by decide) _
  | boolean key get set =>
    rw [write]
    cases get values with
    | true => exact skipSpace_of_not (by decide) _
    | false => exact skipSpace_of_not (by decide) _
  | unsigned key minimum maximum get set => exact skipSpace_decimal _ rest
  | signed key minimum maximum get set =>
    rw [write]
    rcases Int.lt_or_le (get values) 0 with hneg | hpos
    · obtain ⟨n, hn, hpos⟩ : ∃ n : ℕ, get values = -(n : Int) ∧ 0 < n :=
        ⟨(get values).natAbs, by omega, by omega⟩
      rw [hn, decimal_neg hpos]
      exact skipSpace_of_not (by decide) _
    · obtain ⟨n, hn⟩ : ∃ n : ℕ, get values = (n : Int) := ⟨(get values).natAbs, by omega⟩
      rw [hn]
      exact skipSpace_decimal n rest

/-- A key that `json_escape` would not change. -/
def Plain (key : Bytes) : Prop :=
  key.length ≤ 256 ∧ ∀ c ∈ key, 0x20 ≤ c ∧ c ≠ '"'.toUInt8 ∧ c ≠ '\\'.toUInt8

instance (key : Bytes) : Decidable (Plain key) :=
  @instDecidableAnd _ _ inferInstance (List.decidableBAll _ key)

theorem jsonEscape_plain {key : Bytes} (h : Plain key) : jsonEscape key = key := by
  have hall := h.2
  clear h
  induction key with
  | nil => rfl
  | cons c key ih =>
    obtain ⟨⟨-, hquote, hbackslash⟩, hkey⟩ := List.forall_mem_cons.mp hall
    rw [jsonEscape, List.flatMap_cons, if_neg (by simp [hquote, hbackslash]), ← jsonEscape, ih hkey]
    rfl

/-- A key between its quotes. -/
def quotedKey (key : Bytes) : Bytes := '"'.toUInt8 :: (key ++ ['"'.toUInt8])

theorem readMember_written {keys : List Bytes} {values : Values} {key value rest : Bytes}
    (hplain : Plain key) (hnew : key ∉ keys) (hspace : skipSpace (value ++ rest) = value ++ rest) :
    readMember keys values (entry key value ++ rest) =
      (parseField key values (value ++ rest)).map fun (values, behind) =>
        (⟨quotedKey key, key, taken (value ++ rest) behind⟩, values, skipSpace behind) := by
  have htext : entry key value ++ rest =
      quotedKey key ++ ':'.toUInt8 :: ' '.toUInt8 :: (value ++ rest) := by
    rw [entry, quotedKey]
    simp
  have hkey : parseString (entry key value ++ rest) =
      some (key, ':'.toUInt8 :: ' '.toUInt8 :: (value ++ rest)) := by
    have hwritten := parseString_write (fun c hc => (hplain.2 c hc).1) hplain.1
      (':'.toUInt8 :: ' '.toUInt8 :: (value ++ rest))
    rw [jsonEscape_plain hplain] at hwritten
    rw [← hwritten, entry]
    simp
  have hname : taken (entry key value ++ rest)
      (':'.toUInt8 :: ' '.toUInt8 :: (value ++ rest)) = quotedKey key := by
    rw [htext, taken_append]
  have hcolon : skipSpace (':'.toUInt8 :: ' '.toUInt8 :: (value ++ rest)) =
      ':'.toUInt8 :: ' '.toUInt8 :: (value ++ rest) := skipSpace_of_not (by decide) _
  have hblank : skipSpace (' '.toUInt8 :: (value ++ rest)) = value ++ rest := hspace
  simp only [readMember, hkey, Option.bind_some, hname, hcolon, consume, if_true, hnew, if_false,
    hblank]

theorem readMember_entry {keys : List Bytes} {values values' : Values} {key value rest : Bytes}
    (hplain : Plain key) (hnew : key ∉ keys) (hspace : skipSpace (value ++ rest) = value ++ rest)
    (hfield : parseField key values (value ++ rest) = some (values', rest)) :
    readMember keys values (entry key value ++ rest) =
      some (⟨quotedKey key, key, value⟩, values', skipSpace rest) := by
  rw [readMember_written hplain hnew hspace, hfield, Option.map_some]
  dsimp only
  rw [taken_append]

theorem readMembers_last {keys : List Bytes} {values values' : Values} {text : Bytes}
    {w : WrittenMember}
    (hmember : readMember keys values (text ++ fileEnd) = some (w, values', skipSpace fileEnd)) :
    readMembers keys values (text ++ fileEnd) = some ([w], values') := by
  have hconsume : consume '}'.toUInt8 (skipSpace fileEnd) = some (ascii "\n") := by decide
  have hspace : skipSpace (ascii "\n") = [] := by decide
  rw [readMembers_eq, hmember]
  simp only [hconsume, hspace, if_true]

theorem readMembers_more {keys : List Bytes} {values values' : Values} {text more : Bytes}
    {w : WrittenMember}
    (hmember : readMember keys values (text ++ (ascii ",\n  " ++ more)) =
      some (w, values', skipSpace (ascii ",\n  " ++ more)))
    (hmore : skipSpace more = more) :
    readMembers keys values (text ++ (ascii ",\n  " ++ more)) =
      (readMembers (w.key :: keys) values' more).map fun (ws, values) => (w :: ws, values) := by
  have hcomma : skipSpace (ascii ",\n  " ++ more) = ','.toUInt8 :: (ascii "\n  " ++ more) := rfl
  have hblank : skipSpace (ascii "\n  " ++ more) = more := hmore
  have hnoBrace : consume '}'.toUInt8 (','.toUInt8 :: (ascii "\n  " ++ more)) = none := rfl
  have hconsume : consume ','.toUInt8 (','.toUInt8 :: (ascii "\n  " ++ more)) =
      some (ascii "\n  " ++ more) := rfl
  rw [readMembers_eq, hmember, hcomma]
  simp only [hnoBrace, hconsume, hblank]

/-- No value is written with more bytes. -/
def Member.bound : Member → ℕ
  | text .. => 514
  | _ => 20

/-- What is to be known of the keys; together, since the texts are evaluated only once then. -/
theorem keys_checked : (members.map Member.key).Nodup ∧
    (∀ m ∈ members, Plain m.key ∧ ':'.toUInt8 ∉ m.key ∧ m.key ≠ ascii "version") ∧
    Plain (ascii "version") ∧ (members.map fun m => m.key.length + m.bound + 8).sum ≤ 16000 := by
  decide +kernel

theorem nodup_keys : (members.map Member.key).Nodup := keys_checked.1

theorem plain_keys : ∀ m ∈ members, Plain m.key := fun m hm => (keys_checked.2.1 m hm).1

theorem version_not_key : ∀ m ∈ members, m.key ≠ ascii "version" :=
  fun m hm => (keys_checked.2.1 m hm).2.2

theorem version_plain : Plain (ascii "version") := keys_checked.2.2.1

theorem find_member {m : Member} (h : m ∈ members) :
    (members.find? fun m' => m'.key = m.key) = some m := by
  cases hfound : members.find? fun m' => m'.key = m.key with
  | none =>
    have hno := List.find?_eq_none.mp hfound m h
    simp at hno
  | some m' =>
    have hkey : m'.key = m.key := by simpa using List.find?_some hfound
    rw [List.inj_on_of_nodup_map nodup_keys (List.mem_of_find?_eq_some hfound) h hkey]

/-- A member as it is written of the values. -/
def Member.written (values : Values) (m : Member) : WrittenMember :=
  ⟨quotedKey m.key, m.key, m.write values⟩

theorem readMember_member {source target : Values} {m : Member} {keys : List Bytes} {rest : Bytes}
    (hm : m ∈ members) (hkey : m.key ∉ keys) (hadmits : m.Admits source)
    (hwritable : m.Writable source) (hrest : NoDigit rest) :
    readMember keys target (entry m.key (m.write source) ++ rest) =
      some (m.written source, m.copy source target, skipSpace rest) := by
  have hfield : parseField m.key target (m.write source ++ rest) =
      some (m.copy source target, rest) := by
    rw [parseField, if_neg (version_not_key m hm), find_member hm]
    exact Member.parse_write hadmits hwritable hrest
  exact readMember_entry (plain_keys m hm) hkey (m.skipSpace_write source rest) hfield

/-- The members of an object, from some one on, are taken over one after the other. -/
theorem readMembers_members {source target : Values} {ms : List Member} {keys : List Bytes}
    (hne : ms ≠ []) (hmembers : ∀ m ∈ ms, m ∈ members)
    (hnodup : (ms.map Member.key).Nodup) (hkeys : ∀ m ∈ ms, m.key ∉ keys)
    (hadmits : ∀ m ∈ ms, m.Admits source) (hwritable : ∀ m ∈ ms, m.Writable source) :
    readMembers keys target
        ((ascii ",\n  ").intercalate (ms.map fun m => entry m.key (m.write source)) ++ fileEnd) =
      some (ms.map (Member.written source),
        ms.foldl (fun target m => m.copy source target) target) := by
  induction ms generalizing keys target with
  | nil => exact absurd rfl hne
  | cons m ms ih =>
    obtain ⟨hm, hms⟩ := List.forall_mem_cons.mp hmembers
    obtain ⟨hkey, hkeysRest⟩ := List.forall_mem_cons.mp hkeys
    obtain ⟨hhead, hadmitsRest⟩ := List.forall_mem_cons.mp hadmits
    obtain ⟨hwrite, hwriteRest⟩ := List.forall_mem_cons.mp hwritable
    rw [List.map_cons, List.nodup_cons] at hnodup
    cases ms with
    | nil =>
      have hmember : readMember keys target (entry m.key (m.write source) ++ fileEnd) =
          some (m.written source, m.copy source target, skipSpace fileEnd) :=
        readMember_member hm hkey hhead hwrite (noDigit_cons (by decide) _)
      rw [List.map_cons, List.map_nil, List.intercalate_singleton, readMembers_last hmember]
      rfl
    | cons next ms =>
      let more := (ascii ",\n  ").intercalate
        ((next :: ms).map fun m => entry m.key (m.write source)) ++ fileEnd
      have hmore : skipSpace more = more := by
        cases ms <;> rfl
      have hmember : readMember keys target
          (entry m.key (m.write source) ++ (ascii ",\n  " ++ more)) =
            some (m.written source, m.copy source target, skipSpace (ascii ",\n  " ++ more)) :=
        readMember_member hm hkey hhead hwrite (noDigit_cons (by decide) _)
      have hrest := @ih (m.copy source target) (m.key :: keys) (by simp) hms
        hnodup.2 ?_ hadmitsRest hwriteRest
      · rw [List.map_cons, List.map_cons, List.intercalate_cons_cons, List.append_assoc,
          List.append_assoc]
        refine (readMembers_more hmember hmore).trans ?_
        rw [show (m.written source).key = m.key from rfl, hrest]
        rfl
      · intro m' hm' hmem
        obtain heq | hmem := List.mem_cons.mp hmem
        · exact hnodup.1 (heq ▸ List.mem_map_of_mem hm')
        · exact hkeysRest m' hm' hmem

theorem skipSpace_entry (key value rest : Bytes) :
    skipSpace (entry key value ++ rest) = entry key value ++ rest :=
  skipSpace_of_not (by decide) _

/-- Members with others behind them. -/
theorem readMembers_append {source target : Values} {ms : List Member} {keys : List Bytes}
    {more : Bytes} (hmembers : ∀ m ∈ ms, m ∈ members) (hnodup : (ms.map Member.key).Nodup)
    (hkeys : ∀ m ∈ ms, m.key ∉ keys) (hadmits : ∀ m ∈ ms, m.Admits source)
    (hwritable : ∀ m ∈ ms, m.Writable source) (hmore : skipSpace more = more) :
    readMembers keys target
        (ms.flatMap (fun m => entry m.key (m.write source) ++ ascii ",\n  ") ++ more) =
      (readMembers ((ms.map Member.key).reverse ++ keys)
        (ms.foldl (fun target m => m.copy source target) target) more).map fun (ws, values) =>
          (ms.map (Member.written source) ++ ws, values) := by
  induction ms generalizing keys target with
  | nil => exact (congrFun Option.map_id _).symm
  | cons m ms ih =>
    obtain ⟨hm, hms⟩ := List.forall_mem_cons.mp hmembers
    obtain ⟨hkey, hkeysRest⟩ := List.forall_mem_cons.mp hkeys
    obtain ⟨hhead, hadmitsRest⟩ := List.forall_mem_cons.mp hadmits
    obtain ⟨hwrite, hwriteRest⟩ := List.forall_mem_cons.mp hwritable
    rw [List.map_cons, List.nodup_cons] at hnodup
    have hbehind : skipSpace
        (ms.flatMap (fun m => entry m.key (m.write source) ++ ascii ",\n  ") ++ more) =
          ms.flatMap (fun m => entry m.key (m.write source) ++ ascii ",\n  ") ++ more := by
      cases ms with
      | nil => exact hmore
      | cons next ms =>
        rw [List.flatMap_cons, List.append_assoc, List.append_assoc]
        exact skipSpace_entry _ _ _
    have hmember : ∀ behind, readMember keys target
        (entry m.key (m.write source) ++ (ascii ",\n  " ++ behind)) =
          some (m.written source, m.copy source target, skipSpace (ascii ",\n  " ++ behind)) :=
      fun behind => readMember_member hm hkey hhead hwrite (noDigit_cons (by decide) _)
    have hnew : ∀ m' ∈ ms, m'.key ∉ m.key :: keys := by
      intro m' hm' hmem
      obtain heq | hmem := List.mem_cons.mp hmem
      · exact hnodup.1 (heq ▸ List.mem_map_of_mem hm')
      · exact hkeysRest m' hm' hmem
    rw [List.flatMap_cons, List.append_assoc, List.append_assoc]
    refine (readMembers_more (hmember _) hbehind).trans ?_
    have hseen : ((m :: ms).map Member.key).reverse ++ keys =
        (ms.map Member.key).reverse ++ m.key :: keys := by
      rw [List.map_cons, List.reverse_cons, List.append_assoc, List.singleton_append]
    rw [show (m.written source).key = m.key from rfl,
      ih hms hnodup.2 hnew hadmitsRest hwriteRest, Option.map_map, hseen]
    rfl

/-- A text of members begins with a quote. -/
theorem members_head {source : Values} {ms : List Member} (hne : ms ≠ []) (rest : Bytes) :
    ∃ more, (ascii ",\n  ").intercalate (ms.map fun m => entry m.key (m.write source)) ++ rest =
      '"'.toUInt8 :: more := by
  obtain ⟨m, ms, rfl⟩ := List.exists_cons_of_ne_nil hne
  cases ms with
  | nil => exact ⟨_, rfl⟩
  | cons next ms => exact ⟨_, rfl⟩

theorem readObject_quote (values : Values) (more : Bytes) :
    readObject values (ascii "\x7b\n  " ++ '"'.toUInt8 :: more) =
      readMembers [] values ('"'.toUInt8 :: more) := rfl

theorem Member.copy_self {m : Member} (hm : m ∈ members) (values : Values) :
    m.copy values values = values := by
  revert m
  simp -implicitDefEqProofs only [members, List.forall_mem_cons, Member.copy, UInt8.ofNat_toNat,
    UInt16.ofNat_toNat, UInt32.ofNat_toNat, UInt64.ofNat_toNat, Int32.ofInt_toInt, List.not_mem_nil,
    false_imp_iff, implies_true, and_self]

theorem foldl_copy_self {ms : List Member} (hms : ∀ m ∈ ms, m ∈ members) (values : Values) :
    ms.foldl (fun target m => m.copy values target) values = values := by
  induction ms with
  | nil => rfl
  | cons m ms ih =>
    obtain ⟨hm, hms⟩ := List.forall_mem_cons.mp hms
    rw [List.foldl_cons, Member.copy_self hm, ih hms]

/-- Taking over every member gives the values themselves. -/
theorem foldl_copy (source target : Values) :
    members.foldl (fun target m => m.copy source target) target = source := by
  simp -implicitDefEqProofs only [members, List.foldl_cons, List.foldl_nil, Member.copy,
    UInt8.ofNat_toNat, UInt16.ofNat_toNat, UInt32.ofNat_toNat, UInt64.ofNat_toNat,
    Int32.ofInt_toInt]

/-! ### The whole file -/

theorem isAlnum_printable {c : UInt8} (h : Network.isAlnum c = true) : 0x20 ≤ c := by
  simp only [Network.isAlnum, Bool.or_eq_true, Bool.and_eq_true, decide_eq_true_eq,
    UInt8.le_iff_toNat_le, UInt8.reduceToNat] at h ⊢
  omega

theorem validIedName_printable {value : Bytes} (h : validIedName value = true) :
    Printable value := by
  simp only [validIedName, Bool.and_eq_true, List.all_eq_true, Bool.or_eq_true,
    decide_eq_true_eq] at h
  intro c hc
  rcases h.2 c hc with halnum | rfl
  · exact isAlnum_printable halnum
  · decide

theorem validConfigText_printable {value : Bytes} {maximum : ℕ}
    (h : validConfigText value maximum = true) : Printable value := by
  simp only [validConfigText, Bool.and_eq_true, List.all_eq_true, Bool.not_eq_true',
    Bool.or_eq_false_iff, decide_eq_false_iff_not] at h
  intro c hc
  exact UInt8.not_lt.mp (h.2 c hc).1

/-- An address is all digits and dots. -/
theorem inetPton_printable {value : Bytes} (h : (Network.inetPton value).isSome = true)
    (hnull : 0 ∉ value) : Printable value := by
  have hwhole : value.takeWhile (· ≠ 0) = value := by
    rw [List.takeWhile_eq_self_iff]
    intro c hc
    rw [decide_eq_true_eq]
    rintro rfl
    exact hnull hc
  have hstep : ∀ {s s' : Network.OctetScan} {c : UInt8}, s.step c = some s' → 0x20 ≤ c := by
    intro s s' c hs
    rw [UInt8.le_iff_toNat_le]
    rw [Network.OctetScan.step] at hs
    split at hs
    · next hdigit =>
      simp only [Char.reduceToNat] at hdigit
      simp only [UInt8.reduceToNat]
      omega
    · split at hs
      · next hdot =>
        rw [hdot.1]
        decide
      · cases hs
  have hloop : ∀ (text : Bytes) (s s' : Network.OctetScan),
      text.foldlM Network.OctetScan.step s = some s' → Printable text := by
    intro text
    induction text with
    | nil => simp [Printable]
    | cons c text ih =>
      intro s s' hs
      rw [List.foldlM_cons] at hs
      obtain ⟨s₁, hc, hrest⟩ := Option.bind_eq_some_iff.mp hs
      exact List.forall_mem_cons.mpr ⟨hstep hc, ih s₁ s' hrest⟩
  rw [Network.inetPton, hwhole] at h
  cases hscan : value.foldlM Network.OctetScan.step {} with
  | none =>
    rw [hscan] at h
    cases h
  | some s' => exact hloop value _ s' hscan

theorem validate_writable {values : Values} (hvalid : validate values = true)
    (hrange : values.InRange) : ∀ m ∈ members, m.Writable values := by
  have hnull : 0 ∉ values.modbusTcpBind := by
    simp only [Values.InRange, members, List.forall_mem_cons, Member.Admits] at hrange
    exact hrange.2.2.2.2.2.2.2.1.noNull
  simp only [validate, Bool.and_eq_true, decide_eq_true_eq] at hvalid
  have hacquisition : Printable (ascii "/dev/ttyS1") := by decide
  have hrtu : Printable (ascii "/dev/ttyS4") := by decide
  have haddress : (Network.inetPton values.modbusTcpBind).isSome = true := by simp_all
  have hname : validIedName values.iecIedName = true := by simp_all
  have htitle : validConfigText values.overviewTitle 64 = true := by simp_all
  have hdevice : validConfigText values.overviewDevice 64 = true := by simp_all
  have hserver : validConfigText values.sntpServer 253 = true := by simp_all [validSntpServer]
  have hacquisitionDevice : values.acquisitionDevice = ascii "/dev/ttyS1" := by simp_all
  have hrtuDevice : values.rtuDevice = ascii "/dev/ttyS4" := by simp_all
  simp [members, Member.Writable, hacquisitionDevice, hrtuDevice, hacquisition, hrtu,
    inetPton_printable haddress hnull, validIedName_printable hname,
    validConfigText_printable htitle, validConfigText_printable hdevice,
    validConfigText_printable hserver]

/-! ### The size of the file -/

theorem length_jsonEscape_le (value : Bytes) : (jsonEscape value).length ≤ 2 * value.length := by
  induction value with
  | nil => simp [jsonEscape]
  | cons c value ih =>
    rw [jsonEscape, List.flatMap_cons, List.length_append, ← jsonEscape, List.length_cons]
    split
    · simp only [List.length_cons, List.length_nil]
      omega
    · simp only [List.length_cons, List.length_nil]
      omega

theorem Member.length_write_le {m : Member} {values : Values} (hadmits : m.Admits values)
    (hwritable : m.Writable values) : (m.write values).length ≤ m.bound := by
  cases m with
  | text key get set =>
    have hshort := hadmits.short
    have hescaped := length_jsonEscape_le (get values)
    simp only [write, bound, List.length_append, List.length_cons, List.length_nil]
    omega
  | boolean key get set =>
    show (if get values then ascii "true" else ascii "false").length ≤ 20
    split
    · decide
    · decide
  | unsigned key minimum maximum get set =>
    show (decimal (get values)).length ≤ 20
    refine length_decimal_le (by decide) ?_
    exact Nat.lt_of_le_of_lt hadmits.2 (Nat.lt_trans hwritable (by decide))
  | signed key minimum maximum get set =>
    have hlow := Int.le_trans hwritable.1 hadmits.1
    have hhigh := Int.le_trans hadmits.2 hwritable.2
    show (decimal (get values)).length ≤ 20
    rcases Int.lt_or_le (get values) 0 with hneg | hpos
    · obtain ⟨n, hn, hpos⟩ : ∃ n : ℕ, get values = -(n : Int) ∧ 0 < n :=
        ⟨(get values).natAbs, by omega, by omega⟩
      have hdigits : (decimal (n : Int)).length ≤ 19 := length_decimal_le (by decide) (by omega)
      rw [hn, decimal_neg hpos, List.length_cons]
      omega
    · obtain ⟨n, hn⟩ : ∃ n : ℕ, get values = (n : Int) := ⟨(get values).natAbs, by omega⟩
      rw [hn]
      exact length_decimal_le (by decide) (by omega)

theorem length_intercalate_le (separator : Bytes) (parts : List Bytes) :
    (separator.intercalate parts).length ≤
      (parts.map fun part => part.length + separator.length).sum := by
  induction parts with
  | nil => simp
  | cons part parts ih =>
    cases parts with
    | nil =>
      rw [List.intercalate_singleton]
      simp
    | cons next parts =>
      rw [List.intercalate_cons_cons, List.map_cons, List.sum_cons]
      simp only [List.length_append] at ih ⊢
      omega

theorem length_entry (key value : Bytes) :
    (entry key value).length = key.length + value.length + 4 := by
  simp only [entry, List.length_append, List.length_cons]
  omega

theorem members_size : (members.map fun m => m.key.length + m.bound + 8).sum ≤ 16000 :=
  keys_checked.2.2.2

/-- A member's part of the text is within the member's part of the bound. -/
theorem length_entry_le {values : Values} {m : Member} (hadmits : m.Admits values)
    (hwritable : m.Writable values) :
    (entry m.key (m.write values)).length + (ascii ",\n  ").length ≤ m.key.length + m.bound + 8 := by
  have hwrite := Member.length_write_le hadmits hwritable
  have hseparator : (ascii ",\n  ").length = 4 := rfl
  rw [length_entry, hseparator]
  omega

theorem length_members_le {values : Values} {ms : List Member} (hadmits : ∀ m ∈ ms, m.Admits values)
    (hwritable : ∀ m ∈ ms, m.Writable values) :
    ((ascii ",\n  ").intercalate (ms.map fun m => entry m.key (m.write values))).length ≤
      (ms.map fun m => m.key.length + m.bound + 8).sum := by
  refine (length_intercalate_le _ _).trans ?_
  rw [List.map_map]
  exact List.sum_le_sum fun m hm => length_entry_le (hadmits m hm) (hwritable m hm)

theorem length_flatMap_members_le {values : Values} {ms : List Member}
    (hadmits : ∀ m ∈ ms, m.Admits values) (hwritable : ∀ m ∈ ms, m.Writable values) :
    (ms.flatMap fun m => entry m.key (m.write values) ++ ascii ",\n  ").length ≤
      (ms.map fun m => m.key.length + m.bound + 8).sum := by
  rw [List.length_flatMap]
  refine List.sum_le_sum fun m hm => ?_
  rw [List.length_append]
  exact length_entry_le (hadmits m hm) (hwritable m hm)

theorem length_serialize_le {version : UInt64} {values : Values}
    (hadmits : values.InRange) (hwritable : ∀ m ∈ members, m.Writable values) :
    (serialize ⟨version, values⟩).length ≤ kMaxConfigBytes := by
  have hversion : (decimal (version.toNat : Int)).length ≤ 20 :=
    length_decimal_le (by decide) (Nat.lt_trans version.toNat_lt (by decide))
  have hmembers := length_members_le hadmits hwritable
  have hne : (members.map fun m => entry m.key (m.write values)) ≠ [] := by simp [members]
  have hsize := members_size
  have hfirst : (ascii "\x7b\n  ").length = 4 := rfl
  have hlast : fileEnd.length = 3 := rfl
  have hkey : (ascii "version").length = 7 := rfl
  have hseparator : (ascii ",\n  ").length = 4 := rfl
  rw [serialize, kMaxConfigBytes, List.intercalate_cons_of_ne_nil hne]
  simp only [List.length_append, length_entry]
  omega

/-! ### Both ways of reading -/

/-- The members of a written file behind its version. -/
def membersText (values : Values) : Bytes :=
  (ascii ",\n  ").intercalate (members.map fun m => entry m.key (m.write values)) ++ fileEnd

theorem serialize_eq (snapshot : Snapshot) :
    serialize snapshot = ascii "\x7b\n  " ++
      (entry (ascii "version") (decimal snapshot.version.toNat) ++
        (ascii ",\n  " ++ membersText snapshot.values)) := by
  have hmembers : members.map (fun m => entry m.key (m.write snapshot.values)) ≠ [] := by
    simp [members]
  rw [serialize, List.intercalate_cons_of_ne_nil hmembers, membersText]
  simp only [List.append_assoc]

theorem parseValues_serialize {values : Values} (hadmits : values.InRange)
    (hwritable : ∀ m ∈ members, m.Writable values) (version : UInt64) :
    parseValues (serialize ⟨version, values⟩) = if version = 0 then none else some values := by
  have hsize : ¬ kMaxConfigBytes < (serialize ⟨version, values⟩).length :=
    Nat.not_lt.mpr (length_serialize_le hadmits hwritable)
  have hspace : skipSpace (membersText values) = membersText values := rfl
  have hstart : parseObject {} (serialize ⟨version, values⟩) =
      parseMembers [] {} (entry (ascii "version") (decimal version.toNat) ++
        (ascii ",\n  " ++ membersText values)) := by
    rw [serialize_eq]
    rfl
  have hfield : parseField (ascii "version") {}
      (decimal version.toNat ++ (ascii ",\n  " ++ membersText values)) =
        if version = 0 then none else some ({}, ascii ",\n  " ++ membersText values) := by
    have hrest : NoDigit (ascii ",\n  " ++ membersText values) := noDigit_cons (by decide) _
    rw [parseField, if_pos rfl, parseUnsigned_decimal version.toNat_lt hrest, Option.bind_some]
    simp only [← UInt64.toNat_inj, UInt64.toNat_zero]
  rw [parseValues, if_neg hsize, hstart]
  by_cases hzero : version = 0
  · rw [if_pos hzero] at hfield ⊢
    have hmember := @readMember_written [] {} (ascii "version") (decimal version.toNat)
      (ascii ",\n  " ++ membersText values) version_plain List.not_mem_nil
      (skipSpace_decimal _ _)
    rw [hfield] at hmember
    rw [parseMembers_eq, readMembers_eq, hmember]
    rfl
  · rw [if_neg hzero] at hfield ⊢
    have hmember := readMember_entry version_plain List.not_mem_nil
      (skipSpace_decimal _ _) hfield
    have hrest := @readMembers_members values {} members [ascii "version"] (by simp [members])
      (fun m hm => hm) nodup_keys ?_ hadmits hwritable
    · rw [parseMembers_eq, readMembers_more hmember hspace, membersText, hrest, Option.map_some,
        Option.bind_some, foldl_copy]
      dsimp only
      rw [List.length_cons, List.length_map]
      exact if_pos (by decide)
    · intro m hm hmem
      exact version_not_key m hm (List.mem_singleton.mp hmem)

theorem parseVersion_serialize {version : UInt64} (hversion : version ≠ 0) (values : Values) :
    parseVersion (serialize ⟨version, values⟩) = some version := by
  have hfound : findText (ascii "\"version\"") (serialize ⟨version, values⟩) =
      some (entry (ascii "version") (decimal version.toNat) ++
        (ascii ",\n  " ++ membersText values)) := by
    rw [serialize_eq]
    rfl
  have hcolon : (entry (ascii "version") (decimal version.toNat) ++
      (ascii ",\n  " ++ membersText values)).dropWhile (· ≠ ':'.toUInt8) =
        ':'.toUInt8 :: ' '.toUInt8 ::
          (decimal version.toNat ++ (ascii ",\n  " ++ membersText values)) := rfl
  have hdigits : NoDigit (ascii ",\n  " ++ membersText values) := noDigit_cons (by decide) _
  have hblank : (' '.toUInt8 ::
      (decimal version.toNat ++ (ascii ",\n  " ++ membersText values))).dropWhile isCSpace =
        decimal version.toNat ++ (ascii ",\n  " ++ membersText values) := by
    cases htext : decimal (version.toNat : Int) with
    | nil => exact absurd htext (decimal_ne_nil _)
    | cons first more =>
      have hfirst := all_isDigit_decimal version.toNat
      rw [htext, List.all_cons, Bool.and_eq_true] at hfirst
      have hspace : isCSpace first = false := by
        have hrange := hfirst.1
        simp only [isDigit, isCSpace, Bool.and_eq_true, Bool.or_eq_false_iff, Bool.and_eq_false_iff,
          decide_eq_true_eq, decide_eq_false_iff_not, UInt8.le_iff_toNat_le, ← UInt8.toNat_inj,
          UInt8.reduceToNat] at hrange ⊢
        have hzero : ('0'.toUInt8).toNat = 48 := rfl
        omega
      rw [List.dropWhile_cons_of_pos (by decide), List.cons_append, List.dropWhile_cons_of_neg]
      simp [hspace]
  have hnonzero : version.toNat ≠ 0 := by
    intro hzero
    exact hversion (UInt64.toNat_inj.mp hzero)
  rw [parseVersion, hfound, Option.bind_some, hcolon, List.tail_cons, hblank,
    (takeWhile_decimal hdigits).1]
  simp only [fromChars_decimal version.toNat_lt, Option.bind_some, hnonzero, if_false,
    UInt64.ofNat_toNat]

/-- Values that have been parsed and validated are read back from their file, and so is the
version. -/
theorem codec_round_trip {json : Bytes} {values : Values} (hparsed : parseValues json = some values)
    (hvalid : validate values = true) {version : UInt64} (hversion : version ≠ 0) :
    parseValues (serialize ⟨version, values⟩) = some values ∧
      parseVersion (serialize ⟨version, values⟩) = some version := by
  have hrange := parseValues_inRange hparsed
  constructor
  · rw [parseValues_serialize hrange (validate_writable hvalid hrange), if_neg hversion]
  · exact parseVersion_serialize hversion values

/-- A title that looks like the end of a member. -/
def quotedTitle : Values := { overviewTitle := ascii "\", \"version\": 7 \\" }

theorem quotedTitle_inRange : quotedTitle.InRange := by
  unfold Values.InRange
  decide +kernel

theorem quotedTitle_round_trip :
    parseValues (serialize ⟨2, quotedTitle⟩) = some quotedTitle ∧
      parseVersion (serialize ⟨2, quotedTitle⟩) = some 2 := by
  have hvalid : validate quotedTitle = true := by decide +kernel
  have hparsed : parseValues (serialize ⟨1, quotedTitle⟩) = some quotedTitle := by
    rw [parseValues_serialize quotedTitle_inRange (validate_writable hvalid quotedTitle_inRange),
      if_neg (by decide)]
  exact codec_round_trip hparsed hvalid (by decide)

end Uhf.Config
