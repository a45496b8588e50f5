/-
What the search for the version finds in a document that the parser accepts.

The search takes the first `"version"` of the text, wherever it stands, and the number behind the
next colon.  A quotation mark stands in an accepted text only around a string or escaped in one, so
what is found is the end of a key or of a text.

* `StringBody` — a string as it is written;
* `search_members` — what the search finds, member for member;
* `version_read_iff` — when it finds the version.
-/
import UhfGateway.Config.Codec

namespace Uhf.Config

/-- What `parse_version` looks for. -/
def versionName : Bytes := ascii "\"version\""

/-! ### Strings as they are written -/

/-- What stands behind the opening quote of a string, and what it stands for. -/
inductive StringBody : Bytes → Bytes → Prop
  | close : StringBody ['"'.toUInt8] []
  | plain {c : UInt8} {written text : Bytes} (hquote : c ≠ '"'.toUInt8) (hescape : c ≠ '\\'.toUInt8)
      (h : StringBody written text) : StringBody (c :: written) (c :: text)
  | quote {written text : Bytes} (h : StringBody written text) :
      StringBody ('\\'.toUInt8 :: '"'.toUInt8 :: written) ('"'.toUInt8 :: text)
  | escape {sequence piece written text : Bytes} (hquote : '"'.toUInt8 ∉ sequence)
      (hcolon : ':'.toUInt8 ∉ sequence) (h : StringBody written text) :
      StringBody ('\\'.toUInt8 :: (sequence ++ written)) (piece ++ text)

theorem hexValue_ne {c : UInt8} {n : ℕ} (h : hexValue c = some n) :
    c ≠ '"'.toUInt8 ∧ c ≠ ':'.toUInt8 := by
  have hquote : hexValue '"'.toUInt8 = none := by decide
  have hcolon : hexValue ':'.toUInt8 = none := by decide
  refine ⟨?_, ?_⟩
  · rintro rfl
    rw [hquote] at h
    cases h
  · rintro rfl
    rw [hcolon] at h
    cases h

theorem hexUnit_written {input rest : Bytes} {unit : ℕ} (h : hexUnit input = some (unit, rest)) :
    ∃ digits, input = digits ++ rest ∧ '"'.toUInt8 ∉ digits ∧ ':'.toUInt8 ∉ digits := by
  rw [hexUnit.eq_def] at h
  split at h
  · next a b c d input =>
    split at h
    · next ha hb hc hd =>
      cases h
      have hdigits := And.intro (hexValue_ne ha) (And.intro (hexValue_ne hb)
        (And.intro (hexValue_ne hc) (hexValue_ne hd)))
      refine ⟨[a, b, c, d], rfl, ?_, ?_⟩
      · simp only [List.mem_cons, List.not_mem_nil, or_false, not_or]
        exact ⟨hdigits.1.1.symm, hdigits.2.1.1.symm, hdigits.2.2.1.1.symm, hdigits.2.2.2.1.symm⟩
      · simp only [List.mem_cons, List.not_mem_nil, or_false, not_or]
        exact ⟨hdigits.1.2.symm, hdigits.2.1.2.symm, hdigits.2.2.1.2.symm, hdigits.2.2.2.2.symm⟩
    · cases h
  · cases h

theorem codePoint_written {input rest : Bytes} {point : ℕ} (h : codePoint input = some (point, rest)) :
    ∃ digits, input = digits ++ rest ∧ '"'.toUInt8 ∉ digits ∧ ':'.toUInt8 ∉ digits := by
  rw [codePoint] at h
  split at h
  · cases h
  · next unit later hunit =>
    obtain ⟨first, rfl, hquote, hcolon⟩ := hexUnit_written hunit
    split at h
    · split at h
      · cases h
      · next second hsecond =>
        obtain ⟨middle, hbackslash, hu⟩ := Option.bind_eq_some_iff.mp hsecond
        rw [consume_eq_some] at hbackslash hu
        split at h
        · cases h
        · next low behind hlow =>
          obtain ⟨last, rfl, hquote', hcolon'⟩ := hexUnit_written hlow
          split at h
          · cases h
          · simp only [Option.some.injEq, Prod.mk.injEq] at h
            obtain ⟨-, rfl⟩ := h
            refine ⟨first ++ '\\'.toUInt8 :: 'u'.toUInt8 :: last, ?_, ?_, ?_⟩
            · rw [hbackslash, hu, List.append_assoc, List.cons_append, List.cons_append]
            · simp only [List.mem_append, List.mem_cons, hquote, hquote', or_false, false_or]
              decide
            · simp only [List.mem_append, List.mem_cons, hcolon, hcolon', or_false, false_or]
              decide
    · split at h
      · cases h
      · cases h
        exact ⟨first, rfl, hquote, hcolon⟩

/-- An escape sequence is an escaped quote, or it holds neither a quote nor a colon. -/
theorem escapeSequence_written {input text rest : Bytes}
    (h : escapeSequence input = some (text, rest)) :
    (input = '"'.toUInt8 :: rest ∧ text = ['"'.toUInt8]) ∨
      ∃ sequence, input = sequence ++ rest ∧ '"'.toUInt8 ∉ sequence ∧ ':'.toUInt8 ∉ sequence := by
  cases input with
  | nil => cases h
  | cons escaped input =>
    have hsingle : ∀ {piece : Bytes}, '"'.toUInt8 ≠ escaped → ':'.toUInt8 ≠ escaped →
        some (piece, input) = some (text, rest) →
        ∃ sequence, escaped :: input = sequence ++ rest ∧ '"'.toUInt8 ∉ sequence ∧
          ':'.toUInt8 ∉ sequence := by
      intro piece hquote hcolon heq
      cases heq
      exact ⟨[escaped], rfl, by simpa using hquote, by simpa using hcolon⟩
    simp only [escapeSequence] at h
    split at h
    · next hescaped =>
      obtain rfl | rfl | rfl := hescaped
      · cases h
        exact .inl ⟨rfl, rfl⟩
      · exact .inr (hsingle (by decide) (by decide) h)
      · exact .inr (hsingle (by decide) (by decide) h)
    · iterate 5
        split at h
        · next hescaped => 
          subst hescaped
          exact .inr (hsingle (by decide) (by decide) h)
      split at h
      · next hescaped =>
        split at h
        · cases h
        · next point behind hpoint =>
          obtain ⟨digits, rfl, hquote, hcolon⟩ := codePoint_written hpoint
          split at h
          · cases h
          · cases h
            refine .inr ⟨escaped :: digits, rfl, ?_, ?_⟩
            · rw [hescaped, List.mem_cons, not_or]
              exact ⟨by decide, hquote⟩
            · rw [hescaped, List.mem_cons, not_or]
              exact ⟨by decide, hcolon⟩
      · cases h

theorem stringLoop_written {input result text rest : Bytes}
    (h : stringLoop input result = some (text, rest)) :
    ∃ written piece, input = written ++ rest ∧ text = result ++ piece ∧ StringBody written piece := by
  fun_induction stringLoop input result with
  | case1 => cases h
  | case2 result input hshort =>
    cases h
    exact ⟨['"'.toUInt8], [], rfl, (List.append_nil _).symm, .close⟩
  | case3 => cases h
  | case4 => cases h
  | case5 result c input hquote _ hescape ih =>
    obtain ⟨written, piece, rfl, rfl, hbody⟩ := ih h
    exact ⟨c :: written, c :: piece, rfl, by simp, .plain hquote hescape hbody⟩
  | case6 => cases h
  | case7 result c input _ _ hescape sequence rest' hsequence ih =>
    obtain ⟨written, piece, rfl, rfl, hbody⟩ := ih h
    have hc : c = '\\'.toUInt8 := not_not.mp hescape
    rw [hc, List.append_assoc]
    obtain ⟨rfl, rfl⟩ | ⟨sequence', rfl, hquote, hcolon⟩ := escapeSequence_written hsequence
    · exact ⟨_, _, rfl, rfl, .quote hbody⟩
    · exact ⟨_, _, by rw [List.cons_append, List.append_assoc], rfl, .escape hquote hcolon hbody⟩

/-! ### The search through a string -/

theorem findText_other {c : UInt8} (h : c ≠ '"'.toUInt8) (input : Bytes) :
    findText versionName (c :: input) = findText versionName input := by
  have hno : ¬ versionName.isPrefixOf (c :: input) = true := by
    rw [List.isPrefixOf_iff_prefix]
    rintro ⟨more, hmore⟩
    exact h (List.cons.inj hmore).1.symm
  rw [findText, if_neg hno]

theorem findText_skip {text : Bytes} (h : '"'.toUInt8 ∉ text) (input : Bytes) :
    findText versionName (text ++ input) = findText versionName input := by
  induction text with
  | nil => rfl
  | cons c text ih =>
    rw [List.mem_cons, not_or] at h
    rw [List.cons_append, findText_other (Ne.symm h.1), ih h.2]

theorem suffix_skip {text later : Bytes} (h : '"'.toUInt8 ∉ text) :
    versionName <:+ text ++ later ↔ versionName <:+ later := by
  induction text with
  | nil => rfl
  | cons c text ih =>
    rw [List.mem_cons, not_or] at h
    rw [List.cons_append, List.suffix_cons_iff, ih h.2, or_iff_right]
    intro heq
    exact h.1 (List.cons.inj heq).1

/-- A string that begins as a plain text and its closing quote is that text. -/
theorem StringBody.eq_of_prefix {written text plainText rest : Bytes} (h : StringBody written text)
    (hplain : ∀ c ∈ plainText, c ≠ '"'.toUInt8 ∧ c ≠ '\\'.toUInt8)
    (hstarts : plainText ++ ['"'.toUInt8] <+: written ++ rest) :
    written = plainText ++ ['"'.toUInt8] := by
  induction plainText generalizing written text with
  | nil =>
    obtain ⟨more, hmore⟩ := hstarts
    cases h with
    | close => rfl
    | plain hquote hescape h => exact absurd (List.cons.inj hmore).1.symm hquote
    | quote h => exact absurd (List.cons.inj hmore).1 (by decide)
    | escape hquote hcolon h => exact absurd (List.cons.inj hmore).1 (by decide)
  | cons c plainText ih =>
    obtain ⟨hc, hplain⟩ := List.forall_mem_cons.mp hplain
    obtain ⟨more, hmore⟩ := hstarts
    cases h with
    | close => exact absurd (List.cons.inj hmore).1 hc.1
    | plain hquote hescape h =>
      have hinj := List.cons.inj hmore
      rw [ih h hplain ⟨more, hinj.2⟩, ← hinj.1, List.cons_append]
    | quote h => exact absurd (List.cons.inj hmore).1 hc.2
    | escape hquote hcolon h => exact absurd (List.cons.inj hmore).1 hc.2

/-- At a quote in front of a string, the search stops only if the string is the version's name. -/
theorem findText_quote {written text : Bytes} (h : StringBody written text) (rest : Bytes) :
    findText versionName ('"'.toUInt8 :: (written ++ rest)) =
      if versionName = '"'.toUInt8 :: written then some (versionName ++ rest)
      else findText versionName (written ++ rest) := by
  rw [findText]
  by_cases hname : versionName = '"'.toUInt8 :: written
  · have hstarts : versionName.isPrefixOf ('"'.toUInt8 :: (written ++ rest)) = true := by
      rw [List.isPrefixOf_iff_prefix, ← List.cons_append, ← hname]
      exact List.prefix_append _ _
    rw [if_pos hstarts, if_pos hname, hname, List.cons_append]
  · have hstarts : ¬ versionName.isPrefixOf ('"'.toUInt8 :: (written ++ rest)) = true := by
      rw [List.isPrefixOf_iff_prefix]
      rintro ⟨more, hmore⟩
      have hwritten := @StringBody.eq_of_prefix written text (ascii "version") rest h
        (fun c hc => (version_plain.2 c hc).2)
        ⟨more, (List.cons.inj hmore).2⟩
      exact hname (by rw [hwritten]; rfl)
    rw [if_neg hstarts, if_neg hname]

/-- Behind its opening quote, a string is passed over unless it ends in the version's name. -/
theorem findText_body {written text rest : Bytes} (h : StringBody written text)
    (hrest : ¬ versionName <+: '"'.toUInt8 :: rest) :
    findText versionName (written ++ rest) =
      if versionName <:+ written then some (versionName ++ rest)
      else findText versionName rest := by
  induction h with
  | close =>
    have hshort : ¬ versionName <:+ ['"'.toUInt8] := by decide
    rw [if_neg hshort, List.singleton_append, findText, if_neg]
    rwa [List.isPrefixOf_iff_prefix]
  | @plain c written text hquote hescape h ih =>
    have hsuffix := @suffix_skip [c] written (by simpa using Ne.symm hquote)
    rw [List.cons_append, findText_other hquote, ih]
    exact if_congr hsuffix.symm rfl rfl
  | @quote written text h ih =>
    have hbackslash : '\\'.toUInt8 ≠ '"'.toUInt8 := by decide
    have hsuffix := @suffix_skip ['\\'.toUInt8] ('"'.toUInt8 :: written) (by decide)
    rw [List.suffix_cons_iff] at hsuffix
    rw [List.cons_append, findText_other hbackslash, List.cons_append, findText_quote h, ih]
    refine Eq.trans ?_ (if_congr hsuffix.symm rfl rfl)
    by_cases hname : versionName = '"'.toUInt8 :: written
    · rw [if_pos hname, if_pos (.inl hname)]
    · rw [if_neg hname]
      exact if_congr (or_iff_right hname).symm rfl rfl
  | @escape sequence piece written text hquote hcolon h ih =>
    have hnone : '"'.toUInt8 ∉ '\\'.toUInt8 :: sequence := by
      rw [List.mem_cons, not_or]
      exact ⟨by decide, hquote⟩
    rw [← List.cons_append, List.append_assoc, findText_skip hnone, ih]
    exact if_congr (suffix_skip hnone).symm rfl rfl

theorem findText_string {written text rest : Bytes} (h : StringBody written text)
    (hrest : ¬ versionName <+: '"'.toUInt8 :: rest) :
    findText versionName ('"'.toUInt8 :: (written ++ rest)) =
      if versionName <:+ '"'.toUInt8 :: written then some (versionName ++ rest)
      else findText versionName rest := by
  rw [findText_quote h, findText_body h hrest]
  refine Eq.trans ?_ (if_congr List.suffix_cons_iff.symm rfl rfl)
  by_cases hname : versionName = '"'.toUInt8 :: written
  · rw [if_pos hname, if_pos (.inl hname)]
  · rw [if_neg hname]
    exact if_congr (or_iff_right hname).symm rfl rfl

/-- A string that ends in the version's name, and is not it, stands for a text with a quote. -/
theorem StringBody.mem_quote {written text : Bytes} (h : StringBody written text)
    (hsuffix : versionName <:+ written) : '"'.toUInt8 ∈ text := by
  induction h with
  | close => exact absurd hsuffix (by decide)
  | @plain c written text hquote hescape h ih =>
    have hskip := @suffix_skip [c] written (by simpa using Ne.symm hquote)
    exact List.mem_cons_of_mem _ (ih (hskip.mp hsuffix))
  | quote h ih => exact List.mem_cons_self
  | @escape sequence piece written text hquote hcolon h ih =>
    have hnone : '"'.toUInt8 ∉ '\\'.toUInt8 :: sequence := by
      rw [List.mem_cons, not_or]
      exact ⟨by decide, hquote⟩
    exact List.mem_append_right _ (ih ((suffix_skip hnone).mp hsuffix))

theorem StringBody.mem_colon {written text : Bytes} (h : StringBody written text)
    (hcolon : ':'.toUInt8 ∈ written) : ':'.toUInt8 ∈ text := by
  induction h with
  | close => exact absurd hcolon (by decide)
  | plain hquote hescape h ih =>
    obtain rfl | hcolon := List.mem_cons.mp hcolon
    · exact List.mem_cons_self
    · exact List.mem_cons_of_mem _ (ih hcolon)
  | @quote written text h ih =>
    simp only [List.mem_cons] at hcolon
    obtain heq | heq | hcolon := hcolon
    · exact absurd heq (by decide)
    · exact absurd heq (by decide)
    · exact List.mem_cons_of_mem _ (ih hcolon)
  | escape hquote hnone h ih =>
    rw [List.mem_cons, List.mem_append] at hcolon
    obtain heq | hsequence | hcolon := hcolon
    · exact absurd heq (by decide)
    · exact absurd hsequence hnone
    · exact List.mem_append_right _ (ih hcolon)

/-! ### Values as they are written -/

/-- A value, and what its first characters say to a reader of numbers. -/
structure ValueText (value rest : Bytes) : Prop where
  body : (∃ written text, value = '"'.toUInt8 :: written ∧ StringBody written text) ∨
    '"'.toUInt8 ∉ value
  start : (value ++ rest).dropWhile isCSpace = value ++ rest
  digits : (value ++ rest).takeWhile isDigit = value.takeWhile isDigit

/-- A value that begins with a character that is neither a digit nor a space. -/
theorem ValueText.of_head {c : UInt8} {value rest : Bytes} (hspace : isCSpace c = false)
    (hdigit : isDigit c = false)
    (hbody : (∃ written text, c :: value = '"'.toUInt8 :: written ∧ StringBody written text) ∨
      '"'.toUInt8 ∉ c :: value) : ValueText (c :: value) rest where
  body := hbody
  start := by rw [List.cons_append, List.dropWhile_cons_of_neg (by simp [hspace])]
  digits := by
    rw [List.cons_append, List.takeWhile_cons_of_neg (by simp [hdigit]),
      List.takeWhile_cons_of_neg (by simp [hdigit])]

theorem quote_not_mem_digits {digits : Bytes} (h : ∀ c ∈ digits, isDigit c = true) :
    '"'.toUInt8 ∉ digits := by
  intro hmem
  have hdigit := h _ hmem
  revert hdigit
  decide

/-- A value that is all digits, up to the last one there is. -/
theorem ValueText.of_digits {input : Bytes} (h : input.takeWhile isDigit ≠ []) :
    ValueText (input.takeWhile isDigit) (input.dropWhile isDigit) where
  body := .inr (quote_not_mem_digits fun c hc => List.mem_takeWhile_imp hc)
  start := by
    rw [List.takeWhile_append_dropWhile]
    cases input with
    | nil => rfl
    | cons c input =>
      cases hdigit : isDigit c with
      | false => exact absurd (List.takeWhile_cons_of_neg (by simp [hdigit])) h
      | true => rw [List.dropWhile_cons_of_neg (by simp [isDigit_notSpace hdigit])]
  digits := by
    rw [List.takeWhile_append_dropWhile, List.takeWhile_idem]

theorem parseString_written {input text rest : Bytes} (h : parseString input = some (text, rest)) :
    ∃ written, input = '"'.toUInt8 :: (written ++ rest) ∧ StringBody written text := by
  obtain ⟨later, hquote, hloop⟩ := Option.bind_eq_some_iff.mp h
  rw [consume_eq_some] at hquote
  obtain ⟨written, piece, rfl, htext, hbody⟩ := stringLoop_written hloop
  rw [List.nil_append] at htext
  exact ⟨written, hquote, htext ▸ hbody⟩

theorem parseUnsigned_written {input rest : Bytes} {n : ℕ}
    (h : parseUnsigned input = some (n, rest)) :
    input = input.takeWhile isDigit ++ rest ∧ ValueText (input.takeWhile isDigit) rest ∧
      fromChars (input.takeWhile isDigit) = some n := by
  obtain ⟨value, hvalue, hr⟩ := Option.map_eq_some_iff.mp h
  simp only [Prod.mk.injEq] at hr
  obtain ⟨rfl, rfl⟩ := hr
  have hdigits : input.takeWhile isDigit ≠ [] := by
    intro hnone
    rw [hnone] at hvalue
    exact absurd hvalue (by simp [fromChars])
  exact ⟨List.takeWhile_append_dropWhile.symm, .of_digits hdigits, hvalue⟩

theorem parseSigned_written {input rest : Bytes} {n : Int} (h : parseSigned input = some (n, rest)) :
    ∃ value, input = value ++ rest ∧ ValueText value rest := by
  simp only [parseSigned, Option.ite_none_left_eq_some, Option.some.injEq, Prod.mk.injEq] at h
  obtain ⟨hdigits, -, -, rfl⟩ := h
  by_cases hsign : input.head? = some '-'.toUInt8
  · obtain ⟨digits, rfl⟩ : ∃ digits, input = '-'.toUInt8 :: digits :=
      ⟨input.tail, List.eq_cons_of_mem_head? hsign⟩
    have hbody : '"'.toUInt8 ∉ '-'.toUInt8 :: digits.takeWhile isDigit := by
      rw [List.mem_cons, not_or]
      exact ⟨by decide, quote_not_mem_digits fun c hc => List.mem_takeWhile_imp hc⟩
    refine ⟨'-'.toUInt8 :: digits.takeWhile isDigit, ?_, ?_⟩
    · simp only [hsign, decide_true, if_true, List.tail_cons, List.cons_append,
        List.takeWhile_append_dropWhile]
    · exact .of_head (by decide) (by decide) (.inr hbody)
  · simp only [hsign, decide_false, Bool.false_eq_true, if_false] at hdigits ⊢
    exact ⟨input.takeWhile isDigit, List.takeWhile_append_dropWhile.symm, .of_digits hdigits⟩

theorem parseBoolean_written {input rest : Bytes} {b : Bool}
    (h : parseBoolean input = some (b, rest)) :
    ∃ value, input = value ++ rest ∧ ValueText value rest := by
  rw [parseBoolean] at h
  split at h
  · next htrue =>
    cases h
    obtain ⟨more, rfl⟩ := List.isPrefixOf_iff_prefix.mp htrue
    refine ⟨ascii "true", rfl, ?_⟩
    exact .of_head (by decide) (by decide) (.inr (by decide))
  · split at h
    · next hfalse =>
      cases h
      obtain ⟨more, rfl⟩ := List.isPrefixOf_iff_prefix.mp hfalse
      refine ⟨ascii "false", rfl, ?_⟩
      exact .of_head (by decide) (by decide) (.inr (by decide))
    · cases h

theorem parseField_written {key : Bytes} {values values' : Values} {input rest : Bytes}
    (h : parseField key values input = some (values', rest)) :
    ∃ value, input = value ++ rest ∧ ValueText value rest := by
  rw [parseField] at h
  split at h
  · obtain ⟨⟨version, rest'⟩, hversion, hr⟩ := Option.bind_eq_some_iff.mp h
    simp only [Option.ite_none_left_eq_some, Option.some.injEq, Prod.mk.injEq] at hr
    obtain ⟨-, -, rfl⟩ := hr
    exact ⟨_, (parseUnsigned_written hversion).1, (parseUnsigned_written hversion).2.1⟩
  · obtain ⟨m, -, hm⟩ := Option.bind_eq_some_iff.mp h
    cases m with
    | text key get set =>
      obtain ⟨⟨text, rest'⟩, htext, hr⟩ := Option.map_eq_some_iff.mp hm
      cases hr
      obtain ⟨written, rfl, hbody⟩ := parseString_written htext
      refine ⟨'"'.toUInt8 :: written, rfl, ?_⟩
      exact .of_head (by decide) (by decide) (.inl ⟨written, text, rfl, hbody⟩)
    | boolean key get set =>
      obtain ⟨⟨value, rest'⟩, hvalue, hr⟩ := Option.map_eq_some_iff.mp hm
      cases hr
      exact parseBoolean_written hvalue
    | unsigned key minimum maximum get set =>
      obtain ⟨⟨value, rest'⟩, hvalue, hr⟩ := Option.bind_eq_some_iff.mp hm
      simp only [Option.ite_none_left_eq_some, Option.some.injEq, Prod.mk.injEq] at hr
      obtain ⟨-, -, rfl⟩ := hr
      exact ⟨_, (parseUnsigned_written hvalue).1, (parseUnsigned_written hvalue).2.1⟩
    | signed key minimum maximum get set =>
      obtain ⟨⟨value, rest'⟩, hvalue, hr⟩ := Option.bind_eq_some_iff.mp hm
      simp only [Option.ite_none_left_eq_some, Option.some.injEq, Prod.mk.injEq] at hr
      obtain ⟨-, -, rfl⟩ := hr
      exact parseSigned_written hvalue

/-! ### Members as they are written -/

/-- How a member stands in the text: the key's string, a colon, and the value. -/
structure Stands (w : WrittenMember) (input field : Bytes) : Prop where
  name : ∃ written, w.name = '"'.toUInt8 :: written ∧ StringBody written w.key
  known : w.key ∈ knownKeys
  value : ValueText w.value field
  layout : ∃ gap colon, Blank gap ∧ input = w.name ++ (gap ++ ':'.toUInt8 :: colon) ∧
    skipSpace colon = w.value ++ field

theorem readMember_stands {keys : List Bytes} {values values' : Values} {input rest : Bytes}
    {w : WrittenMember} (h : readMember keys values input = some (w, values', rest)) :
    ∃ field, Stands w input field ∧ rest = skipSpace field := by
  obtain ⟨-, behind, colon, field, hkey, hcolon, hfield, hrest, hname, hvalue⟩ :=
    readMember_eq_some h
  obtain ⟨written, hinput, hbody⟩ := parseString_written hkey
  obtain ⟨value, hvalueText, hshape⟩ := parseField_written hfield
  obtain ⟨gap, hgap, hbehind⟩ := skipSpace_gap behind
  rw [consume_eq_some] at hcolon
  rw [← List.cons_append] at hinput
  rw [hinput, taken_append] at hname
  rw [hvalueText, taken_append] at hvalue
  refine ⟨field, ⟨⟨written, hname, hbody⟩, parseField_known hfield, hvalue ▸ hshape, gap, colon,
    hgap, ?_, ?_⟩, hrest⟩
  · rw [hinput, hname, ← hcolon, ← hbehind]
  · rw [hvalueText, hvalue]

/-- The number at the start of the value. -/
def WrittenMember.number (w : WrittenMember) : Option ℕ := fromChars (w.value.takeWhile isDigit)

/-- What `parse_version` reads once its name has been found. -/
def numberBehind (found : Bytes) : Option ℕ :=
  fromChars (((found.dropWhile (· ≠ ':'.toUInt8)).tail.dropWhile isCSpace).takeWhile isDigit)

/-- The number that the search arrives at. -/
def searched (input : Bytes) : Option ℕ := (findText versionName input).bind numberBehind

theorem parseVersion_eq (contents : Bytes) : parseVersion contents =
    (searched contents).bind fun version =>
      if version = 0 then none else some (UInt64.ofNat version) := by
  rw [parseVersion, searched, Option.bind_assoc]
  rfl

theorem dropWhile_space (input : Bytes) :
    input.dropWhile isCSpace = (skipSpace input).dropWhile isCSpace := by
  induction input with
  | nil => rfl
  | cons c input ih =>
    cases hspace : isSpace c with
    | false => rw [skipSpace_of_not hspace]
    | true =>
      have hcspace : isCSpace c = true := by
        simp only [isSpace, Bool.or_eq_true, decide_eq_true_eq] at hspace
        obtain ((rfl | rfl) | rfl) | rfl := hspace <;> decide
      rw [List.dropWhile_cons_of_pos hcspace, ih, skipSpace, skipSpace,
        List.dropWhile_cons_of_pos hspace]

theorem numberBehind_none {found : Bytes} (h : ':'.toUInt8 ∉ found) : numberBehind found = none := by
  have hnothing : found.dropWhile (· ≠ ':'.toUInt8) = [] := by
    rw [List.dropWhile_eq_nil_iff]
    intro c hc
    rw [decide_eq_true_eq]
    rintro rfl
    exact h hc
  rw [numberBehind, hnothing]
  rfl

theorem numberBehind_colon {text : Bytes} (h : ':'.toUInt8 ∉ text) (rest : Bytes) :
    numberBehind (text ++ ':'.toUInt8 :: rest) =
      fromChars (((skipSpace rest).dropWhile isCSpace).takeWhile isDigit) := by
  have hdrop : (text ++ ':'.toUInt8 :: rest).dropWhile (· ≠ ':'.toUInt8) = ':'.toUInt8 :: rest := by
    rw [List.dropWhile_append_of_pos, List.dropWhile_cons_of_neg (by simp)]
    intro c hc
    rw [decide_eq_true_eq]
    rintro rfl
    exact h hc
  rw [numberBehind, hdrop, List.tail_cons, dropWhile_space]

theorem knownKeys_plain : ∀ key ∈ knownKeys, ':'.toUInt8 ∉ key ∧ '"'.toUInt8 ∉ key := by
  refine List.forall_mem_cons.mpr ⟨by decide, List.forall_mem_map.mpr fun m hm => ?_⟩
  exact ⟨(keys_checked.2.1 m hm).2.1, fun hquote => ((plain_keys m hm).2 _ hquote).2.1 rfl⟩

theorem Stands.name_noColon {w : WrittenMember} {input field : Bytes} (h : Stands w input field) :
    ':'.toUInt8 ∉ w.name := by
  obtain ⟨written, hname, hbody⟩ := h.name
  rw [hname, List.mem_cons, not_or]
  exact ⟨by decide, fun hcolon => (knownKeys_plain w.key h.known).1 (hbody.mem_colon hcolon)⟩

theorem StringBody.text_eq {written text plainText : Bytes} (h : StringBody written text)
    (hplain : ∀ c ∈ plainText, c ≠ '"'.toUInt8 ∧ c ≠ '\\'.toUInt8)
    (hwritten : written = plainText ++ ['"'.toUInt8]) : text = plainText := by
  induction plainText generalizing written text with
  | nil =>
    cases h with
    | close => rfl
    | plain hquote hescape h => exact absurd (List.cons.inj hwritten).1 hquote
    | quote h => exact absurd (List.cons.inj hwritten).1 (by decide)
    | escape hquote hcolon h => exact absurd (List.cons.inj hwritten).1 (by decide)
  | cons c plainText ih =>
    obtain ⟨hc, hplain⟩ := List.forall_mem_cons.mp hplain
    cases h with
    | close => exact absurd (List.cons.inj hwritten).1.symm hc.1
    | plain hquote hescape h =>
      have hinj := List.cons.inj hwritten
      rw [ih h hplain hinj.2, hinj.1]
    | quote h => exact absurd (List.cons.inj hwritten).1.symm hc.2
    | escape hquote hcolon h => exact absurd (List.cons.inj hwritten).1.symm hc.2

/-- A key that ends in the version's name is the version's. -/
theorem Stands.key_eq {w : WrittenMember} {input field : Bytes} (h : Stands w input field)
    (hsuffix : versionName <:+ w.name) : w.key = ascii "version" := by
  obtain ⟨written, hname, hbody⟩ := h.name
  rw [hname, List.suffix_cons_iff] at hsuffix
  obtain heq | hsuffix := hsuffix
  · exact hbody.text_eq (fun c hc => (version_plain.2 c hc).2) (List.cons.inj heq).2.symm
  · exact absurd (hbody.mem_quote hsuffix) (knownKeys_plain w.key h.known).2

/-- Behind text without a colon, the search reads the value of the next member. -/
theorem Stands.number_eq {w : WrittenMember} {input field text : Bytes} (h : Stands w input field)
    (htext : ':'.toUInt8 ∉ text) : numberBehind (text ++ input) = w.number := by
  obtain ⟨gap, colon, hgap, rfl, hvalue⟩ := h.layout
  have hfront : ':'.toUInt8 ∉ text ++ (w.name ++ gap) := by
    simp only [List.mem_append, not_or]
    exact ⟨htext, h.name_noColon, hgap.not_mem (by decide)⟩
  have hnumber := numberBehind_colon hfront colon
  rw [hvalue, h.value.start, h.value.digits, List.append_assoc, List.append_assoc] at hnumber
  exact hnumber

/-- The number that the search arrives at in the members. -/
def found : List WrittenMember → Option ℕ
  | [] => none
  | w :: ws =>
    if versionName <:+ w.name then w.number
    else if versionName <:+ w.value then ws.head?.bind WrittenMember.number
    else found ws

theorem not_name_of_skip {c : UInt8} {rest later : Bytes} (h : skipSpace rest = c :: later)
    (hc : c ≠ 'v'.toUInt8) : ¬ versionName <+: '"'.toUInt8 :: rest := by
  rintro ⟨more, hmore⟩
  have hrest : rest = 'v'.toUInt8 :: (ascii "ersion\"" ++ more) := (List.cons.inj hmore).2.symm
  rw [hrest, skipSpace_of_not (by decide)] at h
  exact hc (List.cons.inj h).1.symm

/-- The search passes a member over, or stops at its key or in its value. -/
theorem Stands.searched_eq {w : WrittenMember} {input field later : Bytes} {c : UInt8}
    (h : Stands w input field) (hfield : skipSpace field = c :: later) (hc : c ≠ 'v'.toUInt8) :
    searched input =
      if versionName <:+ w.name then w.number
      else if versionName <:+ w.value then numberBehind (versionName ++ field)
      else searched field := by
  obtain ⟨written, hname, hbody⟩ := h.name
  obtain ⟨gap, colon, hgap, hinput, hvalue⟩ := h.layout
  have hgapQuote : '"'.toUInt8 ∉ gap := hgap.not_mem (by decide)
  have hbehind : skipSpace (gap ++ ':'.toUInt8 :: colon) = ':'.toUInt8 :: colon := by
    rw [skipSpace, List.dropWhile_append_of_pos hgap]
    exact skipSpace_of_not (by decide) colon
  have hnext : findText versionName (gap ++ ':'.toUInt8 :: colon) =
      findText versionName (w.value ++ field) := by
    obtain ⟨gap', hgap', hcolon⟩ := skipSpace_gap colon
    rw [findText_skip hgapQuote, findText_other (by decide), hcolon,
      findText_skip (hgap'.not_mem (by decide)), hvalue]
  have hsearch := findText_string hbody (not_name_of_skip hbehind (by decide))
  rw [← List.cons_append, ← hname, ← hinput, hnext] at hsearch
  rw [searched, hsearch]
  by_cases hkey : versionName <:+ w.name
  · have hcolon : ':'.toUInt8 ∉ versionName ++ gap := by
      rw [List.mem_append, not_or]
      exact ⟨by decide, hgap.not_mem (by decide)⟩
    have hnumber := numberBehind_colon hcolon colon
    rw [hvalue, h.value.start, h.value.digits, List.append_assoc] at hnumber
    rw [if_pos hkey, if_pos hkey, Option.bind_some]
    exact hnumber
  · rw [if_neg hkey, if_neg hkey]
    obtain ⟨written, text, hstring, hbody⟩ | hnoQuote := h.value.body
    · have hrest := findText_string hbody (not_name_of_skip hfield hc)
      rw [← List.cons_append, ← hstring] at hrest
      rw [hrest]
      split
      · rfl
      · rfl
    · have hno : ¬ versionName <:+ w.value := by
        intro hsuffix
        exact hnoQuote (hsuffix.subset (by decide))
      rw [findText_skip hnoQuote, if_neg hno]
      rfl

/-- At the start of a member, the next colon is the one behind its key. -/
theorem readMembers_number {keys : List Bytes} {values values' : Values} {input : Bytes}
    {ws : List WrittenMember} (h : readMembers keys values input = some (ws, values')) {text : Bytes}
    (htext : ':'.toUInt8 ∉ text) :
    numberBehind (text ++ input) = ws.head?.bind WrittenMember.number := by
  rw [readMembers_eq] at h
  cases hmember : readMember keys values input with
  | none =>
    rw [hmember] at h
    cases h
  | some read =>
    obtain ⟨w, values'', rest⟩ := read
    obtain ⟨field, hstands, -⟩ := readMember_stands hmember
    have hhead : ws.head? = some w := by
      rw [hmember] at h
      dsimp only at h
      split at h
      · rw [Option.ite_none_right_eq_some, Option.some.injEq, Prod.mk.injEq] at h
        rw [← h.2.1, List.head?_cons]
      · split at h
        · cases h
        · obtain ⟨read, -, hr⟩ := Option.map_eq_some_iff.mp h
          rw [Prod.mk.injEq] at hr
          rw [← hr.1, List.head?_cons]
    rw [hhead, Option.bind_some]
    exact hstands.number_eq htext

theorem searched_blank {input : Bytes} (h : skipSpace input = []) : searched input = none := by
  obtain ⟨gap, hgap, hinput⟩ := skipSpace_gap input
  have hnone := findText_skip (hgap.not_mem (c := '"'.toUInt8) (by decide)) []
  rw [hinput, h, searched, hnone]
  rfl

theorem search_members {keys : List Bytes} {values values' : Values} {input : Bytes}
    {ws : List WrittenMember} (h : readMembers keys values input = some (ws, values')) :
    searched input = found ws := by
  fun_induction readMembers keys values input generalizing ws values' with
  | case1 => cases h
  | case2 keys values input w values'' rest hmember behind hbrace hlast =>
    cases h
    obtain ⟨field, hstands, rfl⟩ := readMember_stands hmember
    rw [consume_eq_some] at hbrace
    obtain ⟨gap, hgap, hfield⟩ := skipSpace_gap field
    have hend : searched field = none := by
      rw [hfield, hbrace, searched, findText_skip (hgap.not_mem (by decide)),
        findText_other (by decide)]
      exact searched_blank hlast
    have hcolon : ':'.toUInt8 ∉ versionName ++ field := by
      obtain ⟨gap', hgap', hbehind⟩ := skipSpace_gap behind
      rw [hfield, hbrace, hbehind, hlast]
      simp only [List.mem_append, List.mem_cons, List.not_mem_nil, or_false, not_or]
      exact ⟨by decide, hgap.not_mem (by decide), by decide, hgap'.not_mem (by decide)⟩
    rw [hstands.searched_eq hbrace (by decide), hend, numberBehind_none hcolon]
    rfl
  | case3 => cases h
  | case4 => cases h
  | case5 keys values input w values'' rest hmember hbrace more hcomma ih =>
    obtain ⟨⟨ws', later⟩, hread, hr⟩ := Option.map_eq_some_iff.mp h
    cases hr
    obtain ⟨field, hstands, rfl⟩ := readMember_stands hmember
    rw [consume_eq_some] at hcomma
    obtain ⟨gap, hgap, hfield⟩ := skipSpace_gap field
    obtain ⟨gap', hgap', hmore⟩ := skipSpace_gap more
    have hnext : searched field = searched (skipSpace more) := by
      rw [hfield, hcomma, searched, findText_skip (hgap.not_mem (by decide)),
        findText_other (by decide), hmore, findText_skip (hgap'.not_mem (by decide)), ← hmore]
      rfl
    have hfront : ':'.toUInt8 ∉ versionName ++ (gap ++ ','.toUInt8 :: gap') := by
      simp only [List.mem_append, List.mem_cons, not_or]
      exact ⟨by decide, hgap.not_mem (by decide), by decide, hgap'.not_mem (by decide)⟩
    have hlayout : versionName ++ field =
        versionName ++ (gap ++ ','.toUInt8 :: gap') ++ skipSpace more := by
      rw [hfield, hcomma, List.append_assoc, List.append_assoc, List.cons_append, ← hmore]
    rw [hstands.searched_eq hcomma (by decide), hnext, ih hread, hlayout,
      readMembers_number hread hfront]
    rfl

/-! ### The version of a document -/

/-- The search arrives at the number of the member `w`: the first string that ends in the version's
name, as it is written, is the key of `w`, or a text in front of a member with the same number. -/
inductive Reaches (w : WrittenMember) : List WrittenMember → Prop
  | name {ws : List WrittenMember} (h : versionName <:+ w.name) : Reaches w (w :: ws)
  | text {other next : WrittenMember} {ws : List WrittenMember}
      (hname : ¬ versionName <:+ other.name) (hvalue : versionName <:+ other.value)
      (hnumber : next.number = w.number) : Reaches w (other :: next :: ws)
  | later {other : WrittenMember} {ws : List WrittenMember} (hname : ¬ versionName <:+ other.name)
      (hvalue : ¬ versionName <:+ other.value) (h : Reaches w ws) : Reaches w (other :: ws)

theorem found_iff_reaches {w : WrittenMember} {n : ℕ} (hnumber : w.number = some n)
    {ws : List WrittenMember} (hunique : ∀ w' ∈ ws, versionName <:+ w'.name → w' = w) :
    found ws = some n ↔ Reaches w ws := by
  induction ws with
  | nil =>
    refine ⟨fun h => ?_, fun h => ?_⟩
    · cases h
    · cases h
  | cons other ws ih =>
    obtain ⟨hother, hws⟩ := List.forall_mem_cons.mp hunique
    rw [found]
    by_cases hname : versionName <:+ other.name
    · obtain rfl := hother hname
      rw [if_pos hname, hnumber]
      exact ⟨fun _ => .name hname, fun _ => rfl⟩
    · rw [if_neg hname]
      by_cases hvalue : versionName <:+ other.value
      · rw [if_pos hvalue]
        constructor
        · intro h
          cases ws with
          | nil => cases h
          | cons next ws => exact .text hname hvalue (h.trans hnumber.symm)
        · intro h
          cases h with
          | name h => exact absurd h hname
          | text _ _ hnext => exact hnext.trans hnumber
          | later _ hno _ => exact absurd hvalue hno
      · rw [if_neg hvalue, ih hws]
        constructor
        · exact fun h => .later hname hvalue h
        · intro h
          cases h with
          | name h => exact absurd h hname
          | text _ h _ => exact absurd h hvalue
          | later _ _ h => exact h

/-- The version's member has a number, and it is not zero. -/
theorem readMember_version {keys : List Bytes} {values values' : Values} {input rest : Bytes}
    {w : WrittenMember} (h : readMember keys values input = some (w, values', rest))
    (hkey : w.key = ascii "version") : ∃ n, w.number = some n ∧ n ≠ 0 := by
  obtain ⟨-, behind, colon, field, -, -, hfield, -, -, hvalue⟩ := readMember_eq_some h
  rw [parseField, if_pos hkey] at hfield
  obtain ⟨⟨version, rest'⟩, hversion, hr⟩ := Option.bind_eq_some_iff.mp hfield
  simp only [Option.ite_none_left_eq_some, Option.some.injEq, Prod.mk.injEq] at hr
  obtain ⟨hne, -, rfl⟩ := hr
  obtain ⟨hinput, -, hnumber⟩ := parseUnsigned_written hversion
  rw [hinput, taken_append] at hvalue
  refine ⟨version, ?_, hne⟩
  rw [WrittenMember.number, hvalue, List.takeWhile_idem, hnumber]

theorem readMembers_stand {keys : List Bytes} {values values' : Values} {input : Bytes}
    {ws : List WrittenMember} (h : readMembers keys values input = some (ws, values')) :
    ∀ w ∈ ws, (versionName <:+ w.name → w.key = ascii "version") ∧
      (w.key = ascii "version" → ∃ n, w.number = some n ∧ n ≠ 0) := by
  fun_induction readMembers keys values input generalizing ws values' with
  | case1 => cases h
  | case2 keys values input w values'' rest hmember behind hbrace hlast =>
    cases h
    obtain ⟨field, hstands, -⟩ := readMember_stands hmember
    intro w' hw
    rw [List.mem_singleton.mp hw]
    exact ⟨hstands.key_eq, readMember_version hmember⟩
  | case3 => cases h
  | case4 => cases h
  | case5 keys values input w values'' rest hmember hbrace more hcomma ih =>
    obtain ⟨⟨ws', later⟩, hread, hr⟩ := Option.map_eq_some_iff.mp h
    cases hr
    obtain ⟨field, hstands, -⟩ := readMember_stands hmember
    intro w' hw
    obtain rfl | hw := List.mem_cons.mp hw
    · exact ⟨hstands.key_eq, readMember_version hmember⟩
    · exact ih hread w' hw

theorem searched_object {values values' : Values} {json : Bytes} {ws : List WrittenMember}
    (h : readObject values json = some (ws, values')) : searched json = found ws := by
  obtain ⟨rest, hbrace, h⟩ := Option.bind_eq_some_iff.mp h
  rw [Option.ite_none_left_eq_some] at h
  obtain ⟨gap, hgap, hjson⟩ := skipSpace_gap json
  obtain ⟨gap', hgap', hrest⟩ := skipSpace_gap rest
  rw [consume_eq_some] at hbrace
  rw [← search_members h.2, searched, hjson, hbrace, findText_skip (hgap.not_mem (by decide)),
    findText_other (by decide), hrest, findText_skip (hgap'.not_mem (by decide)), ← hrest]
  rfl

theorem parseVersion_eq_some {json : Bytes} {n : ℕ} (hn : n ≠ 0) (hlt : n < 18446744073709551616) :
    parseVersion json = some (UInt64.ofNat n) ↔ searched json = some n := by
  rw [parseVersion_eq]
  cases hsearched : searched json with
  | none => simp
  | some m =>
    obtain ⟨found, -, hm⟩ := Option.bind_eq_some_iff.mp hsearched
    have hmlt : m < 18446744073709551616 := fromChars_lt hm
    rw [Option.bind_some, Option.some.injEq]
    split
    · next hzero =>
      subst hzero
      simpa using Ne.symm hn
    · rw [Option.some.injEq, ← UInt64.toNat_inj, UInt64.toNat_ofNat', UInt64.toNat_ofNat',
        Nat.mod_eq_of_lt hmlt, Nat.mod_eq_of_lt hlt]

/-- The search finds the version of an accepted document exactly if the first string that ends in
its name is its key, or a text that happens to be followed by the same number. -/
theorem version_read_iff {json : Bytes} {values : Values} {w : WrittenMember}
    (h : parseValues json = some values) (hw : w ∈ documentMembers json)
    (hkey : w.key = ascii "version") :
    parseVersion json = w.number.map UInt64.ofNat ↔ Reaches w (documentMembers json) := by
  obtain ⟨hobject, -⟩ := parseValues_eq_some h
  obtain ⟨hnodup, -, -⟩ := accepted_members h
  obtain ⟨rest, -, hread⟩ := Option.bind_eq_some_iff.mp hobject
  rw [Option.ite_none_left_eq_some] at hread
  have hstand := readMembers_stand hread.2
  obtain ⟨n, hnumber, hn⟩ := (hstand w hw).2 hkey
  have hunique : ∀ w' ∈ documentMembers json, versionName <:+ w'.name → w' = w := by
    intro w' hw' hsuffix
    exact List.inj_on_of_nodup_map hnodup hw' hw (((hstand w' hw').1 hsuffix).trans hkey.symm)
  rw [hnumber, Option.map_some, parseVersion_eq_some hn (fromChars_lt hnumber),
    searched_object hobject, found_iff_reaches hnumber hunique]

/-! ### A title that misleads the search -/

def misleadingValues : Values := { overviewTitle := ascii "version" }

/-- The members in front of the version, of which the title is the first, and those behind it. -/
def frontMembers : List Member := members.drop 17

def backMembers : List Member := members.take 17

def backText : Bytes :=
  (ascii ",\n  ").intercalate (backMembers.map fun m => entry m.key (m.write misleadingValues)) ++
    fileEnd

def misleading : Bytes :=
  ascii "\x7b\n  " ++ (frontMembers.flatMap (fun m => entry m.key (m.write misleadingValues) ++
    ascii ",\n  ") ++ (entry (ascii "version") (decimal (7 : ℕ)) ++ (ascii ",\n  " ++ backText)))

/-- The version as it is written in the document. -/
def seven : WrittenMember := ⟨quotedKey (ascii "version"), ascii "version", decimal (7 : ℕ)⟩

theorem frontMembers_mem : ∀ m ∈ frontMembers, m ∈ members := fun _ hm => List.mem_of_mem_drop hm

theorem backMembers_mem : ∀ m ∈ backMembers, m ∈ members := fun _ hm => List.mem_of_mem_take hm

theorem misleading_inRange : misleadingValues.InRange := by
  unfold Values.InRange
  decide +kernel

theorem misleading_valid : validate misleadingValues = true := by decide +kernel

theorem misleading_writable : ∀ m ∈ members, m.Writable misleadingValues :=
  validate_writable misleading_valid misleading_inRange

theorem parseField_seven (values : Values) {rest : Bytes} (hrest : NoDigit rest) :
    parseField (ascii "version") values (decimal (7 : ℕ) ++ rest) = some (values, rest) := by
  rw [parseField, if_pos rfl, parseUnsigned_decimal (by decide) hrest, Option.bind_some]
  rfl

/-- The values are those of the members in front of the version and behind it. -/
theorem foldl_copy_misleading : backMembers.foldl (fun target m => m.copy misleadingValues target)
    (frontMembers.foldl (fun target m => m.copy misleadingValues target) {}) = misleadingValues := by
  simp -implicitDefEqProofs only [backMembers, frontMembers, members, List.take_succ_cons,
    List.take_zero, List.drop_succ_cons, List.drop_zero, List.foldl_cons, List.foldl_nil, Member.copy,
    UInt8.ofNat_toNat, UInt16.ofNat_toNat, UInt32.ofNat_toNat, UInt64.ofNat_toNat,
    Int32.ofInt_toInt]

/-- Behind the version, the other members are read. -/
theorem readMembers_seven (values : Values) :
    readMembers ((frontMembers.map Member.key).reverse ++ []) values
        (entry (ascii "version") (decimal (7 : ℕ)) ++ (ascii ",\n  " ++ backText)) =
      some (seven :: backMembers.map (Member.written misleadingValues),
        backMembers.foldl (fun target m => m.copy misleadingValues target) values) := by
  have hnew : ascii "version" ∉ (frontMembers.map Member.key).reverse ++ [] := by
    rw [List.append_nil, List.mem_reverse]
    intro hmem
    obtain ⟨m, hm, hkey⟩ := List.mem_map.mp hmem
    exact version_not_key m (frontMembers_mem m hm) hkey
  have hseven := @readMember_entry _ values values (ascii "version") (decimal (7 : ℕ))
    (ascii ",\n  " ++ backText) version_plain hnew (skipSpace_decimal 7 _)
    (parseField_seven values (noDigit_cons (by decide) _))
  have hne : backMembers ≠ [] := List.cons_ne_nil _ _
  have hnodup : (backMembers.map Member.key).Nodup :=
    nodup_keys.sublist ((List.take_sublist 17 members).map Member.key)
  have hkeys : ∀ m ∈ backMembers,
      m.key ∉ ascii "version" :: ((frontMembers.map Member.key).reverse ++ []) := by
    intro m hm hmem
    rw [List.append_nil, List.mem_cons, List.mem_reverse] at hmem
    obtain heq | hmem := hmem
    · exact version_not_key m (backMembers_mem m hm) heq
    · have hback := List.mem_map_of_mem (f := Member.key) hm
      rw [backMembers, List.map_take] at hback
      rw [frontMembers, List.map_drop] at hmem
      exact List.disjoint_take_drop nodup_keys (Nat.le_refl 17) hback hmem
  have hback := @readMembers_members misleadingValues values backMembers _ hne backMembers_mem hnodup
    hkeys (fun m hm => misleading_inRange m (backMembers_mem m hm))
    fun m hm => misleading_writable m (backMembers_mem m hm)
  obtain ⟨more, hmore⟩ := @members_head misleadingValues backMembers hne fileEnd
  have hstart : skipSpace backText = backText := by
    rw [backText, hmore]
    exact skipSpace_of_not (by decide) _
  rw [readMembers_more hseven hstart, backText, hback]
  rfl

theorem readObject_misleading : readObject {} misleading =
    some (frontMembers.map (Member.written misleadingValues) ++
      seven :: backMembers.map (Member.written misleadingValues), misleadingValues) := by
  have hnodup : (frontMembers.map Member.key).Nodup :=
    nodup_keys.sublist ((List.drop_sublist 17 members).map Member.key)
  have hfront := @readMembers_append misleadingValues {} frontMembers []
    (entry (ascii "version") (decimal (7 : ℕ)) ++ (ascii ",\n  " ++ backText)) frontMembers_mem hnodup
    (fun _ _ => List.not_mem_nil) (fun m hm => misleading_inRange m (frontMembers_mem m hm))
    (fun m hm => misleading_writable m (frontMembers_mem m hm)) (skipSpace_entry _ _ _)
  obtain ⟨more, hmore⟩ : ∃ more, frontMembers.flatMap (fun m =>
      entry m.key (m.write misleadingValues) ++ ascii ",\n  ") ++
        (entry (ascii "version") (decimal (7 : ℕ)) ++ (ascii ",\n  " ++ backText)) =
          '"'.toUInt8 :: more := ⟨_, rfl⟩
  rw [misleading, hmore, readObject_quote, ← hmore, hfront, readMembers_seven, foldl_copy_misleading]
  rfl

theorem documentMembers_misleading : documentMembers misleading =
    frontMembers.map (Member.written misleadingValues) ++
      seven :: backMembers.map (Member.written misleadingValues) := by
  rw [documentMembers, readObject_misleading, Option.elim_some]

theorem seven_mem : seven ∈ documentMembers misleading := by
  rw [documentMembers_misleading]
  exact List.mem_append_right _ List.mem_cons_self

theorem length_misleading_le : misleading.length ≤ kMaxConfigBytes := by
  have hfront := @length_flatMap_members_le misleadingValues frontMembers
    (fun m hm => misleading_inRange m (frontMembers_mem m hm))
    fun m hm => misleading_writable m (frontMembers_mem m hm)
  have hback := @length_members_le misleadingValues backMembers
    (fun m hm => misleading_inRange m (backMembers_mem m hm))
    fun m hm => misleading_writable m (backMembers_mem m hm)
  have hall : (backMembers.map fun m => m.key.length + m.bound + 8).sum +
      (frontMembers.map fun m => m.key.length + m.bound + 8).sum =
        (members.map fun m => m.key.length + m.bound + 8).sum := by
    rw [← List.sum_append, ← List.map_append, backMembers, frontMembers, List.take_append_drop]
  have hsize := members_size
  have hfirst : (ascii "\x7b\n  ").length = 4 := rfl
  have hversion : (ascii "version").length = 7 := rfl
  have hseven : (decimal (7 : ℕ)).length ≤ 1 := length_decimal_le (by decide) (by decide)
  have hseparator : (ascii ",\n  ").length = 4 := rfl
  have hlast : fileEnd.length = 3 := rfl
  rw [misleading, kMaxConfigBytes, backText]
  simp only [List.length_append, length_entry] at hfront hback ⊢
  omega

/-- The document is accepted. -/
theorem parseValues_misleading : parseValues misleading = some misleadingValues := by
  obtain ⟨rest, hbrace, hread⟩ := Option.bind_eq_some_iff.mp readObject_misleading
  rw [Option.ite_none_left_eq_some] at hread
  rw [parseValues, if_neg (Nat.not_lt.mpr length_misleading_le), parseObject, hbrace,
    Option.bind_some, if_neg hread.1, parseMembers_eq, hread.2, Option.bind_some]
  dsimp only
  rw [List.length_append, List.length_map, List.length_cons, List.length_map]
  exact if_pos (by decide)

theorem misleading_version_read_iff : parseVersion misleading = seven.number.map UInt64.ofNat ↔
    Reaches seven (documentMembers misleading) :=
  version_read_iff parseValues_misleading seven_mem rfl

/-- The configuration is valid and its version is seven, but the search stops at the title. -/
theorem misleading_version_unread :
    (parseValues misleading = some misleadingValues ∧ validate misleadingValues = true) ∧
      (seven ∈ documentMembers misleading ∧ seven.key = ascii "version" ∧ seven.number = some 7) ∧
      parseVersion misleading = none := by
  have hseven : seven.number = some 7 := by
    rw [WrittenMember.number, seven, List.takeWhile_eq_self_iff.mpr
      (List.all_eq_true.mp (all_isDigit_decimal 7)), fromChars_decimal (by decide)]
  obtain ⟨more, hmore⟩ : ∃ more, frontMembers.map (Member.written misleadingValues) ++
      seven :: backMembers.map (Member.written misleadingValues) =
        ⟨quotedKey (ascii "overview_title"), ascii "overview_title", quotedKey (ascii "version")⟩ ::
          ⟨quotedKey (ascii "overview_device"), ascii "overview_device",
            quotedKey misleadingValues.overviewDevice⟩ :: more := ⟨_, rfl⟩
  have hname : ¬ versionName <:+ quotedKey (ascii "overview_title") := by decide +kernel
  have htitle : versionName <:+ quotedKey (ascii "version") := List.suffix_rfl
  have htext : fromChars ((quotedKey misleadingValues.overviewDevice).takeWhile isDigit) = none := by
    decide +kernel
  refine ⟨⟨parseValues_misleading, misleading_valid⟩, ⟨seven_mem, rfl, hseven⟩, ?_⟩
  rw [parseVersion_eq, searched_object readObject_misleading, hmore, found, if_neg hname,
    if_pos htitle, List.head?_cons, Option.bind_some, WrittenMember.number, htext,
    Option.bind_none]

end Uhf.Config
