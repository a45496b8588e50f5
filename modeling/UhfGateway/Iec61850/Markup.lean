/-
The markup of an SCL document (`iec61850/scl_model`).

The loop of `parse_scl_model` in two passes: `turns` cuts a document into its tags and the texts
before them, whatever they mean, and `SclParser.run` goes through what has been cut.  Nothing
that follows a tag, a comment or a declaration has a part in reading it.

* `SclParser.read_ok_iff` — to read a document is to cut it and to go through its turns;
* `turns_append` — what stands in front of a tag is cut the same way whatever follows;
* `parseTag_reopened` — a tag without the slash that closes it is the same tag.
-/
import UhfGateway.Iec61850.SclModel

namespace Uhf.Iec61850

/-! ### Without looking ahead -/

/-- A parser takes this front of its input, whatever follows it. -/
def Takes {α : Type} (parse : Bytes → Except String (α × Bytes)) (front : Bytes) (value : α) :
    Prop :=
  ∀ later, parse (front ++ later) = .ok (value, later)

section Fronts

variable {p : UInt8 → Bool} {front later : Bytes}

theorem takeWhile_front (hfront : ∀ c ∈ front, p c = true) (hlater : ∀ c ∈ later.head?, p c = false) :
    (front ++ later).takeWhile p = front := by
  rw [List.takeWhile_append_of_pos hfront]
  cases later with
  | nil => simp
  | cons c later =>
    have hc : p c = false := hlater c rfl
    simp [hc]

theorem dropWhile_front (hfront : ∀ c ∈ front, p c = true) (hlater : ∀ c ∈ later.head?, p c = false) :
    (front ++ later).dropWhile p = later := by
  rw [List.dropWhile_append_of_pos hfront]
  cases later with
  | nil => rfl
  | cons c later =>
    have hc : p c = false := hlater c rfl
    simp [hc]

theorem head_dropWhile (p : UInt8 → Bool) (input : Bytes) :
    ∀ c ∈ (input.dropWhile p).head?, p c = false := by
  intro c hc
  have hnot := List.head?_dropWhile_not p input
  rw [Option.mem_def.mp hc] at hnot
  simpa using hnot

theorem mem_takeWhile (p : UInt8 → Bool) (input : Bytes) : ∀ c ∈ input.takeWhile p, p c = true :=
  List.all_eq_true.mp List.all_takeWhile

end Fronts

/-- The blanks in front of what is read next. -/
theorem skipSpace_split {input rest : Bytes} {c : UInt8} (h : skipSpace input = c :: rest) :
    ∃ spaces, (∀ s ∈ spaces, isSpace s = true) ∧ isSpace c = false ∧
      input = spaces ++ c :: rest := by
  refine ⟨input.takeWhile isSpace, mem_takeWhile isSpace input, ?_, ?_⟩
  · exact head_dropWhile isSpace input c (by
      have hhead : input.dropWhile isSpace = c :: rest := h
      rw [hhead]
      rfl)
  · rw [← h]
    exact List.takeWhile_append_dropWhile.symm

theorem skipSpace_front {spaces later : Bytes} (hspaces : ∀ s ∈ spaces, isSpace s = true)
    (hlater : ∀ c ∈ later.head?, isSpace c = false) : skipSpace (spaces ++ later) = later :=
  dropWhile_front hspaces hlater

theorem skipSpace_cons {c : UInt8} {later : Bytes} (h : isSpace c = false) :
    skipSpace (c :: later) = c :: later := by
  rw [skipSpace, List.dropWhile_cons, h]
  rfl

theorem nameStart_spec {c : UInt8} (h : nameStart c = true) :
    isSpace c = false ∧ c ≠ '>'.toUInt8 ∧ c ≠ '/'.toUInt8 ∧ c ≠ '='.toUInt8 := by
  simp only [nameStart, isSpace, Bool.or_eq_true, Bool.and_eq_true, Bool.or_eq_false_iff,
    Bool.and_eq_false_iff, decide_eq_true_eq, decide_eq_false_iff_not, UInt8.le_iff_toNat_le,
    ne_eq, ← UInt8.toNat_inj] at h ⊢
  have hA : 'A'.toUInt8.toNat = 65 := rfl
  have hZ : 'Z'.toUInt8.toNat = 90 := rfl
  have ha : 'a'.toUInt8.toNat = 97 := rfl
  have hz : 'z'.toUInt8.toNat = 122 := rfl
  have hunderscore : '_'.toUInt8.toNat = 95 := rfl
  have hcolon : ':'.toUInt8.toNat = 58 := rfl
  have hclose : '>'.toUInt8.toNat = 62 := rfl
  have hslash : '/'.toUInt8.toNat = 47 := rfl
  have hassign : '='.toUInt8.toNat = 61 := rfl
  have hblank : (0x20 : UInt8).toNat = 32 := rfl
  have htab : (0x09 : UInt8).toNat = 9 := rfl
  have hreturn : (0x0D : UInt8).toNat = 13 := rfl
  omega

theorem open_not_in {p : UInt8 → Bool} {front : Bytes} (hp : p '<'.toUInt8 = false)
    (hfront : ∀ c ∈ front, p c = true) : '<'.toUInt8 ∉ front := by
  intro hmem
  rw [hfront _ hmem] at hp
  cases hp

/-- A name ends where no character of a name follows. -/
theorem parseName_split {input name rest : Bytes} (h : parseName input = some (name, rest)) :
    (∃ c tail, name = c :: tail ∧ nameStart c = true) ∧ (∀ c ∈ name, nameCharacter c = true) ∧
      input = name ++ rest ∧ (∀ c ∈ rest.head?, nameCharacter c = false) ∧
      ∀ later, (∀ c ∈ later.head?, nameCharacter c = false) →
        parseName (name ++ later) = some (name, later) := by
  cases input with
  | nil => cases h
  | cons c input =>
    rw [parseName, Option.ite_none_right_eq_some] at h
    obtain ⟨hstart, h⟩ := h
    simp only [Option.some.injEq, Prod.mk.injEq] at h
    obtain ⟨rfl, rfl⟩ := h
    refine ⟨⟨c, _, rfl, hstart⟩, ?_, ?_, head_dropWhile nameCharacter input, ?_⟩
    · intro c' hc
      rcases List.mem_cons.mp hc with rfl | hlater
      · rw [nameCharacter, hstart]
        rfl
      · exact mem_takeWhile nameCharacter input c' hlater
    · rw [List.cons_append, List.takeWhile_append_dropWhile]
    · intro later hlater
      rw [List.cons_append, parseName, if_pos hstart,
        takeWhile_front (mem_takeWhile nameCharacter input) hlater,
        dropWhile_front (mem_takeWhile nameCharacter input) hlater]

/-! ### Attributes -/

theorem attributeValue_takes {quote : UInt8} {input value rest : Bytes}
    (hopen : '<'.toUInt8 ≠ quote) (h : attributeValue quote input = .ok (value, rest)) :
    ∃ front, '<'.toUInt8 ∉ front ∧ input = front ++ rest ∧
      Takes (attributeValue quote) front value := by
  induction input generalizing value with
  | nil => cases h
  | cons c input ih =>
    rw [attributeValue] at h
    split at h
    · next hquote =>
      cases h
      refine ⟨[c], by rwa [List.mem_singleton, hquote], rfl, ?_⟩
      intro later
      rw [List.singleton_append, attributeValue, if_pos hquote]
    · next hquote =>
      split at h
      · cases h
      · next hbad =>
        cases hlater : attributeValue quote input with
        | error error =>
          rw [hlater] at h
          cases h
        | ok parsed =>
          rw [hlater] at h
          cases h
          obtain ⟨front, hfront, hinput, htakes⟩ := ih hlater
          have hc : '<'.toUInt8 ∉ c :: front := by
            rw [List.mem_cons, not_or]
            exact ⟨fun heq => hbad (.inl heq.symm), hfront⟩
          refine ⟨c :: front, hc, by rw [hinput, List.cons_append], ?_⟩
          intro later
          rw [List.cons_append, attributeValue, if_neg hquote, if_neg hbad, htakes later]
          rfl

theorem assignedValue_takes {input value rest : Bytes}
    (h : assignedValue input = .ok (value, rest)) :
    ∃ front, front ≠ [] ∧ '<'.toUInt8 ∉ front ∧ input = front ++ rest ∧
      Takes assignedValue front value := by
  rw [assignedValue] at h
  split at h
  · cases h
  · next assign input' hassign =>
    obtain ⟨spaces, hspaces, hfirst, hinput⟩ := skipSpace_split hassign
    split at h
    · cases h
    · next hequals =>
      split at h
      · cases h
      · next quote input'' hquote =>
        obtain ⟨spaces', hspaces', hfirst', hinput'⟩ := skipSpace_split hquote
        split at h
        · cases h
        · next hquotes =>
          have hassigned : assign = '='.toUInt8 := by simpa using hequals
          have hopen : '<'.toUInt8 ≠ quote := by
            rintro rfl
            exact hquotes (by decide)
          obtain ⟨value', hplain, hvalue, htakes⟩ := attributeValue_takes hopen h
          have hblank : '<'.toUInt8 ∉ spaces := open_not_in rfl hspaces
          have hblank' : '<'.toUInt8 ∉ spaces' := open_not_in rfl hspaces'
          have hsign : '<'.toUInt8 ≠ assign := by
            rw [hassigned]
            decide
          refine ⟨spaces ++ assign :: (spaces' ++ quote :: value'), by simp,
            by simp [hplain, hblank, hblank', hsign, hopen], by simp [hinput, hinput', hvalue], ?_⟩
          intro later
          have hbehind : ∀ c ∈ (assign :: (spaces' ++ quote :: value') ++ later).head?,
              isSpace c = false := by
            intro c hc
            cases hc
            exact hfirst
          have hbehind' : ∀ c ∈ (quote :: value' ++ later).head?, isSpace c = false := by
            intro c hc
            cases hc
            exact hfirst'
          rw [assignedValue, List.append_assoc, skipSpace_front hspaces hbehind]
          simp only [List.cons_append, List.append_assoc, if_neg hequals]
          rw [← List.cons_append, skipSpace_front hspaces' hbehind']
          simp only [List.cons_append, if_neg hquotes]
          exact htakes later

theorem parseAttribute_takes {input rest : Bytes} {item : Attribute}
    (h : parseAttribute input = .ok (item, rest)) :
    ∃ front, (∃ c tail, front = c :: tail ∧ nameStart c = true) ∧ '<'.toUInt8 ∉ front ∧
      input = front ++ rest ∧ Takes parseAttribute front item := by
  rw [parseAttribute] at h
  split at h
  · cases h
  · next name input' hname =>
    obtain ⟨⟨c, tail, hc, hstart⟩, hchars, hinput, hbehind, hagain⟩ := parseName_split hname
    cases hvalue : assignedValue input' with
    | error error =>
      rw [hvalue] at h
      cases h
    | ok assigned =>
      rw [hvalue] at h
      cases h
      obtain ⟨front, hfront, hplain, hinput', htakes⟩ := assignedValue_takes hvalue
      have hname' : '<'.toUInt8 ∉ name := open_not_in rfl hchars
      refine ⟨name ++ front, ⟨c, tail ++ front, by rw [hc, List.cons_append], hstart⟩,
        by simp [hname', hplain], by rw [hinput, hinput', List.append_assoc], ?_⟩
      intro later
      -- the name ends at the same character as before
      have hhead : ∀ c ∈ (front ++ later).head?, nameCharacter c = false := by
        obtain ⟨first, others, rfl⟩ := List.exists_cons_of_ne_nil hfront
        rw [hinput'] at hbehind
        exact hbehind
      rw [parseAttribute, List.append_assoc, hagain _ hhead]
      simp only [htakes later]
      rfl

theorem parseAttributes_end {attributes : List Attribute} {spaces later : Bytes}
    (hspaces : ∀ s ∈ spaces, isSpace s = true) :
    parseAttributes attributes (spaces ++ '>'.toUInt8 :: later) = .ok (attributes, false, later) := by
  have hskip : skipSpace (spaces ++ '>'.toUInt8 :: later) = '>'.toUInt8 :: later :=
    skipSpace_front hspaces (by
      intro c hc
      cases hc
      rfl)
  rw [parseAttributes]
  split
  · next hnil => cases hskip.symm.trans hnil
  · next c rest hcons =>
    cases hskip.symm.trans hcons
    rw [if_pos rfl]

theorem parseAttributes_slash {attributes : List Attribute} {spaces spaces' later : Bytes}
    (hspaces : ∀ s ∈ spaces, isSpace s = true) (hspaces' : ∀ s ∈ spaces', isSpace s = true) :
    parseAttributes attributes (spaces ++ '/'.toUInt8 :: (spaces' ++ '>'.toUInt8 :: later)) =
      .ok (attributes, true, later) := by
  have hskip : skipSpace (spaces ++ '/'.toUInt8 :: (spaces' ++ '>'.toUInt8 :: later)) =
      '/'.toUInt8 :: (spaces' ++ '>'.toUInt8 :: later) :=
    skipSpace_front hspaces (by
      intro c hc
      cases hc
      rfl)
  have hskip' : skipSpace (spaces' ++ '>'.toUInt8 :: later) = '>'.toUInt8 :: later :=
    skipSpace_front hspaces' (by
      intro c hc
      cases hc
      rfl)
  rw [parseAttributes]
  split
  · next hnil => cases hskip.symm.trans hnil
  · next c rest hcons =>
    cases hskip.symm.trans hcons
    rw [if_neg (by decide), if_pos rfl]
    simp only [hskip']
    rfl

theorem parseAttributes_item {attributes : List Attribute} {item : Attribute}
    {spaces front : Bytes} (hspaces : ∀ s ∈ spaces, isSpace s = true)
    (hfront : ∃ c tail, front = c :: tail ∧ nameStart c = true)
    (htakes : Takes parseAttribute front item) (later : Bytes) :
    parseAttributes attributes (spaces ++ (front ++ later)) =
      parseAttributes (attributes ++ [item]) later := by
  obtain ⟨c, tail, rfl, hstart⟩ := hfront
  obtain ⟨hspace, hclose, hslash, -⟩ := nameStart_spec hstart
  have hskip : skipSpace (spaces ++ (c :: tail ++ later)) = c :: (tail ++ later) :=
    skipSpace_front hspaces (by
      intro c' hc
      cases hc
      exact hspace)
  have hitem : parseAttribute (c :: (tail ++ later)) = .ok (item, later) := htakes later
  conv_lhs => rw [parseAttributes]
  split
  · next hnil => cases hskip.symm.trans hnil
  · next c' rest hcons =>
    cases hskip.symm.trans hcons
    rw [if_neg hclose, if_neg hslash]
    split
    · next error herror => cases hitem.symm.trans herror
    · next item' rest' hok =>
      cases hitem.symm.trans hok
      rfl

/-- The attributes of a tag end at the sign that ends the tag. -/
theorem parseAttributes_takes {attributes attributes' : List Attribute} {selfClosing : Bool}
    {input rest : Bytes}
    (h : parseAttributes attributes input = .ok (attributes', selfClosing, rest)) :
    ∃ front, input = front ++ rest ∧
      ∀ later, parseAttributes attributes (front ++ later) = .ok (attributes', selfClosing, later) := by
  fun_induction parseAttributes attributes input with
  | case1 => cases h
  | case2 attributes input rest' hskip =>
    cases h
    obtain ⟨spaces, hspaces, -, hinput⟩ := skipSpace_split hskip
    refine ⟨spaces ++ ['>'.toUInt8], by simp [hinput], ?_⟩
    intro later
    rw [List.append_assoc, List.singleton_append]
    exact parseAttributes_end hspaces
  | case3 => cases h
  | case4 attributes input inside rest' hskip _ hslash =>
    cases h
    obtain ⟨spaces, hspaces, -, hinput⟩ := skipSpace_split hskip
    obtain ⟨spaces', hspaces', -, hinside⟩ := skipSpace_split hslash
    refine ⟨spaces ++ '/'.toUInt8 :: (spaces' ++ ['>'.toUInt8]), by simp [hinput, hinside], ?_⟩
    intro later
    simp only [List.append_assoc, List.cons_append, List.nil_append]
    exact parseAttributes_slash hspaces hspaces'
  | case5 => cases h
  | case6 => cases h
  | case7 attributes input c rest' hskip _ _ item rest'' hattribute ih =>
    obtain ⟨spaces, hspaces, -, hinput⟩ := skipSpace_split hskip
    obtain ⟨front, hfront, -, hrest, htakes⟩ := parseAttribute_takes hattribute
    obtain ⟨front', hrest', hagain⟩ := ih h
    refine ⟨spaces ++ (front ++ front'), by simp [hinput, hrest, hrest'], ?_⟩
    intro later
    rw [List.append_assoc, List.append_assoc, parseAttributes_item hspaces hfront htakes]
    exact hagain later

/-- Without the slash, the same attributes are those of a tag that stays open. -/
theorem parseAttributes_reopened {attributes attributes' : List Attribute} {input rest : Bytes}
    (h : parseAttributes attributes input = .ok (attributes', true, rest)) :
    ∃ front spaces, (∀ s ∈ spaces, isSpace s = true) ∧ '<'.toUInt8 ∉ front ∧
      input = front ++ '/'.toUInt8 :: (spaces ++ '>'.toUInt8 :: rest) ∧
      ∀ later, parseAttributes attributes (front ++ '>'.toUInt8 :: later) =
        .ok (attributes', false, later) := by
  fun_induction parseAttributes attributes input with
  | case1 => cases h
  | case2 => cases h
  | case3 => cases h
  | case4 attributes input inside rest' hskip _ hslash =>
    cases h
    obtain ⟨spaces, hspaces, -, hinput⟩ := skipSpace_split hskip
    obtain ⟨spaces', hspaces', -, hinside⟩ := skipSpace_split hslash
    refine ⟨spaces, spaces', hspaces', open_not_in rfl hspaces, by rw [hinput, hinside], ?_⟩
    intro later
    exact parseAttributes_end hspaces
  | case5 => cases h
  | case6 => cases h
  | case7 attributes input c rest' hskip _ _ item rest'' hattribute ih =>
    obtain ⟨spaces, hspaces, -, hinput⟩ := skipSpace_split hskip
    obtain ⟨front, hfront, hplain, hrest, htakes⟩ := parseAttribute_takes hattribute
    obtain ⟨front', spaces', hspaces', hplain', hrest', hagain⟩ := ih h
    have hblank : '<'.toUInt8 ∉ spaces := open_not_in rfl hspaces
    refine ⟨spaces ++ (front ++ front'), spaces', hspaces', by simp [hblank, hplain, hplain'],
      by simp [hinput, hrest, hrest'], ?_⟩
    intro later
    rw [List.append_assoc, List.append_assoc, parseAttributes_item hspaces hfront htakes]
    exact hagain later

/-! ### Tags -/

/-- The name of an element, behind blanks. -/
theorem elementName_split {input name rest : Bytes}
    (h : parseName (skipSpace input) = some (name, rest)) :
    ∃ spaces, (∀ s ∈ spaces, isSpace s = true) ∧ input = spaces ++ (name ++ rest) ∧
      (∃ c tail, spaces ++ name = c :: tail ∧ (isSpace c = true ∨ nameStart c = true)) ∧
      (∀ c ∈ rest.head?, nameCharacter c = false) ∧
      ∀ later, (∀ c ∈ later.head?, nameCharacter c = false) →
        parseName (skipSpace (spaces ++ (name ++ later))) = some (name, later) := by
  obtain ⟨⟨c, tail, rfl, hstart⟩, -, hname, hbehind, hagain⟩ := parseName_split h
  obtain ⟨spaces, hspaces, hfirst, hinput⟩ := skipSpace_split hname
  refine ⟨spaces, hspaces, hinput, ?_, hbehind, ?_⟩
  · cases spaces with
    | nil => exact ⟨c, tail, rfl, .inr hstart⟩
    | cons s spaces => exact ⟨s, spaces ++ c :: tail, rfl, .inl (hspaces s List.mem_cons_self)⟩
  · intro later hlater
    have hskip : skipSpace (spaces ++ (c :: tail ++ later)) = c :: tail ++ later :=
      skipSpace_front hspaces (by
        intro c' hc
        cases hc
        exact hfirst)
    rw [hskip]
    exact hagain later hlater

theorem elementName_first {c : UInt8} (h : isSpace c = true ∨ nameStart c = true) :
    c ≠ '!'.toUInt8 ∧ c ≠ '?'.toUInt8 ∧ c ≠ '/'.toUInt8 := by
  refine ⟨?_, ?_, ?_⟩
  all_goals
    rintro rfl
    revert h
    decide

/-- What follows a name has the same first character as before. -/
theorem head_kept (front rest later : Bytes) (hfront : front ≠ [])
    (h : ∀ c ∈ (front ++ rest).head?, nameCharacter c = false) :
    ∀ c ∈ (front ++ later).head?, nameCharacter c = false := by
  obtain ⟨c, tail, rfl⟩ := List.exists_cons_of_ne_nil hfront
  exact h

theorem parseClosing_takes {input rest : Bytes} {tag : Tag}
    (h : parseClosing input = .ok (tag, rest)) :
    ∃ front, input = front ++ rest ∧ Takes parseClosing front tag := by
  rw [parseClosing] at h
  split at h
  · cases h
  · next name input' hname =>
    obtain ⟨spaces, -, hinput, -, hbehind, hagain⟩ := elementName_split hname
    split at h
    · cases h
    · next c rest' hskip =>
      split at h
      · next hclose =>
        cases h
        obtain ⟨spaces', hspaces', hfirst, hinput'⟩ := skipSpace_split hskip
        refine ⟨spaces ++ (name ++ (spaces' ++ [c])), by simp [hinput, hinput'], ?_⟩
        intro later
        have hkept := head_kept (spaces' ++ [c]) rest later (by simp) (by
            rw [List.append_assoc, List.singleton_append, ← hinput']
            exact hbehind)
        have hskip' : skipSpace (spaces' ++ [c] ++ later) = c :: later := by
          rw [List.append_assoc]
          exact skipSpace_front hspaces' (by
            intro c' hc
            cases hc
            exact hfirst)
        rw [List.append_assoc, List.append_assoc, parseClosing, hagain _ hkept]
        simp only [hskip', if_pos hclose]
      · cases h

theorem parseOpening_takes {input rest : Bytes} {tag : Tag}
    (h : parseOpening input = .ok (tag, rest)) :
    ∃ c tail, (isSpace c = true ∨ nameStart c = true) ∧ input = c :: tail ++ rest ∧
      Takes parseOpening (c :: tail) tag := by
  rw [parseOpening] at h
  split at h
  · cases h
  · next name input' hname =>
    obtain ⟨spaces, -, hinput, ⟨c, tail, hc, hfirst⟩, hbehind, hagain⟩ := elementName_split hname
    cases hattributes : parseAttributes [] input' with
    | error error =>
      rw [hattributes] at h
      cases h
    | ok parsed =>
      rw [hattributes] at h
      cases h
      have hlength := parseAttributes_length hattributes
      obtain ⟨front, hinput', htakes⟩ := parseAttributes_takes hattributes
      have hfront : front ≠ [] := by
        rintro rfl
        rw [hinput', List.nil_append] at hlength
        exact Nat.lt_irrefl _ hlength
      have hsplit (later : Bytes) : c :: (tail ++ front) ++ later =
          spaces ++ (name ++ (front ++ later)) := by
        rw [← List.cons_append, ← hc]
        simp
      refine ⟨c, tail ++ front, hfirst, by rw [hsplit, hinput, hinput'], ?_⟩
      intro later
      have hkept := head_kept front _ later hfront (by
        rw [← hinput']
        exact hbehind)
      rw [hsplit, parseOpening, hagain _ hkept]
      simp only [htakes later]
      rfl

theorem parseTag_opening {c : UInt8} {input : Bytes} (h : c ≠ '/'.toUInt8) :
    parseTag ('<'.toUInt8 :: c :: input) = parseOpening (c :: input) := by
  have hhead : (c :: input).head? ≠ some '/'.toUInt8 := by
    rw [List.head?_cons, ne_eq, Option.some.injEq]
    exact h
  rw [parseTag, if_neg (not_not.mpr rfl), if_neg hhead]

/-- A tag is read without what follows it, and is neither a comment nor a declaration. -/
theorem parseTag_takes {input rest : Bytes} {tag : Tag} (h : parseTag input = .ok (tag, rest)) :
    ∃ c tail, (c ≠ '!'.toUInt8 ∧ c ≠ '?'.toUInt8) ∧ input = '<'.toUInt8 :: c :: tail ++ rest ∧
      Takes parseTag ('<'.toUInt8 :: c :: tail) tag := by
  cases input with
  | nil => cases h
  | cons open' input =>
    rw [parseTag] at h
    split at h
    · cases h
    · next hopen =>
      rw [not_not] at hopen
      subst hopen
      split at h
      · next hslash =>
        obtain ⟨inner, hinner⟩ : ∃ inner, input = '/'.toUInt8 :: inner := by
          cases input with
          | nil => cases hslash
          | cons c inner => exact ⟨inner, by rw [Option.some.inj hslash]⟩
        subst hinner
        obtain ⟨front, hinput, htakes⟩ := parseClosing_takes h
        refine ⟨'/'.toUInt8, front, by decide, by simpa using hinput, ?_⟩
        intro later
        exact htakes later
      · obtain ⟨c, tail, hfirst, hinput, htakes⟩ := parseOpening_takes h
        obtain ⟨hbang, hquestion, hslash⟩ := elementName_first hfirst
        refine ⟨c, tail, ⟨hbang, hquestion⟩, congrArg _ hinput, ?_⟩
        intro later
        exact (parseTag_opening hslash).trans (htakes later)

/-- A self-closing tag without its slash, and the closing tag for it. -/
theorem parseTag_reopened {inner after : Bytes} {element : Element}
    (h : parseTag ('<'.toUInt8 :: inner ++ '/'.toUInt8 :: '>'.toUInt8 :: after) =
      .ok (.opening element true, after)) :
    element.text = [] ∧ (∀ c ∈ element.name, nameCharacter c = true) ∧
      ('<'.toUInt8 ∉ inner ∧ inner.head? ≠ some '!'.toUInt8 ∧ inner ≠ []) ∧
      (∀ later, parseTag ('<'.toUInt8 :: inner ++ '>'.toUInt8 :: later) =
        .ok (.opening element false, later)) ∧
      ∀ later, parseTag ('<'.toUInt8 :: '/'.toUInt8 :: element.name ++ '>'.toUInt8 :: later) =
        .ok (.closing element.name, later) := by
  rw [List.cons_append, parseTag, if_neg (not_not.mpr rfl)] at h
  split at h
  · -- a closing tag is not an opening one
    rw [parseClosing] at h
    split at h
    · cases h
    · split at h
      · cases h
      · split at h <;> cases h
  · rw [parseOpening] at h
    split at h
    · cases h
    · next name input' hname =>
      obtain ⟨spaces, hspaces, hinput, ⟨c, tail, hc, hfirst⟩, hbehind, hagain⟩ :=
        elementName_split hname
      obtain ⟨⟨start, others, hstart, hnameStart⟩, hchars, -, -, halone⟩ := parseName_split hname
      cases hattributes : parseAttributes [] input' with
      | error error =>
        rw [hattributes] at h
        cases h
      | ok parsed =>
        obtain ⟨attributes, selfClosing, behind⟩ := parsed
        rw [hattributes] at h
        cases h
        obtain ⟨front, spaces', hspaces', hplain, hinput', hreopened⟩ :=
          parseAttributes_reopened hattributes
        -- nothing stands between the slash and the end of the tag
        have hinner : inner = spaces ++ (name ++ front) := by
          have hboth : inner ++ ['/'.toUInt8] = spaces ++ (name ++ front) ++ '/'.toUInt8 :: spaces' := by
            rw [hinput'] at hinput
            have hall : (inner ++ ['/'.toUInt8]) ++ '>'.toUInt8 :: after =
                (spaces ++ (name ++ front) ++ '/'.toUInt8 :: spaces') ++ '>'.toUInt8 :: after := by
              simpa using hinput
            exact List.append_cancel_right hall
          cases hlast : spaces'.reverse with
          | nil =>
            rw [List.reverse_eq_nil_iff.mp hlast] at hboth
            exact List.append_cancel_right hboth
          | cons s others =>
            have hs : spaces' = others.reverse ++ [s] := by
              rw [← List.reverse_reverse spaces', hlast, List.reverse_cons]
            have hslash : '/'.toUInt8 = s := by
              have hends : inner ++ ['/'.toUInt8] =
                  (spaces ++ (name ++ front) ++ '/'.toUInt8 :: others.reverse) ++ [s] := by
                rw [hboth, hs]
                simp
              exact (List.cons.inj (List.append_inj' hends rfl).2).1
            have hspace := hspaces' s (by
              rw [hs]
              exact List.mem_append_right _ List.mem_cons_self)
            rw [← hslash] at hspace
            exact absurd hspace (by decide)
        have hinner' : inner = c :: (tail ++ front) := by
          rw [hinner, ← List.append_assoc, hc, List.cons_append]
        refine ⟨rfl, hchars, ⟨?_, ?_, ?_⟩, ?_, ?_⟩
        · have hblank : '<'.toUInt8 ∉ spaces := open_not_in rfl hspaces
          have hname' : '<'.toUInt8 ∉ name := open_not_in rfl hchars
          rw [hinner]
          simp [hblank, hname', hplain]
        · rw [hinner', List.head?_cons, ne_eq, Option.some.injEq]
          exact (elementName_first hfirst).1
        · rw [hinner']
          exact List.cons_ne_nil _ _
        · intro later
          have hkept : ∀ c ∈ (front ++ '>'.toUInt8 :: later).head?, nameCharacter c = false := by
            cases front with
            | nil =>
              intro c hc
              cases hc
              rfl
            | cons first front =>
              rw [hinput'] at hbehind
              exact hbehind
          have hsplit : inner ++ '>'.toUInt8 :: later =
              c :: (tail ++ (front ++ '>'.toUInt8 :: later)) := by
            rw [hinner, ← List.cons_append, ← hc]
            simp
          rw [List.cons_append, hsplit, parseTag_opening (elementName_first hfirst).2.2,
            ← List.cons_append, ← hc, List.append_assoc, parseOpening, hagain _ hkept]
          simp only [hreopened later]
          rfl
        · intro later
          have hname' : parseName (skipSpace (name ++ '>'.toUInt8 :: later)) =
              some (name, '>'.toUInt8 :: later) := by
            rw [hstart, List.cons_append, skipSpace_cons (nameStart_spec hnameStart).1,
              ← List.cons_append, ← hstart]
            exact halone _ (by
              intro c hc
              cases hc
              rfl)
          have hend : skipSpace ('>'.toUInt8 :: later) = '>'.toUInt8 :: later := skipSpace_cons rfl
          show parseClosing (name ++ '>'.toUInt8 :: later) = _
          rw [parseClosing, hname']
          simp only [hend]
          rfl

/-! ### Documents -/

theorem isPrefixOf_append {pattern front later : Bytes} (h : pattern.length ≤ front.length) :
    pattern.isPrefixOf (front ++ later) = pattern.isPrefixOf front := by
  rw [Bool.eq_iff_iff, List.isPrefixOf_iff_prefix, List.isPrefixOf_iff_prefix]
  constructor
  · intro hprefix
    exact List.prefix_of_prefix_length_le hprefix (List.prefix_append front later) h
  · intro hprefix
    exact hprefix.trans (List.prefix_append front later)

theorem behind_takes {pattern input rest : Bytes} (hpattern : pattern ≠ [])
    (h : behind pattern input = some rest) :
    ∃ front, pattern.length ≤ front.length ∧ input = front ++ rest ∧
      ∀ later, behind pattern (front ++ later) = some later := by
  induction input with
  | nil =>
    rw [behind, if_neg hpattern] at h
    cases h
  | cons c input ih =>
    rw [behind] at h
    split at h
    · next hprefix =>
      obtain ⟨rest', hinput⟩ := List.isPrefixOf_iff_prefix.mp hprefix
      rw [← hinput, List.drop_left, Option.some.injEq] at h
      subst h
      refine ⟨pattern, Nat.le_refl _, hinput.symm, ?_⟩
      intro later
      obtain ⟨first, others, rfl⟩ := List.exists_cons_of_ne_nil hpattern
      have hhead : (first :: others).isPrefixOf (first :: (others ++ later)) = true :=
        List.isPrefixOf_iff_prefix.mpr (List.prefix_append (first :: others) later)
      rw [List.cons_append, behind, if_pos hhead, ← List.cons_append, List.drop_left]
    · next hnot =>
      obtain ⟨front, hlength, hinput, htakes⟩ := ih h
      refine ⟨c :: front, Nat.le_succ_of_le hlength, by rw [hinput, List.cons_append], ?_⟩
      intro later
      have hlonger : pattern.length ≤ (c :: front).length := Nat.le_succ_of_le hlength
      rw [hinput, ← List.cons_append, isPrefixOf_append hlonger] at hnot
      rw [List.cons_append, behind, ← List.cons_append, isPrefixOf_append hlonger, if_neg hnot]
      exact htakes later

/-- What stands at an opening angle bracket: a tag, or nothing that counts. -/
def markup (found : Bytes) : Except String (Option Tag × Bytes) :=
  if (ascii "<!--").isPrefixOf found then
    match behind (ascii "-->") (found.drop 4) with
    | none => .error "unterminated SCL comment"
    | some rest => .ok (none, rest)
  else if (ascii "<?").isPrefixOf found then
    match behind (ascii "?>") (found.drop 2) with
    | none => .error "unterminated SCL declaration"
    | some rest => .ok (none, rest)
  else (parseTag found).map fun (tag, rest) => (some tag, rest)

theorem markup_tag {found rest : Bytes} {tag : Tag} (h : parseTag found = .ok (tag, rest)) :
    markup found = .ok (some tag, rest) := by
  obtain ⟨c, tail, ⟨hbang, hquestion⟩, hfound, -⟩ := parseTag_takes h
  have hcomment : (ascii "<!--").isPrefixOf found = false := by
    rw [hfound]
    show ('<'.toUInt8 == '<'.toUInt8 && ('!'.toUInt8 == c && _)) = false
    rw [beq_false_of_ne hbang.symm, Bool.false_and, Bool.and_false]
  have hdeclaration : (ascii "<?").isPrefixOf found = false := by
    rw [hfound]
    show ('<'.toUInt8 == '<'.toUInt8 && ('?'.toUInt8 == c && _)) = false
    rw [beq_false_of_ne hquestion.symm, Bool.false_and, Bool.and_false]
  rw [markup, hcomment, hdeclaration, if_neg Bool.false_ne_true, if_neg Bool.false_ne_true, h]
  rfl

theorem markup_skips (open' : Bytes) {close found rest : Bytes} (hclose : close ≠ [])
    (hopen : open'.isPrefixOf found = true) (h : behind close (found.drop open'.length) = some rest) :
    ∃ front, open'.length ≤ front.length ∧ found = front ++ rest ∧
      ∀ later, behind close ((front ++ later).drop open'.length) = some later := by
  obtain ⟨inside, rfl⟩ := List.isPrefixOf_iff_prefix.mp hopen
  rw [List.drop_left] at h
  obtain ⟨front, -, rfl, htakes⟩ := behind_takes hclose h
  refine ⟨open' ++ front, by simp, by rw [List.append_assoc], ?_⟩
  intro later
  rw [List.append_assoc, List.drop_left]
  exact htakes later

theorem declaration_not_comment {found : Bytes} (h : (ascii "<?").isPrefixOf found = true) :
    (ascii "<!--").isPrefixOf found = false := by
  obtain ⟨inside, rfl⟩ := List.isPrefixOf_iff_prefix.mp h
  rfl

/-- Comments, declarations and tags are read without what follows them. -/
theorem markup_takes {found rest : Bytes} {tag : Option Tag} (h : markup found = .ok (tag, rest)) :
    ∃ front, found = front ++ rest ∧ Takes markup front tag := by
  rw [markup] at h
  split at h
  · next hcomment =>
    split at h
    · cases h
    · next rest' hbehind =>
      cases h
      obtain ⟨front, hlength, hfound, htakes⟩ :=
        markup_skips (ascii "<!--") (by decide) hcomment hbehind
      refine ⟨front, hfound, ?_⟩
      intro later
      have hagain := htakes later
      rw [hfound, isPrefixOf_append hlength] at hcomment
      rw [markup, isPrefixOf_append hlength, if_pos hcomment]
      simp only [show (front ++ later).drop 4 = (front ++ later).drop (ascii "<!--").length from rfl,
        hagain]
  · next hcomment =>
    split at h
    · next hdeclaration =>
      split at h
      · cases h
      · next rest' hbehind =>
        cases h
        obtain ⟨front, hlength, hfound, htakes⟩ :=
          markup_skips (ascii "<?") (by decide) hdeclaration hbehind
        refine ⟨front, hfound, ?_⟩
        intro later
        have hagain := htakes later
        rw [hfound, isPrefixOf_append hlength] at hdeclaration
        rw [markup, isPrefixOf_append hlength, declaration_not_comment
          (by rw [isPrefixOf_append hlength, hdeclaration]), if_neg Bool.false_ne_true,
          if_pos hdeclaration]
        simp only [show (front ++ later).drop 2 = (front ++ later).drop (ascii "<?").length from rfl,
          hagain]
    · cases htag : parseTag found with
      | error error =>
        rw [htag] at h
        cases h
      | ok parsed =>
        obtain ⟨tag', rest'⟩ := parsed
        rw [htag] at h
        cases h
        obtain ⟨c, tail, -, hfound, htakes⟩ := parseTag_takes htag
        exact ⟨'<'.toUInt8 :: c :: tail, hfound, fun later => markup_tag (htakes later)⟩

theorem markup_length {found rest : Bytes} {tag : Option Tag} (hfound : found ≠ [])
    (h : markup found = .ok (tag, rest)) : rest.length < found.length := by
  have hpos := List.length_pos_iff.mpr hfound
  rw [markup] at h
  split at h
  · split at h
    · cases h
    · next rest' hbehind =>
      cases h
      have hrest := behind_length hbehind
      rw [List.length_drop] at hrest
      omega
  · split at h
    · split at h
      · cases h
      · next rest' hbehind =>
        cases h
        have hrest := behind_length hbehind
        rw [List.length_drop] at hrest
        omega
    · cases htag : parseTag found with
      | error error =>
        rw [htag] at h
        cases h
      | ok parsed =>
        obtain ⟨tag', rest'⟩ := parsed
        rw [htag] at h
        cases h
        exact parseTag_length htag

/-- One turn of the loop: a text, and the tag behind it. -/
structure Turn where
  text : Bytes
  tag : Option Tag

/-- The turns a document takes, and the text that is left behind the last one. -/
def turns (contents : Bytes) : Except String (List Turn × Bytes) :=
  let found := contents.dropWhile (· ≠ '<'.toUInt8)
  let text := contents.takeWhile (· ≠ '<'.toUInt8)
  if _hfound : found = [] then .ok ([], text)
  else
    match _hmarkup : markup found with
    | .error error => .error error
    | .ok (tag, rest) => (turns rest).map fun cut => (⟨text, tag⟩ :: cut.1, cut.2)
termination_by contents.length
decreasing_by
  have hfound : found.length ≤ contents.length := (List.dropWhile_sublist _).length_le
  have hrest := markup_length _hfound _hmarkup
  omega

/-- The equation of `turns`, without its proofs. -/
theorem turns_markup {text found rest : Bytes} {tag : Option Tag}
    (htext : ∀ c ∈ text, (decide (c ≠ '<'.toUInt8)) = true)
    (hfound : found.head? = some '<'.toUInt8) (h : markup found = .ok (tag, rest)) :
    turns (text ++ found) = (turns rest).map fun cut => (⟨text, tag⟩ :: cut.1, cut.2) := by
  have hstop : ∀ c ∈ found.head?, (decide (c ≠ '<'.toUInt8)) = false := by
    intro c hc
    rw [hfound] at hc
    cases hc
    rfl
  have hdrop := dropWhile_front htext hstop
  have htake := takeWhile_front htext hstop
  have hne : found ≠ [] := by
    rintro rfl
    cases hfound
  rw [turns, dif_neg (by rw [hdrop]; exact hne)]
  split
  · next error herror =>
    rw [hdrop, h] at herror
    cases herror
  · next tag' rest' hok =>
    rw [hdrop, h] at hok
    cases hok
    rw [htake]

/-- Markup that is complete is cut the same way whatever tag follows it. -/
theorem turns_append {front later rest last : Bytes} {ts : List Turn} {tag : Option Tag}
    (hfront : turns front = .ok (ts, last)) (hopen : later.head? = some '<'.toUInt8)
    (h : markup later = .ok (tag, rest)) :
    turns (front ++ later) =
      (turns rest).map fun cut => (ts ++ ⟨last, tag⟩ :: cut.1, cut.2) := by
  fun_induction turns front generalizing ts with
  | case1 front found text =>
    rename_i hnone
    have hall : front.takeWhile (· ≠ '<'.toUInt8) = front := by
      have hsplit := List.takeWhile_append_dropWhile (p := fun c => decide (c ≠ '<'.toUInt8))
        (l := front)
      have hfound : front.dropWhile (fun c => decide (c ≠ '<'.toUInt8)) = [] := hnone
      rw [hfound, List.append_nil] at hsplit
      exact hsplit
    obtain ⟨hts, hlast⟩ : [] = ts ∧ front = last := by
      rw [Except.ok.injEq, Prod.mk.injEq] at hfront
      exact ⟨hfront.1, hall.symm.trans hfront.2⟩
    subst hts hlast
    refine turns_markup ?_ hopen h
    rw [← hall]
    exact mem_takeWhile _ front
  | case2 => cases hfront
  | case3 front found text hsome tag' rest' hmarkup =>
    rename_i ih
    cases hcut : turns rest' with
    | error error =>
      rw [hcut] at hfront
      cases hfront
    | ok cut =>
      obtain ⟨ts', last'⟩ := cut
      rw [hcut] at hfront
      cases hfront
      obtain ⟨inside, hfound, htakes⟩ := markup_takes hmarkup
      have hhead : found.head? = some '<'.toUInt8 := by
        obtain ⟨c, others, hc⟩ := List.exists_cons_of_ne_nil hsome
        have hstop := head_dropWhile (fun c => decide (c ≠ '<'.toUInt8)) front c (by
          have hdrop : front.dropWhile (fun c => decide (c ≠ '<'.toUInt8)) = c :: others := hc
          rw [hdrop]
          rfl)
        rw [hc, List.head?_cons, Option.some.injEq]
        simpa using hstop
      have hinside : inside ≠ [] := by
        rintro rfl
        have hlength := markup_length hsome hmarkup
        rw [hfound, List.nil_append] at hlength
        exact Nat.lt_irrefl _ hlength
      have hhead' : (inside ++ (rest' ++ later)).head? = some '<'.toUInt8 := by
        obtain ⟨c, others, rfl⟩ := List.exists_cons_of_ne_nil hinside
        rw [hfound] at hhead
        exact hhead
      have hsplit : front ++ later =
          front.takeWhile (· ≠ '<'.toUInt8) ++ (inside ++ (rest' ++ later)) := by
        rw [← List.append_assoc inside, ← hfound, ← List.append_assoc]
        exact congrArg (· ++ later) List.takeWhile_append_dropWhile.symm
      rw [hsplit, turns_markup (mem_takeWhile _ front) hhead' (htakes _), ih hcut]
      cases turns rest <;> rfl

/-! ### The loop -/

namespace SclParser

/-- One turn: the text belongs to the element it stands in, the tag is a step. -/
def meet (p : SclParser) (turn : Turn) : Except String SclParser :=
  turn.tag.elim (.ok (p.appendText turn.text)) (p.appendText turn.text).step

def run (p : SclParser) : List Turn → Except String SclParser
  | [] => .ok p
  | turn :: later => (p.meet turn).bind fun p => p.run later

theorem run_append (p : SclParser) (ts us : List Turn) :
    p.run (ts ++ us) = (p.run ts).bind fun p => p.run us := by
  induction ts generalizing p with
  | nil => rfl
  | cons turn ts ih =>
    rw [List.cons_append, run, run]
    cases p.meet turn with
    | error error => rfl
    | ok p => exact ih p

theorem read_markup (p : SclParser) {contents : Bytes}
    (h : contents.dropWhile (fun c => decide (c ≠ '<'.toUInt8)) ≠ []) :
    p.read contents =
      (markup (contents.dropWhile fun c => decide (c ≠ '<'.toUInt8))).bind fun cut =>
        (p.meet ⟨contents.takeWhile fun c => decide (c ≠ '<'.toUInt8), cut.1⟩).bind fun p =>
          p.read cut.2 := by
  conv_lhs => rw [read]
  rw [dif_neg h, markup]
  split
  · split <;> next hbehind => rw [hbehind]; rfl
  · split
    · split <;> next hbehind => rw [hbehind]; rfl
    · split
      · next error herror =>
        rw [herror]
        rfl
      · next tag rest htag =>
        rw [htag]
        show _ = (p.meet ⟨_, some tag⟩).bind fun p => p.read rest
        rw [meet]
        split
        · next error herror =>
          rw [Option.elim_some, herror]
          rfl
        · next p' hok =>
          rw [Option.elim_some, hok]
          rfl

/-- The loop of `parse_scl_model` goes through the turns of its document. -/
theorem read_ok_iff {p q : SclParser} {contents : Bytes} :
    p.read contents = .ok q ↔
      ∃ ts last p', turns contents = .ok (ts, last) ∧ p.run ts = .ok p' ∧ p'.appendText last = q := by
  fun_induction turns contents generalizing p with
  | case1 contents found text =>
    rename_i hnone
    rw [read, dif_pos hnone]
    constructor
    · intro h
      cases h
      exact ⟨[], text, p, rfl, rfl, rfl⟩
    · rintro ⟨ts, last, p', hcut, hrun, rfl⟩
      cases hcut
      cases hrun
      rfl
  | case2 contents found hsome error =>
    rename_i hmarkup
    rw [read_markup p hsome, hmarkup]
    constructor
    · intro h
      cases h
    · rintro ⟨ts, last, p', hcut, -⟩
      cases hcut
  | case3 contents found text hsome tag rest hmarkup =>
    rename_i ih
    rw [read_markup p hsome, hmarkup]
    constructor
    · intro h
      rw [Except.bind] at h
      cases hmeet : p.meet ⟨text, tag⟩ with
      | error error =>
        rw [hmeet] at h
        cases h
      | ok p₁ =>
        rw [hmeet] at h
        obtain ⟨ts, last, p', hcut, hrun, hlast⟩ := ih.mp h
        refine ⟨⟨text, tag⟩ :: ts, last, p', ?_, ?_, hlast⟩
        · rw [hcut]
          rfl
        · rw [run, hmeet]
          exact hrun
    · rintro ⟨ts, last, p', hcut, hrun, hlast⟩
      cases hlater : turns rest with
      | error error =>
        rw [hlater] at hcut
        cases hcut
      | ok cut =>
        obtain ⟨ts', last'⟩ := cut
        rw [hlater] at hcut
        cases hcut
        rw [run] at hrun
        rw [Except.bind]
        cases hmeet : p.meet ⟨text, tag⟩ with
        | error error =>
          rw [hmeet] at hrun
          cases hrun
        | ok p₁ =>
          rw [hmeet] at hrun
          exact ih.mpr ⟨ts', last', p', hlater, hrun, hlast⟩

end SclParser

theorem parseSclModel_ok_iff {contents : Bytes} {definition : SclModelDefinition} :
    parseSclModel contents = .ok definition ↔
      unsupported kMaxSclBytes contents = false ∧
        ∃ ts last p, turns contents = .ok (ts, last) ∧ SclParser.run {} ts = .ok p ∧
          (p.appendText last).finish = .ok definition := by
  rw [parseSclModel]
  constructor
  · intro h
    split at h
    · cases h
    · next hsupported =>
      cases hread : SclParser.read {} contents with
      | error error =>
        rw [hread] at h
        cases h
      | ok q =>
        rw [hread] at h
        obtain ⟨ts, last, p, hcut, hrun, rfl⟩ := SclParser.read_ok_iff.mp hread
        exact ⟨by simpa using hsupported, ts, last, p, hcut, hrun, h⟩
  · rintro ⟨hsupported, ts, last, p, hcut, hrun, hfinish⟩
    have hread : SclParser.read {} contents = .ok (p.appendText last) :=
      SclParser.read_ok_iff.mpr ⟨ts, last, p, hcut, hrun, rfl⟩
    rw [hsupported, if_neg Bool.false_ne_true, hread]
    exact hfinish

end Uhf.Iec61850
