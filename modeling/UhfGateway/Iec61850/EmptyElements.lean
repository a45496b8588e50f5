/-
Empty elements of an SCL document (`iec61850/scl_model`).

An element without contents can be closed by its own tag or by a tag behind it.  The reader does
what the end of an element asks for only at a closing tag, so the two are alike for every element
but those whose end matters: `DataSet`, `ReportControl`, `DOI` and `DAI` stay current when they
close themselves, and a `Val` that closes itself describes nothing.

* `turns_selfClosed`, `turns_opened` — the two ways to write an element, cut into turns;
* `unsupported_opened` — what no document may contain is in both of them or in neither;
* `empty_elements_alike` — the elements that can be written either way.
-/
import UhfGateway.Iec61850.Markup

namespace Uhf.Iec61850

/-- A document with an element that closes itself. -/
def selfClosed (before inner after : Bytes) : Bytes :=
  before ++ ('<'.toUInt8 :: inner ++ '/'.toUInt8 :: '>'.toUInt8 :: after)

/-- The same document with a closing tag behind the element. -/
def opened (before inner name after : Bytes) : Bytes :=
  before ++ ('<'.toUInt8 :: inner ++ '>'.toUInt8 ::
    ('<'.toUInt8 :: '/'.toUInt8 :: name ++ '>'.toUInt8 :: after))

/-- How many elements are open behind a turn. -/
def depthAfter (depth : ℕ) (turn : Turn) : ℕ :=
  match turn.tag with
  | none => depth
  | some (.closing _) => depth - 1
  | some (.opening _ selfClosing) => if selfClosing then depth else depth + 1

def depth (ts : List Turn) : ℕ := ts.foldl depthAfter 0

/-- The document has this element behind `before`, and there is room to open it. -/
structure SelfClosing (before inner after : Bytes) (element : Element) : Prop where
  reached : ∃ ts last, turns before = .ok (ts, last) ∧ depth ts < 64
  tag : parseTag ('<'.toUInt8 :: inner ++ '/'.toUInt8 :: '>'.toUInt8 :: after) =
    .ok (.opening element true, after)

/-- The elements whose end matters. -/
def endedKinds : List Bytes :=
  [ascii "DataSet", ascii "ReportControl", ascii "DOI", ascii "DAI", ascii "Val"]

section Documents

variable {before inner after last : Bytes} {element : Element} {ts : List Turn}

theorem turns_selfClosed (hbefore : turns before = .ok (ts, last))
    (htag : parseTag ('<'.toUInt8 :: inner ++ '/'.toUInt8 :: '>'.toUInt8 :: after) =
      .ok (.opening element true, after)) :
    turns (selfClosed before inner after) = (turns after).map fun cut =>
      (ts ++ ⟨last, some (.opening element true)⟩ :: cut.1, cut.2) :=
  turns_append hbefore rfl (markup_tag htag)

theorem turns_opened (hbefore : turns before = .ok (ts, last))
    (htag : parseTag ('<'.toUInt8 :: inner ++ '/'.toUInt8 :: '>'.toUInt8 :: after) =
      .ok (.opening element true, after)) :
    turns (opened before inner element.name after) = (turns after).map fun cut =>
      (ts ++ ⟨last, some (.opening element false)⟩ :: ⟨[], some (.closing element.name)⟩ :: cut.1,
        cut.2) := by
  obtain ⟨-, -, -, hopening, hclosing⟩ := parseTag_reopened htag
  have hempty : ∀ c ∈ ([] : Bytes), decide (c ≠ '<'.toUInt8) = true := by simp
  have hclose : turns ('<'.toUInt8 :: '/'.toUInt8 :: element.name ++ '>'.toUInt8 :: after) =
      (turns after).map fun cut => (⟨[], some (.closing element.name)⟩ :: cut.1, cut.2) :=
    turns_markup hempty rfl (markup_tag (hclosing after))
  rw [opened, turns_append hbefore rfl (markup_tag (hopening _)), hclose]
  cases turns after <;> rfl

/-! ### What no document may contain -/

theorem isPrefixOf_open {pattern front later : Bytes} (hpattern : '<'.toUInt8 ∉ pattern)
    (h : pattern.isPrefixOf (front ++ '<'.toUInt8 :: later) = true) :
    pattern.isPrefixOf front = true := by
  rw [List.isPrefixOf_iff_prefix] at h ⊢
  by_cases hlength : pattern.length ≤ front.length
  · exact List.prefix_of_prefix_length_le h (List.prefix_append _ _) hlength
  · -- a longer pattern takes in the opening angle bracket
    have hlonger := List.prefix_of_prefix_length_le
      (List.prefix_append (front ++ ['<'.toUInt8]) later) (by simpa using h)
      (by simp only [List.length_append, List.length_singleton]; omega)
    exact absurd (hlonger.subset (by simp)) hpattern

theorem contains_open {pattern front later : Bytes} (hpattern : '<'.toUInt8 ∉ pattern) :
    contains ('<'.toUInt8 :: pattern) (front ++ '<'.toUInt8 :: later) =
      (contains ('<'.toUInt8 :: pattern) front ||
        contains ('<'.toUInt8 :: pattern) ('<'.toUInt8 :: later)) := by
  induction front with
  | nil => rfl
  | cons c front ih =>
    rw [contains, contains, List.cons_append, behind, behind]
    by_cases hprefix : ('<'.toUInt8 :: pattern).isPrefixOf (c :: front) = true
    · have hlonger : ('<'.toUInt8 :: pattern).isPrefixOf (c :: (front ++ '<'.toUInt8 :: later)) =
          true := by
        rw [List.isPrefixOf_iff_prefix] at hprefix ⊢
        exact hprefix.trans (List.prefix_append (c :: front) _)
      rw [if_pos hprefix, if_pos hlonger]
      rfl
    · have hlonger : ¬('<'.toUInt8 :: pattern).isPrefixOf (c :: (front ++ '<'.toUInt8 :: later)) =
          true := by
        intro hlonger
        simp only [List.isPrefixOf, Bool.and_eq_true] at hlonger hprefix
        exact hprefix ⟨hlonger.1, isPrefixOf_open hpattern hlonger.2⟩
      rw [if_neg hprefix, if_neg hlonger]
      exact ih

theorem contains_skip {pattern front later : Bytes} (hfront : '<'.toUInt8 ∉ front) :
    contains ('<'.toUInt8 :: pattern) (front ++ later) =
      contains ('<'.toUInt8 :: pattern) later := by
  induction front with
  | nil => rfl
  | cons c front ih =>
    rw [List.mem_cons, not_or] at hfront
    rw [contains, List.cons_append, behind, if_neg]
    · exact ih hfront.2
    · intro hprefix
      simp only [List.isPrefixOf, Bool.and_eq_true, beq_iff_eq] at hprefix
      exact hfront.1 hprefix.1

/-- A tag contains none of the patterns that begin with `<!`. -/
theorem contains_tag (pattern front later : Bytes) (hfront : '<'.toUInt8 ∉ front)
    (hne : front ≠ []) (hbang : front.head? ≠ some '!'.toUInt8) :
    contains ('<'.toUInt8 :: '!'.toUInt8 :: pattern) ('<'.toUInt8 :: front ++ later) =
      contains ('<'.toUInt8 :: '!'.toUInt8 :: pattern) later := by
  obtain ⟨c, tail, rfl⟩ := List.exists_cons_of_ne_nil hne
  rw [List.head?_cons, ne_eq, Option.some.injEq] at hbang
  rw [contains, List.cons_append, behind, if_neg]
  · exact contains_skip hfront
  · intro hprefix
    simp only [List.isPrefixOf, List.cons_append, Bool.and_eq_true, beq_iff_eq] at hprefix
    exact hbang hprefix.2.1.symm

theorem contains_opened {pattern : Bytes} (hpattern : '<'.toUInt8 ∉ pattern)
    (hinner : '<'.toUInt8 ∉ inner ∧ inner.head? ≠ some '!'.toUInt8 ∧ inner ≠ [])
    {name : Bytes} (hname : '<'.toUInt8 ∉ name) :
    contains ('<'.toUInt8 :: '!'.toUInt8 :: pattern) (opened before inner name after) =
      contains ('<'.toUInt8 :: '!'.toUInt8 :: pattern) (selfClosed before inner after) := by
  have hrest : '<'.toUInt8 ∉ '!'.toUInt8 :: pattern := by
    rw [List.mem_cons, not_or]
    exact ⟨by decide, hpattern⟩
  obtain ⟨hplain, hbang, hne⟩ := hinner
  obtain ⟨c, tail, rfl⟩ := List.exists_cons_of_ne_nil hne
  have hend : '<'.toUInt8 ∉ ['>'.toUInt8] := by decide
  have hslash : '<'.toUInt8 ∉ ['/'.toUInt8] := by decide
  have hopen := contains_tag pattern (c :: tail ++ ['>'.toUInt8])
    ('<'.toUInt8 :: '/'.toUInt8 :: name ++ '>'.toUInt8 :: after)
    (List.not_mem_append hplain hend) (by simp) hbang
  have hclose := contains_tag pattern (['/'.toUInt8] ++ (name ++ ['>'.toUInt8])) after
    (List.not_mem_append hslash (List.not_mem_append hname hend)) (by simp)
    (by
      rw [List.singleton_append, List.head?_cons, ne_eq, Option.some.injEq]
      decide)
  have hself := contains_tag pattern (c :: tail ++ (['/'.toUInt8] ++ ['>'.toUInt8])) after
    (List.not_mem_append hplain (List.not_mem_append hslash hend)) (by simp) hbang
  simp only [List.cons_append, List.append_assoc, List.nil_append] at hopen hclose hself
  rw [opened, selfClosed]
  simp only [List.cons_append]
  rw [contains_open hrest, contains_open hrest, hopen, hclose, hself]

theorem opened_length (name : Bytes) :
    (selfClosed before inner after).length ≤ (opened before inner name after).length := by
  simp only [selfClosed, opened, List.length_append, List.length_cons]
  omega

theorem opened_zero {name : Bytes} (hname : (0 : UInt8) ∉ name) :
    (opened before inner name after).contains 0 = (selfClosed before inner after).contains 0 := by
  rw [Bool.eq_iff_iff, List.contains_iff_mem, List.contains_iff_mem]
  have h0 : (0 : UInt8) ≠ '<'.toUInt8 ∧ (0 : UInt8) ≠ '/'.toUInt8 ∧ (0 : UInt8) ≠ '>'.toUInt8 := by
    decide
  simp only [opened, selfClosed, List.mem_append, List.mem_cons, h0.1, h0.2.1, h0.2.2, hname,
    false_or]

theorem unsupported_opened {maximum : ℕ}
    (htag : parseTag ('<'.toUInt8 :: inner ++ '/'.toUInt8 :: '>'.toUInt8 :: after) =
      .ok (.opening element true, after))
    (hlength : (opened before inner element.name after).length ≤ maximum) :
    unsupported maximum (opened before inner element.name after) =
      unsupported maximum (selfClosed before inner after) := by
  obtain ⟨-, hname, hinner, -, -⟩ := parseTag_reopened htag
  have hopen : '<'.toUInt8 ∉ element.name := open_not_in rfl hname
  have hzero : (0 : UInt8) ∉ element.name := by
    intro hmem
    exact absurd (hname 0 hmem) (by decide)
  have hlength' := Nat.le_trans (opened_length element.name) hlength
  have hempty : (opened before inner element.name after).isEmpty = false := by
    rw [opened, List.isEmpty_eq_false_iff]
    simp
  have hempty' : (selfClosed before inner after).isEmpty = false := by
    rw [selfClosed, List.isEmpty_eq_false_iff]
    simp
  have hpattern (pattern : Bytes) (h : '<'.toUInt8 ∉ pattern) :
      contains ('<'.toUInt8 :: '!'.toUInt8 :: pattern) (opened before inner element.name after) =
        contains ('<'.toUInt8 :: '!'.toUInt8 :: pattern) (selfClosed before inner after) :=
    contains_opened h hinner hopen
  rw [unsupported, unsupported, hempty, hempty', opened_zero hzero,
    decide_eq_false (Nat.not_lt.mpr hlength), decide_eq_false (Nat.not_lt.mpr hlength')]
  have hDoctype := hpattern (ascii "DOCTYPE") (by decide)
  have hdoctype := hpattern (ascii "doctype") (by decide)
  have hEntity := hpattern (ascii "ENTITY") (by decide)
  have hentity := hpattern (ascii "entity") (by decide)
  have hCdata := hpattern (ascii "[CDATA[") (by decide)
  exact congrArg₂ or (congrArg₂ or (congrArg₂ or (congrArg₂ or (congrArg _ hDoctype) hdoctype)
    hEntity) hentity) hCdata

end Documents

/-! ### What an element does to the reader -/

namespace SclParser

/-- The opening of an element, before it is on the stack. -/
def entered (p : SclParser) (element : Element) : Except String SclParser :=
  (p.admitRoot element).bind fun p => p.enter element

/-- What the end of an element without contents does. -/
def ended (p : SclParser) (name : Bytes) : SclParser := (p.describeValue name []).leave name

/-- What the reader knows of the open elements and of the data sets. -/
def outline (p : SclParser) : List Element × List SclDataSet × Option ℕ :=
  (p.stack, p.definition.dataSets, p.currentDataSet)

/-- A reader that goes on has the same open elements and data sets. -/
def Keeps (p : SclParser) (entered : Except String SclParser) : Prop :=
  ∀ q, entered = .ok q → q.outline = p.outline

section Kept

variable {p q : SclParser} {element : Element}

theorem keeps_ok (h : q.outline = p.outline) : p.Keeps (.ok q) := by
  intro q' hq
  cases hq
  exact h

theorem keeps_error {error : String} : p.Keeps (.error error) := by
  intro q hq
  cases hq

theorem keeps_ite {c : Prop} [Decidable c] {first second : Except String SclParser}
    (hfirst : p.Keeps first) (hsecond : p.Keeps second) :
    p.Keeps (if c then first else second) := by
  by_cases hc : c
  · rwa [if_pos hc]
  · rwa [if_neg hc]

theorem keeps_map {α : Type} {limit : Except String α} {change : α → SclParser}
    (h : ∀ value, (change value).outline = p.outline) : p.Keeps (limit.map change) := by
  cases limit with
  | error error => exact keeps_error
  | ok value => exact keeps_ok (h value)

theorem dataSets_ite {c : Prop} [Decidable c] {first second definition : SclModelDefinition}
    (hfirst : first.dataSets = definition.dataSets)
    (hsecond : second.dataSets = definition.dataSets) :
    (if c then first else second).dataSets = definition.dataSets := by
  by_cases hc : c
  · rwa [if_pos hc]
  · rwa [if_neg hc]

theorem describe_dataSets (definition : SclModelDefinition) (doName value : Bytes) :
    (definition.describe doName value).dataSets = definition.dataSets := by
  rw [SclModelDefinition.describe]
  iterate 10 refine dataSets_ite rfl ?_
  rfl

theorem admitRoot_keeps (p : SclParser) (element : Element) : p.Keeps (p.admitRoot element) :=
  keeps_ite (keeps_ok rfl) (keeps_ite keeps_error (keeps_ok rfl))

theorem enterIed_keeps (p : SclParser) (element : Element) : p.Keeps (p.enterIed element) :=
  keeps_ite keeps_error (keeps_ite keeps_error (keeps_ok rfl))

theorem enterLDevice_keeps (p : SclParser) (element : Element) : p.Keeps (p.enterLDevice element) :=
  keeps_ite keeps_error (keeps_ite (keeps_ok rfl) (keeps_ok rfl))

theorem enterReportControl_keeps (p : SclParser) (element : Element) :
    p.Keeps (p.enterReportControl element) := by
  rw [enterReportControl]
  split
  · refine keeps_ite keeps_error ?_
    cases uintOf element "bufTime" 0 "invalid report buffer time" with
    | error error => exact keeps_error
    | ok bufferTimeMs =>
      cases uintOf element "intgPd" 60000 "invalid report integrity period" with
      | error error => exact keeps_error
      | ok integrityPeriodMs => exact keeps_ok rfl
  · exact keeps_error

theorem enterDo_keeps (p : SclParser) (element : Element) : p.Keeps (.ok (p.enterDo element)) := by
  rw [enterDo]
  split
  · exact keeps_ok (by rw [outline, outline, describe_dataSets])
  · exact keeps_ok rfl

theorem enterDoi_keeps (p : SclParser) (element : Element) :
    p.Keeps (.ok (p.enterDoi element)) := by
  rw [enterDoi]
  split <;> exact keeps_ok rfl

theorem enterDai_keeps (p : SclParser) (element : Element) :
    p.Keeps (.ok (p.enterDai element)) := by
  rw [enterDai]
  split <;> exact keeps_ok rfl

/-- Only a data set and its references change what is known of the data sets. -/
theorem enter_keeps (p : SclParser) {element : Element}
    (hdataSet : localName element.name ≠ ascii "DataSet")
    (hfcda : localName element.name ≠ ascii "FCDA") : p.Keeps (p.enter element) := by
  rw [enter]
  refine keeps_ite (p.enterIed_keeps element) ?_
  refine keeps_ite (p.enterLDevice_keeps element) ?_
  refine keeps_ite (keeps_ok rfl) ?_
  rw [if_neg (fun h => hdataSet h.1), if_neg (fun h => hfcda h.1)]
  refine keeps_ite (p.enterReportControl_keeps element) ?_
  refine keeps_ite ?_ ?_
  · cases p.currentReport with
    | none => exact keeps_ok rfl
    | some index => exact keeps_map fun limit => rfl
  refine keeps_ite (keeps_map fun limit => rfl) ?_
  refine keeps_ite ?_ ?_
  · cases p.currentReport <;> exact keeps_ok rfl
  refine keeps_ite (p.enterDo_keeps element) ?_
  refine keeps_ite (p.enterDoi_keeps element) ?_
  exact keeps_ite (p.enterDai_keeps element) (keeps_ok rfl)

/-- Outside the IED, a data set and its references are elements like any other. -/
theorem enter_outside (p : SclParser) {element : Element}
    (hname : localName element.name = ascii "DataSet" ∨ localName element.name = ascii "FCDA")
    (houtside : ¬p.inIed = true) : p.enter element = .ok p := by
  have hother (name : Bytes) (hdataSet : ascii "DataSet" ≠ name) (hfcda : ascii "FCDA" ≠ name) :
      ¬localName element.name = name := by
    rcases hname with hname | hname
    · rwa [hname]
    · rwa [hname]
  rw [enter, if_neg (hother _ (by decide) (by decide)), if_neg (fun h => houtside h.2),
    if_neg (fun h => houtside h.2), if_neg (fun h => houtside h.2), if_neg (fun h => houtside h.2),
    if_neg (fun h => houtside h.2), if_neg (hother _ (by decide) (by decide)),
    if_neg (fun h => houtside h.2), if_neg (hother _ (by decide) (by decide)),
    if_neg (hother _ (by decide) (by decide)), if_neg (fun h => houtside h.2),
    if_neg (fun h => houtside h.2.2)]

theorem enter_dataSet (p : SclParser) {element : Element}
    (hname : localName element.name = ascii "DataSet") (hinside : p.inIed = true) :
    p.enter element = p.enterDataSet element := by
  have hother (name : Bytes) (h : ascii "DataSet" ≠ name) : ¬localName element.name = name := by
    rwa [hname]
  rw [enter, if_neg (hother _ (by decide)), if_neg (fun h => hother _ (by decide) h.1),
    if_neg (fun h => hother _ (by decide) h.1), if_pos ⟨hname, hinside⟩]

theorem enter_fcda (p : SclParser) {element : Element}
    (hname : localName element.name = ascii "FCDA") (hinside : p.inIed = true) :
    p.enter element = .ok (p.currentDataSet.elim p fun index => p.enterFcda index element) := by
  have hother (name : Bytes) (h : ascii "FCDA" ≠ name) : ¬localName element.name = name := by
    rwa [hname]
  rw [enter, if_neg (hother _ (by decide)), if_neg (fun h => hother _ (by decide) h.1),
    if_neg (fun h => hother _ (by decide) h.1), if_neg (fun h => hother _ (by decide) h.1),
    if_pos ⟨hname, hinside⟩]

theorem enterDataSet_stack (h : p.enterDataSet element = .ok q) : q.stack = p.stack := by
  rw [enterDataSet] at h
  split at h
  · cases h
  · split at h <;> cases h
    rfl

/-- Opening an element leaves the elements that are open as they are. -/
theorem enter_stack (h : p.enter element = .ok q) : q.stack = p.stack := by
  by_cases hinside : p.inIed = true
  · by_cases hdataSet : localName element.name = ascii "DataSet"
    · rw [p.enter_dataSet hdataSet hinside] at h
      exact enterDataSet_stack h
    · by_cases hfcda : localName element.name = ascii "FCDA"
      · rw [p.enter_fcda hfcda hinside] at h
        cases h
        cases p.currentDataSet <;> rfl
      · exact congrArg Prod.fst (p.enter_keeps hdataSet hfcda q h)
  · by_cases hname : localName element.name = ascii "DataSet" ∨ localName element.name = ascii "FCDA"
    · rw [p.enter_outside hname hinside] at h
      cases h
      rfl
    · rw [not_or] at hname
      exact congrArg Prod.fst (p.enter_keeps hname.1 hname.2 q h)

theorem admitRoot_stack (h : p.admitRoot element = .ok q) : q.stack = p.stack :=
  congrArg Prod.fst (p.admitRoot_keeps element q h)

end Kept

theorem entered_stack {p q : SclParser} {element : Element} (h : p.entered element = .ok q) :
    q.stack = p.stack := by
  rw [entered] at h
  cases hroot : p.admitRoot element with
  | error error =>
    rw [hroot] at h
    cases h
  | ok p₁ =>
    rw [hroot] at h
    rw [enter_stack h, admitRoot_stack hroot]

theorem appendText_depth (p : SclParser) (text : Bytes) :
    (p.appendText text).stack.length = p.stack.length := by
  rw [appendText]
  split
  · rfl
  · next element stack hstack => rw [hstack, List.length_cons, List.length_cons]

theorem describeValue_stack (p : SclParser) (name text : Bytes) :
    (p.describeValue name text).stack = p.stack := by
  rw [describeValue]
  split <;> rfl

theorem leave_stack (p : SclParser) (name : Bytes) : (p.leave name).stack = p.stack := by
  rw [leave]
  split
  · rfl
  split
  · rfl
  split
  · rfl
  split <;> rfl

theorem openElement_eq (p : SclParser) (element : Element) (selfClosing : Bool) :
    p.openElement element selfClosing = (p.entered element).bind fun p =>
      if selfClosing then .ok p
      else if 64 ≤ p.stack.length then .error "SCL nesting limit exceeded"
      else .ok { p with stack := element :: p.stack } := by
  rw [openElement, entered]
  cases p.admitRoot element <;> rfl

theorem openElement_true (p : SclParser) (element : Element) :
    p.openElement element true = p.entered element := by
  rw [openElement_eq]
  cases p.entered element <;> rfl

theorem openElement_false (p : SclParser) (element : Element) (hroom : p.stack.length < 64) :
    p.openElement element false =
      (p.entered element).map fun p => { p with stack := element :: p.stack } := by
  rw [openElement_eq]
  cases hentered : p.entered element with
  | error error => rfl
  | ok p₁ =>
    show (if 64 ≤ p₁.stack.length then _ else _) = _
    rw [if_neg (by rw [entered_stack hentered]; omega)]
    rfl

/-- An opening tag and its closing tag, with nothing between them. -/
theorem openElement_closed {p : SclParser} {element : Element} (hroom : p.stack.length < 64)
    (htext : element.text = []) :
    ((p.openElement element false).bind fun p =>
        (p.appendText []).closeElement element.name) =
      (p.entered element).map fun p => p.ended (localName element.name) := by
  rw [openElement_false p element hroom]
  cases p.entered element with
  | error error => rfl
  | ok p₁ =>
    show (appendText { p₁ with stack := element :: p₁.stack } []).closeElement element.name =
      .ok (p₁.ended (localName element.name))
    rw [appendText, closeElement]
    simp only [ne_eq, not_true_eq_false, if_false, htext, List.append_nil]
    rfl

theorem closeElement_depth {p q : SclParser} {name : Bytes} (h : p.closeElement name = .ok q) :
    q.stack.length = p.stack.length - 1 := by
  rw [closeElement] at h
  split at h
  · cases h
  · next completed stack hstack =>
    split at h
    · cases h
    · cases h
      rw [leave_stack, describeValue_stack, hstack, List.length_cons, Nat.add_sub_cancel]

theorem openElement_depth {p q : SclParser} {element : Element} {selfClosing : Bool}
    (h : p.openElement element selfClosing = .ok q) :
    q.stack.length = if selfClosing then p.stack.length else p.stack.length + 1 := by
  rw [openElement_eq] at h
  cases hentered : p.entered element with
  | error error =>
    rw [hentered] at h
    cases h
  | ok p₁ =>
    rw [hentered, Except.bind] at h
    have hstack := entered_stack hentered
    cases selfClosing with
    | true =>
      cases h
      rw [hstack]
      rfl
    | false =>
      rw [if_neg Bool.false_ne_true] at h
      split at h
      · cases h
      · cases h
        rw [if_neg Bool.false_ne_true, List.length_cons, hstack]

theorem meet_depth {p q : SclParser} {turn : Turn} (h : p.meet turn = .ok q) :
    q.stack.length = depthAfter p.stack.length turn := by
  obtain ⟨text, tag⟩ := turn
  cases tag with
  | none =>
    cases h
    exact p.appendText_depth text
  | some tag =>
    cases tag with
    | closing name => rw [closeElement_depth h, appendText_depth, depthAfter]
    | opening element selfClosing => rw [openElement_depth h, appendText_depth, depthAfter]

theorem run_depth {p q : SclParser} {ts : List Turn} (h : p.run ts = .ok q) :
    q.stack.length = ts.foldl depthAfter p.stack.length := by
  induction ts generalizing p with
  | nil =>
    cases h
    rfl
  | cons turn ts ih =>
    rw [run] at h
    cases hmeet : p.meet turn with
    | error error =>
      rw [hmeet] at h
      cases h
    | ok p₁ =>
      rw [hmeet] at h
      rw [ih h, List.foldl_cons, meet_depth hmeet]

theorem ended_eq (p : SclParser) {name : Bytes} (h : name ∉ endedKinds) : p.ended name = p := by
  simp only [endedKinds, List.mem_cons, List.not_mem_nil, or_false, not_or] at h
  obtain ⟨hdataSet, hreport, hdoi, hdai, hval⟩ := h
  rw [ended, describeValue, if_neg (fun h => hval h.1), leave, if_neg hdai, if_neg hdoi,
    if_neg hdataSet, if_neg hreport]

/-- Behind an element that ends nothing, the reader is where it is behind its closing tag. -/
theorem run_opened {p : SclParser} {element : Element} {text : Bytes} {later : List Turn}
    (hroom : p.stack.length < 64) (htext : element.text = [])
    (hkind : localName element.name ∉ endedKinds) :
    p.run (⟨text, some (.opening element false)⟩ :: ⟨[], some (.closing element.name)⟩ :: later) =
      p.run (⟨text, some (.opening element true)⟩ :: later) := by
  have hroom' : (p.appendText text).stack.length < 64 := by rwa [appendText_depth]
  have hclosed := openElement_closed hroom' htext
  have hsame : (((p.appendText text).entered element).map fun p => p.ended (localName element.name)) =
      (p.appendText text).entered element := by
    cases (p.appendText text).entered element with
    | error error => rfl
    | ok p₁ => exact congrArg Except.ok (p₁.ended_eq hkind)
  show ((p.appendText text).openElement element false).bind (fun q =>
      ((q.appendText []).closeElement element.name).bind fun q => q.run later) =
    ((p.appendText text).openElement element true).bind fun q => q.run later
  rw [openElement_true, ← hsame, ← hclosed]
  cases (p.appendText text).openElement element false <;> rfl

end SclParser

/-! ### The outcome -/

section Outcome

variable {before inner after : Bytes} {element : Element}

theorem opened_ok_iff (h : SelfClosing before inner after element)
    (hlength : (opened before inner element.name after).length ≤ kMaxSclBytes)
    (hkind : localName element.name ∉ endedKinds) (definition : SclModelDefinition) :
    parseSclModel (opened before inner element.name after) = .ok definition ↔
      parseSclModel (selfClosed before inner after) = .ok definition := by
  obtain ⟨ts, last, hbefore, hdepth⟩ := h.reached
  obtain ⟨htext, -⟩ := parseTag_reopened h.tag
  rw [parseSclModel_ok_iff, parseSclModel_ok_iff, unsupported_opened h.tag hlength,
    turns_opened hbefore h.tag, turns_selfClosed hbefore h.tag]
  cases turns after with
  | error error => exact Iff.rfl
  | ok cut =>
    have hrun : SclParser.run {} (ts ++ ⟨last, some (.opening element false)⟩ ::
          ⟨[], some (.closing element.name)⟩ :: cut.1) =
        SclParser.run {} (ts ++ ⟨last, some (.opening element true)⟩ :: cut.1) := by
      rw [SclParser.run_append, SclParser.run_append]
      cases hrun : SclParser.run {} ts with
      | error error => rfl
      | ok p =>
        have hroom : p.stack.length < 64 := by
          rw [SclParser.run_depth hrun]
          exact hdepth
        exact SclParser.run_opened hroom htext hkind
    refine and_congr_right fun _ => ?_
    constructor
    · rintro ⟨ts', last', p, hcut, hrun', hfinish⟩
      cases hcut
      rw [hrun] at hrun'
      exact ⟨_, _, p, rfl, hrun', hfinish⟩
    · rintro ⟨ts', last', p, hcut, hrun', hfinish⟩
      cases hcut
      rw [← hrun] at hrun'
      exact ⟨_, _, p, rfl, hrun', hfinish⟩

theorem opened_outcome (h : SelfClosing before inner after element)
    (hlength : (opened before inner element.name after).length ≤ kMaxSclBytes)
    (hkind : localName element.name ∉ endedKinds) :
    (parseSclModel (opened before inner element.name after)).toOption =
      (parseSclModel (selfClosed before inner after)).toOption := by
  have hiff := opened_ok_iff h hlength hkind
  cases hopened : parseSclModel (opened before inner element.name after) with
  | ok definition => rw [(hiff definition).mp hopened]
  | error error =>
    cases hself : parseSclModel (selfClosed before inner after) with
    | error error => rfl
    | ok definition =>
      rw [(hiff definition).mpr hself] at hopened
      cases hopened

end Outcome

/-! ### The elements whose end matters -/

def attributeText (name value : String) : Bytes :=
  ascii " " ++ ascii name ++ ascii "='" ++ ascii value ++ ascii "'"

def fcdaText (doName daName fc : String) : Bytes :=
  ascii "<FCDA" ++ attributeText "ldInst" "MON" ++ attributeText "lnClass" "GGIO" ++
    attributeText "lnInst" "1" ++ attributeText "doName" doName ++ attributeText "daName" daName ++
    attributeText "fc" fc ++ ascii "/>"

/-- The document up to the first element that closes itself. -/
def frontText : Bytes :=
  ascii "<SCL" ++ ascii " xmlns='" ++ kSclNamespace ++ ascii "'>" ++ ascii "<IED" ++
    attributeText "name" "UHF" ++ ascii "><LDevice" ++ attributeText "inst" "MON" ++ ascii ">" ++
    ascii "<DataSet" ++ attributeText "name" "DSMeasurements" ++ ascii ">" ++
    (List.replicate 6 (fcdaText "IntIn1" "stVal" "ST")).flatten ++ ascii "</DataSet>"

/-- Five elements that close themselves, and what follows each of them. -/
def holes : List (Bytes × Bytes) :=
  [(ascii "DataSet" ++ attributeText "name" "DSState", fcdaText "Ind1" "stVal" "ST"),
    (ascii "ReportControl" ++ attributeText "name" "RPMeasurements" ++
        attributeText "datSet" "DSMeasurements",
      ascii "<TrgOps dchg='true'/>" ++ ascii "<ReportControl" ++ attributeText "name" "RPState" ++
        attributeText "datSet" "DSState" ++ ascii "/>"),
    (ascii "DOI name='Health'",
      ascii "<DAI name='d'>" ++ ascii "<Val>1</Val>" ++ ascii "</DAI>" ++
        ascii "<DOI" ++ attributeText "name" "PhyHealth" ++ ascii ">"),
    (ascii "DAI name='d'",
      ascii "<Val>1</Val>" ++ ascii "</DOI>" ++ ascii "<DO name='Ind1'" ++
        attributeText "desc" "1" ++ ascii "/>" ++ ascii "<DOI name='Ind1'>" ++
        ascii "<DAI name='d'>"),
    (ascii "Val",
      ascii "</DAI></DOI>" ++ ascii "</LDevice>" ++ ascii "</IED></SCL>")]

def fillHoles (holes : List (Bytes × Bytes)) : Bytes :=
  holes.flatMap fun hole => '<'.toUInt8 :: hole.1 ++ '/'.toUInt8 :: '>'.toUInt8 :: hole.2

def sampleDocument : Bytes := frontText ++ fillHoles holes

/-- What the elements that end change in a model. -/
def sampleView (definition : SclModelDefinition) : Bytes × Bytes × Bytes × List Bool :=
  (definition.lln0Description, definition.phyHealthDescription,
    definition.communicationAlarmDescription, definition.reports.map SclReportControl.dataChanged)

def sampleOutcome (contents : Bytes) : Option (Bytes × Bytes × Bytes × List Bool) :=
  ((SclParser.read {} contents).bind SclParser.finish).toOption.map sampleView

def reaches (before : Bytes) : Bool :=
  match turns before with
  | .ok (ts, _) => depth ts < 64
  | .error _ => false

def closesItself (name inner after : Bytes) : Bool :=
  match parseTag ('<'.toUInt8 :: inner ++ '/'.toUInt8 :: '>'.toUInt8 :: after) with
  | .ok (.opening element true, rest) => element.name = name ∧ rest = after
  | _ => false

def beforeHole (index : ℕ) : Bytes := frontText ++ fillHoles (holes.take index)
def innerHole (index : ℕ) : Bytes := (holes.getD index ([], [])).1
def afterHole (index : ℕ) : Bytes :=
  (holes.getD index ([], [])).2 ++ fillHoles (holes.drop (index + 1))

/-- Written out, this element makes another model of the sample. -/
def differsAt (index : ℕ) (name : Bytes) : Bool :=
  let contents := opened (beforeHole index) (innerHole index) name (afterHole index)
  reaches (beforeHole index) && closesItself name (innerHole index) (afterHole index) &&
    decide (contents.length ≤ kMaxSclBytes) &&
    decide (sampleOutcome contents ≠ some (ascii "1", ascii "1", ascii "1", [true, false]))

theorem sample_supported : unsupported kMaxSclBytes sampleDocument = false := by decide +kernel

theorem sample_outcome :
    sampleOutcome sampleDocument = some (ascii "1", ascii "1", ascii "1", [true, false]) := by
  decide +kernel

theorem differsAt_dataSet : differsAt 0 (ascii "DataSet") = true := by decide +kernel

theorem differsAt_reportControl : differsAt 1 (ascii "ReportControl") = true := by decide +kernel

theorem differsAt_doi : differsAt 2 (ascii "DOI") = true := by decide +kernel

theorem differsAt_dai : differsAt 3 (ascii "DAI") = true := by decide +kernel

theorem differsAt_val : differsAt 4 (ascii "Val") = true := by decide +kernel

theorem reaches_spec {before : Bytes} (h : reaches before = true) :
    ∃ ts last, turns before = .ok (ts, last) ∧ depth ts < 64 := by
  rw [reaches] at h
  split at h
  · next ts last hcut => exact ⟨ts, last, hcut, of_decide_eq_true h⟩
  · cases h

theorem closesItself_spec {name inner after : Bytes} (h : closesItself name inner after = true) :
    ∃ element : Element, element.name = name ∧
      parseTag ('<'.toUInt8 :: inner ++ '/'.toUInt8 :: '>'.toUInt8 :: after) =
        .ok (.opening element true, after) := by
  rw [closesItself] at h
  split at h
  · next element rest htag =>
    obtain ⟨hname, rfl⟩ := of_decide_eq_true h
    exact ⟨element, hname, htag⟩
  · cases h

theorem selfClosed_hole {index : ℕ} (h : index < holes.length) :
    selfClosed (beforeHole index) (innerHole index) (afterHole index) = sampleDocument := by
  have hsplit : holes.take index ++ holes.getD index ([], []) :: holes.drop (index + 1) = holes := by
    rw [List.getD_eq_getElem?_getD, List.getElem?_eq_getElem h, Option.getD_some,
      ← List.drop_eq_getElem_cons h, List.take_append_drop]
  have hfill : fillHoles (holes.take index ++ holes.getD index ([], []) :: holes.drop (index + 1)) =
      fillHoles holes := congrArg fillHoles hsplit
  rw [fillHoles, List.flatMap_append, List.flatMap_cons] at hfill
  rw [sampleDocument, ← hfill, selfClosed, beforeHole, innerHole, afterHole, fillHoles, fillHoles]
  simp only [List.append_assoc, List.cons_append]

theorem outcome_view {contents : Bytes} (h : unsupported kMaxSclBytes contents = false) :
    (parseSclModel contents).toOption.map sampleView = sampleOutcome contents := by
  rw [parseSclModel, h]
  rfl

theorem differsAt_spec {index : ℕ} {name : Bytes} (hindex : index < holes.length)
    (h : differsAt index name = true) :
    ∃ element : Element, element.name = name ∧
      SelfClosing (beforeHole index) (innerHole index) (afterHole index) element ∧
      (opened (beforeHole index) (innerHole index) element.name (afterHole index)).length ≤
        kMaxSclBytes ∧
      (parseSclModel (opened (beforeHole index) (innerHole index) element.name
          (afterHole index))).toOption ≠
        (parseSclModel (selfClosed (beforeHole index) (innerHole index) (afterHole index))).toOption := by
  simp only [differsAt, Bool.and_eq_true, decide_eq_true_eq] at h
  obtain ⟨⟨⟨hreaches, hcloses⟩, hlength⟩, hdiffers⟩ := h
  obtain ⟨element, rfl, htag⟩ := closesItself_spec hcloses
  have hsample := selfClosed_hole hindex
  have hsupported : unsupported kMaxSclBytes
      (opened (beforeHole index) (innerHole index) element.name (afterHole index)) = false := by
    rw [unsupported_opened htag hlength, hsample]
    exact sample_supported
  refine ⟨element, rfl, ⟨reaches_spec hreaches, htag⟩, hlength, ?_⟩
  intro hsame
  have hview := congrArg (Option.map sampleView) hsame
  rw [hsample, outcome_view hsupported, outcome_view sample_supported, sample_outcome] at hview
  exact hdiffers hview

theorem sample_differs {kind : Bytes} (h : kind ∈ endedKinds) :
    ∃ index, index < holes.length ∧ differsAt index kind = true := by
  simp only [endedKinds, List.mem_cons, List.not_mem_nil, or_false] at h
  rcases h with rfl | rfl | rfl | rfl | rfl
  · exact ⟨0, by decide, differsAt_dataSet⟩
  · exact ⟨1, by decide, differsAt_reportControl⟩
  · exact ⟨2, by decide, differsAt_doi⟩
  · exact ⟨3, by decide, differsAt_dai⟩
  · exact ⟨4, by decide, differsAt_val⟩

theorem localName_endedKinds {kind : Bytes} (h : kind ∈ endedKinds) : localName kind = kind := by
  have hall : ∀ kind ∈ endedKinds, localName kind = kind := by decide
  exact hall kind h

end Uhf.Iec61850
