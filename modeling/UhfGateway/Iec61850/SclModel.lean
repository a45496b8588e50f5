/-
The reader of SCL documents (`iec61850/scl_model`).

The position in the document is what is left of it.  `parseTag` reads one tag, `SclParser` is
what the loop of `parse_scl_model` keeps from one tag to the next, and `SclParser.finish` is
what it checks behind the last one.

* `parseTag_length` — a tag is not empty, so the loop comes to an end;
* `parseSclModel_length` — no document beyond the limit is accepted.
-/
import UhfGateway.Domain.Decimal

namespace Uhf.Iec61850

def kMaxSclBytes : ℕ := 48 * 1024
def kSclNamespace : Bytes := ascii "http://www.iec.ch/61850/2003/SCL"

/-! ### Texts -/

/-- `std::isspace`. -/
def isSpace (c : UInt8) : Bool := c = 0x20 || (0x09 ≤ c && c ≤ 0x0D)

def nameStart (value : UInt8) : Bool :=
  ('A'.toUInt8 ≤ value && value ≤ 'Z'.toUInt8) || ('a'.toUInt8 ≤ value && value ≤ 'z'.toUInt8) ||
    value = '_'.toUInt8 || value = ':'.toUInt8

def nameCharacter (value : UInt8) : Bool :=
  nameStart value || isDigit value || value = '-'.toUInt8 || value = '.'.toUInt8

def skipSpace (input : Bytes) : Bytes := input.dropWhile isSpace

/-- A name, and the input behind it. -/
def parseName : Bytes → Option (Bytes × Bytes)
  | [] => none
  | c :: input =>
    if nameStart c then some (c :: input.takeWhile nameCharacter, input.dropWhile nameCharacter)
    else none

/-- The name without its namespace. -/
def localName (name : Bytes) : Bytes := (name.reverse.takeWhile (· ≠ ':'.toUInt8)).reverse

/-- The input behind the first occurrence of a pattern. -/
def behind (pattern : Bytes) : Bytes → Option Bytes
  | [] => if pattern = [] then some [] else none
  | c :: input =>
    if pattern.isPrefixOf (c :: input) then some ((c :: input).drop pattern.length)
    else behind pattern input

def contains (pattern input : Bytes) : Bool := (behind pattern input).isSome

def trim (input : Bytes) : Bytes := ((input.dropWhile isSpace).reverse.dropWhile isSpace).reverse

/-- The text with every occurrence of a pattern replaced; the search goes on behind what has
been put in. -/
def replaceAll (pattern replacement : Bytes) : Bytes → Bytes
  | [] => []
  | c :: input =>
    if pattern.isPrefixOf (c :: input) then
      replacement ++ replaceAll pattern replacement (input.drop (pattern.length - 1))
    else c :: replaceAll pattern replacement input
termination_by input => input.length
decreasing_by
  · simp only [List.length_drop, List.length_cons]
    omega
  · simp

def replacements : List (Bytes × Bytes) :=
  [(ascii "&quot;", ascii "\""), (ascii "&apos;", ascii "'"), (ascii "&lt;", ascii "<"),
    (ascii "&gt;", ascii ">"), (ascii "&amp;", ascii "&")]

def unescape (value : Bytes) : Bytes :=
  replacements.foldl (fun value r => replaceAll r.1 r.2 value) value

/-- A number of 32 bits that takes up the whole text. -/
def parseUint (value : Bytes) : Option UInt32 :=
  (fromChars value).bind fun n => if n < 4294967296 then some (UInt32.ofNat n) else none

theorem skipSpace_length (input : Bytes) : (skipSpace input).length ≤ input.length :=
  (List.dropWhile_sublist isSpace).length_le

theorem parseName_length {input name rest : Bytes} (h : parseName input = some (name, rest)) :
    rest.length < input.length := by
  cases input with
  | nil => cases h
  | cons c input =>
    rw [parseName, Option.ite_none_right_eq_some] at h
    obtain ⟨-, h⟩ := h
    simp only [Option.some.injEq, Prod.mk.injEq] at h
    have hlength : (input.dropWhile nameCharacter).length ≤ input.length :=
      (List.dropWhile_sublist nameCharacter).length_le
    rw [← h.2, List.length_cons]
    omega

theorem behind_length {pattern input rest : Bytes} (h : behind pattern input = some rest) :
    rest.length ≤ input.length := by
  induction input with
  | nil =>
    rw [behind, Option.ite_none_right_eq_some] at h
    simp_all
  | cons c input ih =>
    rw [behind] at h
    split at h
    · simp only [Option.some.injEq] at h
      rw [← h, List.length_drop]
      omega
    · have hrest := ih h
      rw [List.length_cons]
      omega

/-! ### Tags -/

structure Attribute where
  name : Bytes
  value : Bytes

structure Element where
  name : Bytes
  attributes : List Attribute
  text : Bytes := []

inductive Tag
  | closing (name : Bytes)
  | opening (element : Element) (selfClosing : Bool)

/-- The value up to its quote, and the input behind the quote. -/
def attributeValue (quote : UInt8) : Bytes → Except String (Bytes × Bytes)
  | [] => .error "unterminated SCL attribute value"
  | c :: input =>
    if c = quote then .ok ([], input)
    else if c = '<'.toUInt8 ∨ c = 0 then .error "invalid SCL attribute value"
    else (attributeValue quote input).map fun (value, rest) => (c :: value, rest)

/-- What follows the name of an attribute. -/
def assignedValue (input : Bytes) : Except String (Bytes × Bytes) :=
  match skipSpace input with
  | [] => .error "SCL attribute assignment expected"
  | assign :: input =>
    if assign ≠ '='.toUInt8 then .error "SCL attribute assignment expected"
    else
      match skipSpace input with
      | [] => .error "SCL quoted attribute expected"
      | quote :: input =>
        if quote ≠ '\''.toUInt8 ∧ quote ≠ '"'.toUInt8 then .error "SCL quoted attribute expected"
        else attributeValue quote input

def parseAttribute (input : Bytes) : Except String (Attribute × Bytes) :=
  match parseName input with
  | none => .error "invalid SCL attribute name"
  | some (name, input) => (assignedValue input).map fun (value, rest) => (⟨name, value⟩, rest)

theorem attributeValue_length {quote : UInt8} {input value rest : Bytes}
    (h : attributeValue quote input = .ok (value, rest)) : rest.length < input.length := by
  induction input generalizing value with
  | nil => cases h
  | cons c input ih =>
    rw [attributeValue] at h
    split at h
    · cases h
      simp
    · split at h
      · cases h
      · cases hlater : attributeValue quote input with
        | error error =>
          rw [hlater] at h
          cases h
        | ok later =>
          rw [hlater] at h
          cases h
          have hrest := ih hlater
          rw [List.length_cons]
          omega

theorem assignedValue_length {input value rest : Bytes}
    (h : assignedValue input = .ok (value, rest)) : rest.length < input.length := by
  have hspace := skipSpace_length input
  rw [assignedValue] at h
  split at h
  · cases h
  · next assign input' hassign =>
    rw [hassign, List.length_cons] at hspace
    have hspace' := skipSpace_length input'
    split at h
    · cases h
    · split at h
      · cases h
      · next quote input'' hquote =>
        rw [hquote, List.length_cons] at hspace'
        split at h
        · cases h
        · have hvalue := attributeValue_length h
          omega

theorem parseAttribute_length {input rest : Bytes} {item : Attribute}
    (h : parseAttribute input = .ok (item, rest)) : rest.length < input.length := by
  rw [parseAttribute] at h
  split at h
  · cases h
  · next name input' hname =>
    have hbehind := parseName_length hname
    cases hvalue : assignedValue input' with
    | error error =>
      rw [hvalue] at h
      cases h
    | ok assigned =>
      rw [hvalue] at h
      cases h
      have hrest := assignedValue_length hvalue
      omega

/-- The loop of `parse_tag`: the attributes, whether the tag closes itself, and the input behind
it. -/
def parseAttributes (attributes : List Attribute) (input : Bytes) :
    Except String (List Attribute × Bool × Bytes) :=
  match _h : skipSpace input with
  | [] => .error "unterminated SCL element"
  | c :: rest =>
    if c = '>'.toUInt8 then .ok (attributes, false, rest)
    else if c = '/'.toUInt8 then
      match skipSpace rest with
      | [] => .error "invalid SCL self-closing element"
      | c :: rest =>
        if c = '>'.toUInt8 then .ok (attributes, true, rest)
        else .error "invalid SCL self-closing element"
    else
      match _hattribute : parseAttribute (c :: rest) with
      | .error error => .error error
      | .ok (item, rest) => parseAttributes (attributes ++ [item]) rest
termination_by input.length
decreasing_by
  have hspace := skipSpace_length input
  have hrest := parseAttribute_length _hattribute
  rw [_h] at hspace
  omega

theorem parseAttributes_length {attributes attributes' : List Attribute} {selfClosing : Bool}
    {input rest : Bytes} (h : parseAttributes attributes input = .ok (attributes', selfClosing, rest)) :
    rest.length < input.length := by
  fun_induction parseAttributes attributes input with
  | case1 => cases h
  | case2 _ input _ hspace =>
    cases h
    have hle := skipSpace_length input
    rw [hspace, List.length_cons] at hle
    omega
  | case3 => cases h
  | case4 _ input inside _ hspace _ hslash =>
    cases h
    have hle := skipSpace_length input
    have hle' := skipSpace_length inside
    rw [hspace, List.length_cons] at hle
    rw [hslash, List.length_cons] at hle'
    omega
  | case5 => cases h
  | case6 => cases h
  | case7 _ input _ _ hspace _ _ _ _ hattribute ih =>
    have hle := skipSpace_length input
    have hbehind := parseAttribute_length hattribute
    have hrest := ih h
    rw [hspace] at hle
    omega

/-- What follows the slash of a closing tag. -/
def parseClosing (input : Bytes) : Except String (Tag × Bytes) :=
  match parseName (skipSpace input) with
  | none => .error "invalid SCL element name"
  | some (name, input) =>
    match skipSpace input with
    | [] => .error "invalid SCL closing element"
    | c :: rest =>
      if c = '>'.toUInt8 then .ok (.closing name, rest)
      else .error "invalid SCL closing element"

def parseOpening (input : Bytes) : Except String (Tag × Bytes) :=
  match parseName (skipSpace input) with
  | none => .error "invalid SCL element name"
  | some (name, input) =>
    (parseAttributes [] input).map fun (attributes, selfClosing, rest) =>
      (.opening { name := name, attributes := attributes } selfClosing, rest)

def parseTag : Bytes → Except String (Tag × Bytes)
  | [] => .error "SCL tag expected"
  | c :: input =>
    if c ≠ '<'.toUInt8 then .error "SCL tag expected"
    else if input.head? = some '/'.toUInt8 then parseClosing input.tail
    else parseOpening input

theorem parseClosing_length {input rest : Bytes} {tag : Tag}
    (h : parseClosing input = .ok (tag, rest)) : rest.length < input.length := by
  have hspace := skipSpace_length input
  rw [parseClosing] at h
  split at h
  · cases h
  · next name input' hname =>
    have hbehind := parseName_length hname
    have hspace' := skipSpace_length input'
    split at h
    · cases h
    · next c rest' hc =>
      rw [hc, List.length_cons] at hspace'
      split at h
      · cases h
        omega
      · cases h

theorem parseOpening_length {input rest : Bytes} {tag : Tag}
    (h : parseOpening input = .ok (tag, rest)) : rest.length < input.length := by
  have hspace := skipSpace_length input
  rw [parseOpening] at h
  split at h
  · cases h
  · next name input' hname =>
    have hbehind := parseName_length hname
    cases hattributes : parseAttributes [] input' with
    | error error =>
      rw [hattributes] at h
      cases h
    | ok parsed =>
      rw [hattributes] at h
      cases h
      have hrest := parseAttributes_length hattributes
      omega

theorem parseTag_length {input rest : Bytes} {tag : Tag} (h : parseTag input = .ok (tag, rest)) :
    rest.length < input.length := by
  cases input with
  | nil => cases h
  | cons c input =>
    rw [parseTag] at h
    split at h
    · cases h
    · split at h
      · have hrest := parseClosing_length h
        rw [List.length_tail] at hrest
        rw [List.length_cons]
        omega
      · have hrest := parseOpening_length h
        rw [List.length_cons]
        omega

/-- The value of the first attribute with this name. -/
def Element.valueOf (element : Element) (name : String) : Option Bytes :=
  (element.attributes.find? fun item => localName item.name = ascii name).map Attribute.value

/-! ### The model -/

structure SclDataSetEntry where
  ldInst : Bytes := []
  prefix' : Bytes := []
  lnClass : Bytes := []
  lnInst : Bytes := []
  doName : Bytes := []
  daName : Bytes := []
  fc : Bytes := []
  deriving DecidableEq

structure SclDataSet where
  name : Bytes
  description : Bytes := []
  entries : List SclDataSetEntry := []
  deriving DecidableEq

structure SclReportControl where
  name : Bytes
  description : Bytes := []
  rptId : Bytes
  dataSet : Bytes
  buffered : Bool := false
  bufferTimeMs : UInt32 := 0
  integrityPeriodMs : UInt32 := 60000
  maxClients : UInt8 := 1
  dataChanged : Bool := false
  qualityChanged : Bool := false
  integrity : Bool := false
  deriving DecidableEq

structure SclModelDefinition where
  iedName : Bytes := []
  iedDescription : Bytes := []
  logicalDevice : Bytes := []
  logicalDeviceDescription : Bytes := []
  lln0Description : Bytes := []
  phyHealthDescription : Bytes := []
  measurementDescriptions : Vector Bytes 5 := .replicate 5 []
  peakDescription : Bytes := []
  alarmDescription : Bytes := []
  communicationAlarmDescription : Bytes := []
  maxReportControls : UInt8 := 2
  dataSets : List SclDataSet := []
  reports : List SclReportControl := []
  deriving DecidableEq

def findDataset (definition : SclModelDefinition) (name : String) : Option SclDataSet :=
  definition.dataSets.find? fun dataSet => dataSet.name = ascii name

def approvedEntry (entry : SclDataSetEntry) : Bool :=
  if entry.prefix' ≠ [] ∨ entry.lnInst ≠ ascii "1" ∨
      (entry.lnClass ≠ ascii "GGIO" ∧ entry.lnClass ≠ ascii "SPDC") then false
  else if entry.lnClass = ascii "GGIO" then
    if entry.doName = ascii "Ind1" ∨ entry.doName = ascii "IntIn1" then
      entry.daName = ascii "stVal" ∧ entry.fc = ascii "ST"
    else
      (entry.doName = ascii "AnIn1" ∨ entry.doName = ascii "AnIn2" ∨ entry.doName = ascii "AnIn3" ∨
        entry.doName = ascii "AnIn4") ∧ entry.daName = ascii "mag.f" ∧ entry.fc = ascii "MX"
  else
    entry.doName = ascii "PaDschAlm" ∧ entry.daName = ascii "stVal" ∧ entry.fc = ascii "ST"

/-- The description of the data object with this name. -/
def SclModelDefinition.describe (definition : SclModelDefinition) (doName value : Bytes) :
    SclModelDefinition :=
  let measurement (index : Fin 5) : SclModelDefinition :=
    { definition with
      measurementDescriptions := definition.measurementDescriptions.set index value }
  if doName = ascii "Health" then { definition with lln0Description := value }
  else if doName = ascii "PhyHealth" then { definition with phyHealthDescription := value }
  else if doName = ascii "UhfPaDsch" then { definition with peakDescription := value }
  else if doName = ascii "PaDschAlm" then { definition with alarmDescription := value }
  else if doName = ascii "Ind1" then { definition with communicationAlarmDescription := value }
  else if doName = ascii "AnIn1" then measurement 0
  else if doName = ascii "IntIn1" then measurement 1
  else if doName = ascii "AnIn2" then measurement 2
  else if doName = ascii "AnIn3" then measurement 3
  else if doName = ascii "AnIn4" then measurement 4
  else definition

/-! ### The elements of a document -/

/-- What `parse_scl_model` keeps from one tag to the next.  The innermost element comes first;
`currentDataSet` and `currentReport` are indices. -/
structure SclParser where
  definition : SclModelDefinition := {}
  stack : List Element := []
  currentDataSet : Option ℕ := none
  currentReport : Option ℕ := none
  currentDoi : Bool := false
  currentDoiName : Bytes := []
  currentDaiName : Bytes := []
  rootSeen : Bool := false
  rootNamespaceOk : Bool := false
  iedSeen : Bool := false
  logicalDeviceSeen : Bool := false

namespace SclParser

def inIed (p : SclParser) : Bool := p.stack.any fun element => localName element.name = ascii "IED"

def modifyReport (p : SclParser) (index : ℕ) (change : SclReportControl → SclReportControl) :
    SclParser :=
  { p with
    definition := { p.definition with reports := p.definition.reports.modify index change } }

def appendText (p : SclParser) (text : Bytes) : SclParser :=
  match p.stack with
  | [] => p
  | element :: stack => { p with stack := { element with text := element.text ++ text } :: stack }

/-- What the end of an element ends. -/
def leave (p : SclParser) (name : Bytes) : SclParser :=
  if name = ascii "DAI" then { p with currentDaiName := [] }
  else if name = ascii "DOI" then { p with currentDoi := false, currentDoiName := [] }
  else if name = ascii "DataSet" then { p with currentDataSet := none }
  else if name = ascii "ReportControl" then { p with currentReport := none }
  else p

/-- The value of a description, once its element is complete. -/
def describeValue (p : SclParser) (name text : Bytes) : SclParser :=
  if name = ascii "Val" ∧ p.currentDoi = true ∧ p.currentDaiName = ascii "d" ∧ p.inIed = true then
    { p with definition := p.definition.describe p.currentDoiName (unescape (trim text)) }
  else p

def closeElement (p : SclParser) (name : Bytes) : Except String SclParser :=
  match p.stack with
  | [] => .error "unbalanced SCL element"
  | completed :: stack =>
    if localName completed.name ≠ localName name then .error "unbalanced SCL element"
    else
      .ok (({ p with stack := stack }.describeValue (localName name) completed.text).leave
        (localName name))

/-- The root comes first, and nothing behind it. -/
def admitRoot (p : SclParser) (element : Element) : Except String SclParser :=
  if !p.rootSeen then
    .ok { p with
      rootSeen := true
      rootNamespaceOk := localName element.name = ascii "SCL" ∧
        element.valueOf "xmlns" = some kSclNamespace }
  else if p.stack.isEmpty then .error "SCL contains more than one root element"
  else .ok p

def enterIed (p : SclParser) (element : Element) : Except String SclParser :=
  if p.inIed then .error "nested IED element"
  else if p.iedSeen then .error "SCL contains multiple IED elements"
  else
    .ok { p with
      iedSeen := true
      definition := { p.definition with
        iedName := (element.valueOf "name").getD p.definition.iedName
        iedDescription :=
          ((element.valueOf "desc").map unescape).getD p.definition.iedDescription } }

def enterLDevice (p : SclParser) (element : Element) : Except String SclParser :=
  if p.logicalDeviceSeen then .error "SCL contains multiple logical devices"
  else if p.definition.logicalDevice ≠ [] then .ok { p with logicalDeviceSeen := true }
  else
    .ok { p with
      logicalDeviceSeen := true
      definition := { p.definition with
        logicalDevice := (element.valueOf "inst").getD []
        logicalDeviceDescription :=
          ((element.valueOf "desc").map unescape).getD p.definition.logicalDeviceDescription } }

def enterLn0 (p : SclParser) (element : Element) : SclParser :=
  { p with
    definition := { p.definition with
      lln0Description := ((element.valueOf "desc").map unescape).getD p.definition.lln0Description } }

def enterDataSet (p : SclParser) (element : Element) : Except String SclParser :=
  match element.valueOf "name" with
  | none => .error "SCL data set has no name"
  | some name =>
    if p.definition.dataSets.any fun dataSet => dataSet.name = name then
      .error "SCL contains duplicate data set names"
    else
      let dataSet : SclDataSet :=
        { name := name, description := ((element.valueOf "desc").map unescape).getD [] }
      .ok { p with
        currentDataSet := some p.definition.dataSets.length
        definition := { p.definition with dataSets := p.definition.dataSets ++ [dataSet] } }

def enterFcda (p : SclParser) (index : ℕ) (element : Element) : SclParser :=
  let value (key : String) : Bytes := (element.valueOf key).getD []
  let entry : SclDataSetEntry :=
    ⟨value "ldInst", value "prefix", value "lnClass", value "lnInst", value "doName",
      value "daName", value "fc"⟩
  { p with
    definition := { p.definition with
      dataSets := p.definition.dataSets.modify index fun dataSet =>
        { dataSet with entries := dataSet.entries ++ [entry] } } }

/-- A number in an attribute that may be missing. -/
def uintOf (element : Element) (name : String) (missing : UInt32) (error : String) :
    Except String UInt32 :=
  match element.valueOf name with
  | none => .ok missing
  | some value =>
    match parseUint value with
    | none => .error error
    | some parsed => .ok parsed

def enterReportControl (p : SclParser) (element : Element) : Except String SclParser :=
  match element.valueOf "name", element.valueOf "datSet" with
  | some name, some dataSet =>
    if p.definition.reports.any fun report => report.name = name then
      .error "SCL contains duplicate report control names"
    else
      (uintOf element "bufTime" 0 "invalid report buffer time").bind fun bufferTimeMs =>
        (uintOf element "intgPd" 60000 "invalid report integrity period").bind
          fun integrityPeriodMs =>
            let report : SclReportControl :=
              { name := name
                description := ((element.valueOf "desc").map unescape).getD []
                rptId := (element.valueOf "rptID").getD name
                dataSet := dataSet
                buffered := element.valueOf "buffered" = some (ascii "true")
                bufferTimeMs := bufferTimeMs
                integrityPeriodMs := integrityPeriodMs }
            .ok { p with
              currentReport := some p.definition.reports.length
              definition := { p.definition with reports := p.definition.reports ++ [report] } }
  | _, _ => .error "SCL report control is missing name or data set"

/-- The attribute `max`, from 1 to 255, if there is one. -/
def limitOf (element : Element) (error : String) : Except String (Option UInt8) :=
  match element.valueOf "max" with
  | none => .ok none
  | some max =>
    match parseUint max with
    | none => .error error
    | some parsed => if parsed = 0 ∨ 255 < parsed then .error error else .ok (some parsed.toUInt8)

def enterRptEnabled (p : SclParser) (index : ℕ) (element : Element) : Except String SclParser :=
  (limitOf element "invalid report client limit").map fun limit =>
    p.modifyReport index fun report => { report with maxClients := limit.getD report.maxClients }

def enterConfReportControl (p : SclParser) (element : Element) : Except String SclParser :=
  (limitOf element "invalid configured report control limit").map fun limit =>
    { p with
      definition := { p.definition with
        maxReportControls := limit.getD p.definition.maxReportControls } }

def enterTrgOps (p : SclParser) (index : ℕ) (element : Element) : SclParser :=
  let enabled (key : String) : Bool :=
    element.valueOf key = some (ascii "true") ∨ element.valueOf key = some (ascii "1")
  p.modifyReport index fun report =>
    { report with
      dataChanged := enabled "dchg"
      qualityChanged := enabled "qchg"
      integrity := enabled "intg" || enabled "period" }

def enterDo (p : SclParser) (element : Element) : SclParser :=
  match element.valueOf "name", element.valueOf "desc" with
  | some name, some desc => { p with definition := p.definition.describe name (unescape desc) }
  | _, _ => p

def enterDoi (p : SclParser) (element : Element) : SclParser :=
  match element.valueOf "name" with
  | none => p
  | some name => { p with currentDoiName := name, currentDoi := true }

def enterDai (p : SclParser) (element : Element) : SclParser :=
  match element.valueOf "name" with
  | none => p
  | some name => { p with currentDaiName := name }

/-- What an opening tag adds to the model. -/
def enter (p : SclParser) (element : Element) : Except String SclParser :=
  let name := localName element.name
  if name = ascii "IED" then p.enterIed element
  else if name = ascii "LDevice" ∧ p.inIed = true then p.enterLDevice element
  else if name = ascii "LN0" ∧ p.inIed = true then .ok (p.enterLn0 element)
  else if name = ascii "DataSet" ∧ p.inIed = true then p.enterDataSet element
  else if name = ascii "FCDA" ∧ p.inIed = true then
    .ok (p.currentDataSet.elim p fun index => p.enterFcda index element)
  else if name = ascii "ReportControl" ∧ p.inIed = true then p.enterReportControl element
  else if name = ascii "RptEnabled" then
    p.currentReport.elim (.ok p) fun index => p.enterRptEnabled index element
  else if name = ascii "ConfReportControl" ∧ p.inIed = true then p.enterConfReportControl element
  else if name = ascii "TrgOps" then
    .ok (p.currentReport.elim p fun index => p.enterTrgOps index element)
  else if name = ascii "DO" then .ok (p.enterDo element)
  else if name = ascii "DOI" ∧ p.inIed = true then .ok (p.enterDoi element)
  else if name = ascii "DAI" ∧ p.currentDoi = true ∧ p.inIed = true then .ok (p.enterDai element)
  else .ok p

def openElement (p : SclParser) (element : Element) (selfClosing : Bool) :
    Except String SclParser :=
  (p.admitRoot element).bind fun p =>
    (p.enter element).bind fun p =>
      if selfClosing then .ok p
      else if 64 ≤ p.stack.length then .error "SCL nesting limit exceeded"
      else .ok { p with stack := element :: p.stack }

def step (p : SclParser) : Tag → Except String SclParser
  | .closing name => p.closeElement name
  | .opening element selfClosing => p.openElement element selfClosing

/-! ### The document -/

/-- The loop of `parse_scl_model`. -/
def read (p : SclParser) (contents : Bytes) : Except String SclParser :=
  let found := contents.dropWhile (· ≠ '<'.toUInt8)
  let p := p.appendText (contents.takeWhile (· ≠ '<'.toUInt8))
  if _hfound : found = [] then .ok p
  else if (ascii "<!--").isPrefixOf found then
    match _hcomment : behind (ascii "-->") (found.drop 4) with
    | none => .error "unterminated SCL comment"
    | some rest => p.read rest
  else if (ascii "<?").isPrefixOf found then
    match _hdeclaration : behind (ascii "?>") (found.drop 2) with
    | none => .error "unterminated SCL declaration"
    | some rest => p.read rest
  else
    match _htag : parseTag found with
    | .error error => .error error
    | .ok (tag, rest) =>
      match p.step tag with
      | .error error => .error error
      | .ok p => p.read rest
termination_by contents.length
decreasing_by
  all_goals
    have hfound : found.length ≤ contents.length := (List.dropWhile_sublist _).length_le
    have hpos := List.length_pos_iff.mpr _hfound
  · have hrest := behind_length _hcomment
    rw [List.length_drop] at hrest
    omega
  · have hrest := behind_length _hdeclaration
    rw [List.length_drop] at hrest
    omega
  · have hrest := parseTag_length _htag
    omega

/-- An entry for the communication alarm that the document does not mention. -/
def addCommunicationEntry (definition : SclModelDefinition) : SclModelDefinition :=
  let communication (entry : SclDataSetEntry) : Bool :=
    entry.lnClass = ascii "GGIO" ∧ entry.lnInst = ascii "1" ∧ entry.doName = ascii "Ind1" ∧
      entry.daName = ascii "stVal" ∧ entry.fc = ascii "ST"
  let entry : SclDataSetEntry :=
    ⟨definition.logicalDevice, [], ascii "GGIO", ascii "1", ascii "Ind1", ascii "stVal",
      ascii "ST"⟩
  let state := definition.dataSets.findIdx fun dataSet => dataSet.name = ascii "DSState"
  { definition with
    dataSets := definition.dataSets.modify state fun dataSet =>
      if dataSet.entries.any communication then dataSet
      else { dataSet with entries := dataSet.entries ++ [entry] } }

def checkDataSets (definition : SclModelDefinition) : Except String SclModelDefinition :=
  match findDataset definition "DSMeasurements", findDataset definition "DSState" with
  | some measurements, some state =>
    if definition.dataSets.length ≠ 2 ∨ measurements.entries.length ≠ 6 ∨ state.entries = [] ∨
        2 < state.entries.length then
      .error "SCL must contain the approved telemetry and state data sets"
    else
      let definition := addCommunicationEntry definition
      let supported (dataSet : SclDataSet) : Bool :=
        if dataSet.name ≠ ascii "DSMeasurements" ∧ dataSet.name ≠ ascii "DSState" then true
        else
          dataSet.entries.all fun entry =>
            entry.ldInst = definition.logicalDevice && approvedEntry entry
      if definition.dataSets.all supported then .ok definition
      else .error "SCL data set contains an unsupported FCDA reference"
  | _, _ => .error "SCL must contain the approved telemetry and state data sets"

def checkReports (definition : SclModelDefinition) : Except String SclModelDefinition :=
  let last (name : String) : Option SclReportControl :=
    definition.reports.reverse.find? fun report => report.name = ascii name
  if definition.reports.length ≠ 2 ∨
      (last "RPMeasurements").map SclReportControl.dataSet ≠ some (ascii "DSMeasurements") ∨
      (last "RPState").map SclReportControl.dataSet ≠ some (ascii "DSState") then
    .error "SCL must contain telemetry and state report controls"
  else if definition.maxReportControls = 0 then .ok { definition with maxReportControls := 2 }
  else .ok definition

/-- What is checked behind the last tag. -/
def finish (p : SclParser) : Except String SclModelDefinition :=
  if !p.rootSeen || !p.rootNamespaceOk || !p.stack.isEmpty then
    .error "invalid SCL root or unbalanced document"
  else if p.definition.iedName = [] ∨ p.definition.logicalDevice = [] then
    .error "SCL is missing IED or logical device"
  else (checkDataSets p.definition).bind checkReports

end SclParser

/-- What neither reader of a document accepts. -/
def unsupported (maximum : ℕ) (contents : Bytes) : Bool :=
  contents.isEmpty || maximum < contents.length || contents.contains 0 ||
    contains (ascii "<!DOCTYPE") contents || contains (ascii "<!doctype") contents ||
    contains (ascii "<!ENTITY") contents || contains (ascii "<!entity") contents ||
    contains (ascii "<![CDATA[") contents

def parseSclModel (contents : Bytes) : Except String SclModelDefinition :=
  if unsupported kMaxSclBytes contents then .error "unsupported or oversized SCL document"
  else (SclParser.read {} contents).bind SclParser.finish

theorem unsupported_length {maximum : ℕ} {contents : Bytes}
    (h : unsupported maximum contents = false) : contents.length ≤ maximum := by
  simp only [unsupported, Bool.or_eq_false_iff, decide_eq_false_iff_not] at h
  omega

theorem parseSclModel_length {contents : Bytes} {definition : SclModelDefinition}
    (h : parseSclModel contents = .ok definition) : contents.length ≤ kMaxSclBytes := by
  rw [parseSclModel] at h
  split at h
  · cases h
  · next hsupported => exact unsupported_length (by simpa using hsupported)

end Uhf.Iec61850
