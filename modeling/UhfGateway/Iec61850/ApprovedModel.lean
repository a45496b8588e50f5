/-
The model an accepted SCL document describes (`iec61850/scl_model`).

The checks behind the last tag count the references of a data set and approve each of them by
itself.  `references` is what a document lists in a data set, read off its tags alone, and
`SclParser.run_entries` says that the reader has collected just that.

* `Place.next`, `Place.entry` — where a tag stands, and the reference it adds;
* `checked_of_finish` — what an accepted model has passed;
* `accepted_model_approved_iff` — which of the accepted documents describe the approved model.
-/
import UhfGateway.Iec61850.EmptyElements
import Mathlib.Data.List.Nodup
import Mathlib.Data.List.Perm.Subperm

namespace Uhf.Iec61850

/-! ### The references of a document -/

/-- The reference of an `FCDA` element. -/
def entryOf (element : Element) : SclDataSetEntry :=
  let value (key : String) : Bytes := (element.valueOf key).getD []
  ⟨value "ldInst", value "prefix", value "lnClass", value "lnInst", value "doName",
    value "daName", value "fc"⟩

/-- The names of the open elements, and whether references belong to the data set in question. -/
structure Place where
  names : List Bytes
  inside : Bool

namespace Place

def inIed (place : Place) : Bool := place.names.contains (ascii "IED")

/-- The place behind a turn, for the data set of this name. -/
def next (name : Bytes) (place : Place) (turn : Turn) : Place :=
  match turn.tag with
  | none => place
  | some (.closing closed) =>
    ⟨place.names.tail, place.inside && decide (localName closed ≠ ascii "DataSet")⟩
  | some (.opening element selfClosing) =>
    ⟨if selfClosing then place.names else localName element.name :: place.names,
      if place.inIed = true ∧ localName element.name = ascii "DataSet" then
        decide (element.valueOf "name" = some name)
      else place.inside⟩

/-- The reference a turn adds. -/
def entry (place : Place) (turn : Turn) : List SclDataSetEntry :=
  match turn.tag with
  | some (.opening element _) =>
    if place.inIed = true ∧ localName element.name = ascii "FCDA" ∧ place.inside = true then
      [entryOf element]
    else []
  | _ => []

theorem next_closing (name text closed : Bytes) (place : Place) :
    place.next name ⟨text, some (.closing closed)⟩ =
      ⟨place.names.tail, place.inside && decide (localName closed ≠ ascii "DataSet")⟩ :=
  rfl

theorem next_opening (name text : Bytes) (place : Place) (element : Element) (selfClosing : Bool) :
    place.next name ⟨text, some (.opening element selfClosing)⟩ =
      ⟨if selfClosing then place.names else localName element.name :: place.names,
        if place.inIed = true ∧ localName element.name = ascii "DataSet" then
          decide (element.valueOf "name" = some name)
        else place.inside⟩ :=
  rfl

def listed (name : Bytes) (place : Place) : List Turn → List SclDataSetEntry
  | [] => []
  | turn :: later => place.entry turn ++ (place.next name turn).listed name later

end Place

/-- The references a document lists in the data set of this name. -/
def references (contents name : Bytes) : List SclDataSetEntry :=
  match turns contents with
  | .error _ => []
  | .ok (ts, _) => Place.listed name ⟨[], false⟩ ts

/-! ### What the reader collects -/

def entriesOf (dataSets : List SclDataSet) (name : Bytes) : List SclDataSetEntry :=
  ((dataSets.find? fun dataSet => dataSet.name = name).map SclDataSet.entries).getD []

section DataSets

variable {dataSets : List SclDataSet} {name : Bytes}

theorem entriesOf_cons (dataSet : SclDataSet) (dataSets : List SclDataSet) (name : Bytes) :
    entriesOf (dataSet :: dataSets) name =
      if dataSet.name = name then dataSet.entries else entriesOf dataSets name := by
  rw [entriesOf, List.find?_cons]
  by_cases hname : dataSet.name = name
  · rw [if_pos hname, decide_eq_true hname]
    rfl
  · rw [if_neg hname, decide_eq_false hname]
    rfl

/-- A new data set has no references yet. -/
theorem entriesOf_new {dataSet : SclDataSet} (hempty : dataSet.entries = []) :
    entriesOf (dataSets ++ [dataSet]) name = entriesOf dataSets name := by
  induction dataSets with
  | nil =>
    rw [List.nil_append, entriesOf_cons, hempty]
    split <;> rfl
  | cons other dataSets ih => rw [List.cons_append, entriesOf_cons, entriesOf_cons, ih]

def addEntry (entry : SclDataSetEntry) (dataSet : SclDataSet) : SclDataSet :=
  { dataSet with entries := dataSet.entries ++ [entry] }

theorem names_modify (dataSets : List SclDataSet) (index : ℕ) (entry : SclDataSetEntry) :
    (dataSets.modify index (addEntry entry)).map SclDataSet.name =
      dataSets.map SclDataSet.name := by
  induction dataSets generalizing index with
  | nil => cases index <;> rfl
  | cons dataSet dataSets ih =>
    cases index with
    | zero => rfl
    | succ index =>
      rw [List.modify_succ_cons, List.map_cons, List.map_cons, ih]

/-- A reference goes to the one data set that is current. -/
theorem entriesOf_modify (name : Bytes) (entry : SclDataSetEntry) {index : ℕ}
    {current : SclDataSet}
    (hnames : (dataSets.map SclDataSet.name).Nodup) (hcurrent : dataSets[index]? = some current) :
    entriesOf (dataSets.modify index (addEntry entry)) name =
      entriesOf dataSets name ++ if current.name = name then [entry] else [] := by
  induction dataSets generalizing index with
  | nil => cases hcurrent
  | cons dataSet dataSets ih =>
    rw [List.map_cons, List.nodup_cons] at hnames
    cases index with
    | zero =>
      cases hcurrent
      rw [List.modify_zero_cons, entriesOf_cons, entriesOf_cons]
      by_cases hname : current.name = name
      · rw [if_pos hname, if_pos hname]
        exact if_pos hname
      · rw [if_neg hname, if_neg hname, List.append_nil]
        exact if_neg hname
    | succ index =>
      rw [List.getElem?_cons_succ] at hcurrent
      rw [List.modify_succ_cons, entriesOf_cons, entriesOf_cons, ih hnames.2 hcurrent]
      by_cases hname : dataSet.name = name
      · have hother : current.name ≠ name := by
          intro hsame
          refine hnames.1 ?_
          rw [hname, ← hsame]
          exact List.mem_map_of_mem (List.mem_of_getElem? hcurrent)
        rw [if_pos hname, if_pos hname, if_neg hother, List.append_nil]
      · rw [if_neg hname, if_neg hname]

end DataSets

namespace SclParser

/-- The place of a reader in its document. -/
def place (p : SclParser) (name : Bytes) : Place :=
  ⟨p.stack.map fun element => localName element.name,
    (p.currentDataSet.bind fun index => p.definition.dataSets[index]?).any fun dataSet =>
      dataSet.name = name⟩

/-- Data sets have names of their own, and the current one exists. -/
structure Tracks (p : SclParser) : Prop where
  names : (p.definition.dataSets.map SclDataSet.name).Nodup
  current : ∀ index ∈ p.currentDataSet, index < p.definition.dataSets.length

section Steps

variable {p q : SclParser} {name : Bytes}

theorem place_inIed (p : SclParser) (name : Bytes) : (p.place name).inIed = p.inIed := by
  rw [Place.inIed, place, inIed]
  induction p.stack with
  | nil => rfl
  | cons element stack ih =>
    rw [List.map_cons, List.contains_cons, List.any_cons, ih]
    congr 1
    rw [Bool.eq_iff_iff, beq_iff_eq, decide_eq_true_eq]
    exact eq_comm

theorem appendText_place (p : SclParser) (text name : Bytes) :
    (p.appendText text).place name = p.place name := by
  rw [appendText]
  split
  · rfl
  · next element stack hstack =>
    rw [place, place, hstack]
    rfl

theorem appendText_definition (p : SclParser) (text : Bytes) :
    (p.appendText text).definition = p.definition ∧
      (p.appendText text).currentDataSet = p.currentDataSet := by
  rw [appendText]
  split <;> exact ⟨rfl, rfl⟩

theorem place_of_outline (h : q.outline = p.outline) (name : Bytes) : q.place name = p.place name := by
  obtain ⟨hstack, hdataSets, hcurrent⟩ : q.stack = p.stack ∧
      q.definition.dataSets = p.definition.dataSets ∧ q.currentDataSet = p.currentDataSet := by
    simpa [outline] using h
  rw [place, place, hstack, hdataSets, hcurrent]

theorem tracks_of_outline (hp : p.Tracks) (h : q.outline = p.outline) : q.Tracks := by
  obtain ⟨-, hdataSets, hcurrent⟩ : q.stack = p.stack ∧
      q.definition.dataSets = p.definition.dataSets ∧ q.currentDataSet = p.currentDataSet := by
    simpa [outline] using h
  constructor
  · rw [hdataSets]
    exact hp.names
  · rw [hdataSets, hcurrent]
    exact hp.current

/-- What an opening tag does, before its element is on the stack. -/
structure Collects (p q : SclParser) (element : Element) : Prop where
  tracks : q.Tracks
  names (name : Bytes) : (q.place name).names = (p.place name).names
  inside (name : Bytes) : (q.place name).inside =
    if p.inIed = true ∧ localName element.name = ascii "DataSet" then
      decide (element.valueOf "name" = some name)
    else (p.place name).inside
  entries (name : Bytes) : entriesOf q.definition.dataSets name =
    entriesOf p.definition.dataSets name ++
      if p.inIed = true ∧ localName element.name = ascii "FCDA" ∧ (p.place name).inside = true then
        [entryOf element]
      else []

variable {element : Element}

theorem collects_of_outline (hp : p.Tracks) (h : q.outline = p.outline)
    (hdataSet : ¬(p.inIed = true ∧ localName element.name = ascii "DataSet"))
    (hfcda : ¬(p.inIed = true ∧ localName element.name = ascii "FCDA")) :
    Collects p q element where
  tracks := tracks_of_outline hp h
  names name := by rw [place_of_outline h]
  inside name := by rw [place_of_outline h, if_neg hdataSet]
  entries name := by
    have hdataSets : q.definition.dataSets = p.definition.dataSets :=
      congrArg (fun outline => outline.2.1) h
    rw [hdataSets, if_neg (fun hall => hfcda ⟨hall.1, hall.2.1⟩), List.append_nil]

theorem enterDataSet_collects (hp : p.Tracks) (h : p.enterDataSet element = .ok q)
    (hname : localName element.name = ascii "DataSet") (hinside : p.inIed = true) :
    Collects p q element := by
  have hnotFcda : ascii "DataSet" ≠ ascii "FCDA" := by decide
  rw [enterDataSet] at h
  split at h
  · cases h
  · next own hown =>
    split at h
    · cases h
    · next hnew =>
      cases h
      refine ⟨⟨?_, ?_⟩, ?_, ?_, ?_⟩
      · rw [List.map_append, List.nodup_append]
        refine ⟨hp.names, by simp, ?_⟩
        rintro other hother new hmem rfl
        obtain ⟨dataSet, hdataSet, rfl⟩ := List.mem_map.mp hother
        refine hnew (List.any_eq_true.mpr ⟨dataSet, hdataSet, ?_⟩)
        simpa using hmem
      · intro index hindex
        cases hindex
        simp
      · intro name
        rfl
      · intro name
        rw [if_pos ⟨hinside, hname⟩, hown]
        simp [place]
      · intro name
        rw [if_neg (fun hall => hnotFcda (hname.symm.trans hall.2.1)), List.append_nil]
        exact entriesOf_new rfl

theorem enterFcda_collects (hp : p.Tracks) (hname : localName element.name = ascii "FCDA")
    (hinside : p.inIed = true) :
    Collects p (p.currentDataSet.elim p fun index => p.enterFcda index element) element := by
  have hnotDataSet : ¬(p.inIed = true ∧ localName element.name = ascii "DataSet") := by
    rw [hname]
    exact fun h => absurd h.2 (by decide)
  cases hcurrent : p.currentDataSet with
  | none =>
    refine ⟨hp, fun name => rfl, fun name => by rw [if_neg hnotDataSet]; rfl, fun name => ?_⟩
    have hnot : ¬(p.place name).inside = true := by
      rw [place, hcurrent]
      exact Bool.false_ne_true
    rw [if_neg (fun hall => hnot hall.2.2), List.append_nil]
    rfl
  | some index =>
    obtain ⟨current, hdataSet⟩ : ∃ current, p.definition.dataSets[index]? = some current :=
      ⟨_, List.getElem?_eq_getElem (hp.current index hcurrent)⟩
    have hplace (name : Bytes) : (p.place name).inside = decide (current.name = name) := by
      rw [place, hcurrent]
      simp [hdataSet]
    refine ⟨⟨?_, ?_⟩, fun name => rfl, fun name => ?_, fun name => ?_⟩
    · have hnames := names_modify p.definition.dataSets index (entryOf element)
      have hown := hp.names
      rw [← hnames] at hown
      exact hown
    · intro index' hindex
      have hlength : (p.definition.dataSets.modify index (addEntry (entryOf element))).length =
          p.definition.dataSets.length := List.length_modify ..
      have hbound := hp.current index' hindex
      rw [← hlength] at hbound
      exact hbound
    · rw [if_neg hnotDataSet, hplace]
      show ((p.currentDataSet.bind fun i =>
        (p.definition.dataSets.modify index (addEntry (entryOf element)))[i]?).any _) = _
      rw [hcurrent, Option.bind_some, List.getElem?_modify, hdataSet]
      simp [addEntry]
    · have hmodify := entriesOf_modify name (entryOf element) hp.names hdataSet
      rw [hplace]
      refine hmodify.trans ?_
      by_cases hsame : current.name = name
      · rw [if_pos hsame, if_pos ⟨hinside, hname, decide_eq_true hsame⟩]
      · rw [if_neg hsame, if_neg (fun hall => hsame (of_decide_eq_true hall.2.2))]

theorem enter_collects (hp : p.Tracks) (h : p.enter element = .ok q) : Collects p q element := by
  by_cases hinside : p.inIed = true
  · by_cases hdataSet : localName element.name = ascii "DataSet"
    · rw [p.enter_dataSet hdataSet hinside] at h
      exact enterDataSet_collects hp h hdataSet hinside
    · by_cases hfcda : localName element.name = ascii "FCDA"
      · rw [p.enter_fcda hfcda hinside] at h
        cases h
        exact enterFcda_collects hp hfcda hinside
      · exact collects_of_outline hp (p.enter_keeps hdataSet hfcda q h) (fun h => hdataSet h.2)
          (fun h => hfcda h.2)
  · have hkept : q.outline = p.outline := by
      by_cases hname : localName element.name = ascii "DataSet" ∨
          localName element.name = ascii "FCDA"
      · rw [p.enter_outside hname hinside] at h
        cases h
        rfl
      · rw [not_or] at hname
        exact p.enter_keeps hname.1 hname.2 q h
    exact collects_of_outline hp hkept (fun h => hinside h.1) (fun h => hinside h.1)

theorem entered_collects (hp : p.Tracks) (h : p.entered element = .ok q) :
    Collects p q element := by
  rw [entered] at h
  cases hroot : p.admitRoot element with
  | error error =>
    rw [hroot] at h
    cases h
  | ok p₁ =>
    rw [hroot] at h
    have hkept := p.admitRoot_keeps element p₁ hroot
    have hcollects := enter_collects (tracks_of_outline hp hkept) h
    have hdataSets : p₁.definition.dataSets = p.definition.dataSets :=
      congrArg (fun outline => outline.2.1) hkept
    have hinIed : p₁.inIed = p.inIed := by
      rw [inIed, inIed, admitRoot_stack hroot]
    refine ⟨hcollects.tracks, fun name => ?_, fun name => ?_, fun name => ?_⟩
    · rw [hcollects.names, place_of_outline hkept]
    · rw [hcollects.inside, place_of_outline hkept, hinIed]
    · rw [hcollects.entries, place_of_outline hkept, hinIed, hdataSets]

/-- What one turn does to the data sets, whichever of them is looked at. -/
structure Meets (p q : SclParser) (turn : Turn) : Prop where
  tracks : q.Tracks
  place (name : Bytes) : q.place name = (p.place name).next name turn
  entries (name : Bytes) : entriesOf q.definition.dataSets name =
    entriesOf p.definition.dataSets name ++ (p.place name).entry turn

theorem openElement_meets (hp : p.Tracks) {selfClosing : Bool} {text : Bytes}
    (h : p.openElement element selfClosing = .ok q) :
    Meets p q ⟨text, some (.opening element selfClosing)⟩ := by
  rw [openElement_eq] at h
  cases hentered : p.entered element with
  | error error =>
    rw [hentered] at h
    cases h
  | ok p₁ =>
    rw [hentered, Except.bind] at h
    have hcollects := entered_collects hp hentered
    -- the element that has been opened is pushed, or has closed itself
    have hq : q.definition = p₁.definition ∧ q.currentDataSet = p₁.currentDataSet ∧
        q.stack = if selfClosing then p₁.stack else element :: p₁.stack := by
      cases selfClosing with
      | true =>
        cases h
        exact ⟨rfl, rfl, rfl⟩
      | false =>
        rw [if_neg Bool.false_ne_true] at h
        split at h
        · cases h
        · cases h
          exact ⟨rfl, rfl, rfl⟩
    obtain ⟨hdefinition, hcurrent, hstack⟩ := hq
    refine ⟨⟨?_, ?_⟩, fun name => ?_, fun name => ?_⟩
    · rw [hdefinition]
      exact hcollects.tracks.names
    · rw [hdefinition, hcurrent]
      exact hcollects.tracks.current
    · have hinside : (q.place name).inside = (p₁.place name).inside := by
        rw [place, place, hdefinition, hcurrent]
      have hnames : (q.place name).names =
          if selfClosing then (p₁.place name).names
          else localName element.name :: (p₁.place name).names := by
        rw [place, hstack]
        cases selfClosing <;> rfl
      rw [Place.next_opening, place_inIed, ← hcollects.inside name, ← hcollects.names name,
        ← hinside, ← hnames]
    · rw [Place.entry, place_inIed, hdefinition]
      exact hcollects.entries name

theorem describeValue_fields (p : SclParser) (name text : Bytes) :
    (p.describeValue name text).stack = p.stack ∧
      (p.describeValue name text).definition.dataSets = p.definition.dataSets ∧
      (p.describeValue name text).currentDataSet = p.currentDataSet := by
  rw [describeValue]
  split
  · exact ⟨rfl, describe_dataSets .., rfl⟩
  · exact ⟨rfl, rfl, rfl⟩

theorem leave_fields (p : SclParser) (name : Bytes) :
    (p.leave name).definition = p.definition ∧
      (p.leave name).currentDataSet =
        if name = ascii "DataSet" then none else p.currentDataSet := by
  rw [leave]
  split
  · next hname =>
    rw [hname]
    exact ⟨rfl, (if_neg (by decide)).symm⟩
  split
  · next hname =>
    rw [hname]
    exact ⟨rfl, (if_neg (by decide)).symm⟩
  split
  · exact ⟨rfl, rfl⟩
  · split <;> exact ⟨rfl, rfl⟩

theorem closeElement_meets (hp : p.Tracks) {closed text : Bytes}
    (h : p.closeElement closed = .ok q) : Meets p q ⟨text, some (.closing closed)⟩ := by
  rw [closeElement] at h
  split at h
  · cases h
  · next completed stack hstack =>
    split at h
    · cases h
    · cases h
      obtain ⟨hstack', hdataSets, hcurrent⟩ :=
        describeValue_fields { p with stack := stack } (localName closed) completed.text
      obtain ⟨hdefinition, hleft⟩ := leave_fields
        (describeValue { p with stack := stack } (localName closed) completed.text)
        (localName closed)
      rw [hcurrent] at hleft
      refine ⟨⟨?_, ?_⟩, fun name => ?_, fun name => ?_⟩
      · rw [hdefinition, hdataSets]
        exact hp.names
      · rw [hdefinition, hdataSets, hleft]
        split
        · intro index hindex
          cases hindex
        · exact hp.current
      · rw [place, leave_stack, hstack', hdefinition, hdataSets, hleft, Place.next_closing, place,
          hstack]
        by_cases hname : localName closed = ascii "DataSet"
        · rw [if_pos hname, decide_eq_false (not_not.mpr hname), Bool.and_false]
          rfl
        · rw [if_neg hname, decide_eq_true hname, Bool.and_true]
          rfl
      · rw [hdefinition, hdataSets]
        exact (List.append_nil _).symm

theorem meet_meets (hp : p.Tracks) {turn : Turn} (h : p.meet turn = .ok q) : Meets p q turn := by
  obtain ⟨text, tag⟩ := turn
  obtain ⟨hdefinition, hcurrent⟩ := p.appendText_definition text
  have hp' : (p.appendText text).Tracks := by
    constructor
    · rw [hdefinition]
      exact hp.names
    · rw [hdefinition, hcurrent]
      exact hp.current
  have hback {turn : Turn} (hmeets : Meets (p.appendText text) q turn) : Meets p q turn := by
    refine ⟨hmeets.tracks, fun name => ?_, fun name => ?_⟩
    · rw [hmeets.place, appendText_place]
    · rw [hmeets.entries, appendText_place, hdefinition]
  cases tag with
  | none =>
    cases h
    exact ⟨hp', appendText_place p text, fun name => by
      rw [hdefinition]
      exact (List.append_nil _).symm⟩
  | some tag =>
    cases tag with
    | closing closed => exact hback (closeElement_meets hp' h)
    | opening element selfClosing => exact hback (openElement_meets hp' h)

/-- The reader has collected what its document lists. -/
theorem run_entries (hp : p.Tracks) {ts : List Turn} (h : p.run ts = .ok q) (name : Bytes) :
    entriesOf q.definition.dataSets name =
      entriesOf p.definition.dataSets name ++ (p.place name).listed name ts := by
  induction ts generalizing p with
  | nil =>
    cases h
    exact (List.append_nil _).symm
  | cons turn ts ih =>
    rw [run] at h
    cases hmeet : p.meet turn with
    | error error =>
      rw [hmeet] at h
      cases h
    | ok p₁ =>
      rw [hmeet] at h
      have hmeets := meet_meets hp hmeet
      rw [ih hmeets.tracks h, hmeets.entries, hmeets.place, Place.listed, List.append_assoc]

end Steps

end SclParser

/-! ### The approved model -/

/-- A reference to a data attribute of the logical device. -/
def approvedReference (logicalDevice : Bytes) (lnClass doName daName fc : String) :
    SclDataSetEntry :=
  ⟨logicalDevice, [], ascii lnClass, ascii "1", ascii doName, ascii daName, ascii fc⟩

def telemetry (logicalDevice : Bytes) : List SclDataSetEntry :=
  [approvedReference logicalDevice "GGIO" "AnIn1" "mag.f" "MX",
    approvedReference logicalDevice "GGIO" "AnIn2" "mag.f" "MX",
    approvedReference logicalDevice "GGIO" "AnIn3" "mag.f" "MX",
    approvedReference logicalDevice "GGIO" "AnIn4" "mag.f" "MX",
    approvedReference logicalDevice "GGIO" "IntIn1" "stVal" "ST",
    approvedReference logicalDevice "SPDC" "PaDschAlm" "stVal" "ST"]

def communicationAlarm (logicalDevice : Bytes) : SclDataSetEntry :=
  approvedReference logicalDevice "GGIO" "Ind1" "stVal" "ST"

def dischargeAlarm (logicalDevice : Bytes) : SclDataSetEntry :=
  approvedReference logicalDevice "SPDC" "PaDschAlm" "stVal" "ST"

/-- The model that the communication server of the program is made for. -/
structure Approved (definition : SclModelDefinition) : Prop where
  dataSets : definition.dataSets.length = 2
  reports : definition.reports.length = 2
  measurements : ∃ dataSet, findDataset definition "DSMeasurements" = some dataSet ∧
    ∀ reference ∈ telemetry definition.logicalDevice, dataSet.entries.count reference = 1
  state : ∃ dataSet, findDataset definition "DSState" = some dataSet ∧
    communicationAlarm definition.logicalDevice ∈ dataSet.entries ∧
      dischargeAlarm definition.logicalDevice ∈ dataSet.entries
  devices : ∀ dataSet ∈ definition.dataSets, ∀ reference ∈ dataSet.entries,
    reference.ldInst = definition.logicalDevice
  telemetryReport : ∃ report ∈ definition.reports,
    report.name = ascii "RPMeasurements" ∧ report.dataSet = ascii "DSMeasurements"
  stateReport : ∃ report ∈ definition.reports,
    report.name = ascii "RPState" ∧ report.dataSet = ascii "DSState"

/-- The references that are approved one by one. -/
theorem approvedEntry_cases {entry : SclDataSetEntry} {logicalDevice : Bytes}
    (hdevice : entry.ldInst = logicalDevice) (h : approvedEntry entry = true) :
    entry ∈ telemetry logicalDevice ∨ entry = communicationAlarm logicalDevice := by
  obtain ⟨ldInst, prefix', lnClass, lnInst, doName, daName, fc⟩ := entry
  subst hdevice
  rw [approvedEntry] at h
  split at h
  · cases h
  · next hfixed =>
    simp only [not_or, not_and, not_not] at hfixed
    obtain ⟨rfl, rfl, hclass⟩ := hfixed
    simp only [telemetry, communicationAlarm, approvedReference, List.mem_cons, List.not_mem_nil,
      SclDataSetEntry.mk.injEq, true_and, or_false]
    split at h
    · next hggio =>
      have hclass' : lnClass = ascii "GGIO" := hggio
      split at h
      · next hstatus =>
        obtain ⟨hda, hfc⟩ := of_decide_eq_true h
        rcases hstatus with hdo | hdo
        · exact .inr ⟨hclass', hdo, hda, hfc⟩
        · exact .inl (.inr (.inr (.inr (.inr (.inl ⟨hclass', hdo, hda, hfc⟩)))))
      · obtain ⟨hdo, hda, hfc⟩ := of_decide_eq_true h
        rcases hdo with hdo | hdo | hdo | hdo
        · exact .inl (.inl ⟨hclass', hdo, hda, hfc⟩)
        · exact .inl (.inr (.inl ⟨hclass', hdo, hda, hfc⟩))
        · exact .inl (.inr (.inr (.inl ⟨hclass', hdo, hda, hfc⟩)))
        · exact .inl (.inr (.inr (.inr (.inl ⟨hclass', hdo, hda, hfc⟩))))
    · next hggio =>
      obtain ⟨hdo, hda, hfc⟩ := of_decide_eq_true h
      exact .inl (.inr (.inr (.inr (.inr (.inr ⟨hclass hggio, hdo, hda, hfc⟩)))))

theorem telemetry_doNames (logicalDevice : Bytes) :
    (telemetry logicalDevice).map SclDataSetEntry.doName =
      [ascii "AnIn1", ascii "AnIn2", ascii "AnIn3", ascii "AnIn4", ascii "IntIn1",
        ascii "PaDschAlm"] :=
  rfl

theorem telemetry_nodup (logicalDevice : Bytes) : (telemetry logicalDevice).Nodup := by
  refine List.Nodup.of_map SclDataSetEntry.doName ?_
  rw [telemetry_doNames]
  decide

theorem telemetry_doName {logicalDevice : Bytes} {entry : SclDataSetEntry}
    (h : entry ∈ telemetry logicalDevice) : entry.doName ≠ ascii "Ind1" := by
  have hmem := List.mem_map_of_mem (f := SclDataSetEntry.doName) h
  rw [telemetry_doNames] at hmem
  intro hname
  rw [hname] at hmem
  revert hmem
  decide

/-- Six approved references are all of the telemetry just when none of them is there twice and
none is the communication alarm. -/
theorem telemetry_iff {logicalDevice : Bytes} {entries : List SclDataSetEntry}
    (hlength : entries.length = 6)
    (happroved : ∀ entry ∈ entries,
      entry ∈ telemetry logicalDevice ∨ entry = communicationAlarm logicalDevice) :
    (∀ reference ∈ telemetry logicalDevice, entries.count reference = 1) ↔
      entries.Nodup ∧ ∀ entry ∈ entries, entry.doName ≠ ascii "Ind1" := by
  constructor
  · intro hcount
    have hsubset : telemetry logicalDevice ⊆ entries := by
      intro reference hreference
      rw [← List.count_pos_iff, hcount reference hreference]
      exact Nat.one_pos
    have hperm : (telemetry logicalDevice).Perm entries :=
      (List.subperm_of_subset (telemetry_nodup logicalDevice) hsubset).perm_of_length_le
        (by rw [hlength]; rfl)
    refine ⟨hperm.nodup_iff.mp (telemetry_nodup logicalDevice), ?_⟩
    intro entry hentry
    exact telemetry_doName (hperm.mem_iff.mpr hentry)
  · rintro ⟨hnodup, hname⟩
    have hsubset : entries ⊆ telemetry logicalDevice := by
      intro entry hentry
      rcases happroved entry hentry with htelemetry | rfl
      · exact htelemetry
      · exact absurd rfl (hname _ hentry)
    have hperm : entries.Perm (telemetry logicalDevice) :=
      (List.subperm_of_subset hnodup hsubset).perm_of_length_le (by rw [hlength]; rfl)
    intro reference hreference
    exact List.count_eq_one_of_mem hnodup (hperm.mem_iff.mpr hreference)

theorem dischargeAlarm_of_doName {logicalDevice : Bytes} {entry : SclDataSetEntry}
    (h : entry ∈ telemetry logicalDevice ∨ entry = communicationAlarm logicalDevice)
    (hname : entry.doName = ascii "PaDschAlm") : entry = dischargeAlarm logicalDevice := by
  simp only [telemetry, List.mem_cons, List.not_mem_nil, or_false] at h
  rcases h with (rfl | rfl | rfl | rfl | rfl | rfl) | rfl
  case inl.inr.inr.inr.inr.inr => rfl
  all_goals exact absurd hname (by show ¬ascii _ = ascii _; decide)

/-! ### What is checked -/

/-- The data set with the communication alarm, which it may have already. -/
def withCommunication (logicalDevice : Bytes) (dataSet : SclDataSet) : SclDataSet :=
  if dataSet.entries.any fun entry =>
      decide (entry.lnClass = ascii "GGIO" ∧ entry.lnInst = ascii "1" ∧
        entry.doName = ascii "Ind1" ∧ entry.daName = ascii "stVal" ∧ entry.fc = ascii "ST") then
    dataSet
  else { dataSet with entries := dataSet.entries ++ [communicationAlarm logicalDevice] }

theorem withCommunication_name (logicalDevice : Bytes) (dataSet : SclDataSet) :
    (withCommunication logicalDevice dataSet).name = dataSet.name := by
  rw [withCommunication]
  split <;> rfl

theorem mem_withCommunication {logicalDevice : Bytes} {dataSet : SclDataSet}
    {entry : SclDataSetEntry} (h : entry ∈ (withCommunication logicalDevice dataSet).entries) :
    entry ∈ dataSet.entries ∨ entry = communicationAlarm logicalDevice := by
  rw [withCommunication] at h
  split at h
  · exact .inl h
  · exact (List.mem_append.mp h).imp_right List.mem_singleton.mp

theorem mem_withCommunication_of_mem (logicalDevice : Bytes) {dataSet : SclDataSet}
    {entry : SclDataSetEntry} (h : entry ∈ dataSet.entries) :
    entry ∈ (withCommunication logicalDevice dataSet).entries := by
  rw [withCommunication]
  split
  · exact h
  · exact List.mem_append_left _ h

theorem communication_mem {logicalDevice : Bytes} {dataSet : SclDataSet}
    (happroved : ∀ entry ∈ (withCommunication logicalDevice dataSet).entries,
      entry ∈ telemetry logicalDevice ∨ entry = communicationAlarm logicalDevice) :
    communicationAlarm logicalDevice ∈ (withCommunication logicalDevice dataSet).entries := by
  by_cases hany : (dataSet.entries.any fun entry =>
      decide (entry.lnClass = ascii "GGIO" ∧ entry.lnInst = ascii "1" ∧
        entry.doName = ascii "Ind1" ∧ entry.daName = ascii "stVal" ∧ entry.fc = ascii "ST")) = true
  · obtain ⟨entry, hentry, hfields⟩ := List.any_eq_true.mp hany
    have hmem := mem_withCommunication_of_mem logicalDevice hentry
    rcases happroved entry hmem with htelemetry | rfl
    · exact absurd (of_decide_eq_true hfields).2.2.1 (telemetry_doName htelemetry)
    · exact hmem
  · rw [withCommunication, if_neg hany]
    exact List.mem_append_right _ List.mem_cons_self

/-- A change of the first data set with a name is a change of that one only. -/
theorem find_modify {change : SclDataSet → SclDataSet}
    (hchange : ∀ dataSet, (change dataSet).name = dataSet.name) (dataSets : List SclDataSet) (own name : Bytes) :
    ((dataSets.modify (dataSets.findIdx fun dataSet => dataSet.name = own) change).find?
        fun dataSet => dataSet.name = name) =
      (dataSets.find? fun dataSet => dataSet.name = name).map fun dataSet =>
        if name = own then change dataSet else dataSet := by
  induction dataSets with
  | nil => rfl
  | cons dataSet dataSets ih =>
    rw [List.findIdx_cons]
    by_cases hown : dataSet.name = own
    · rw [decide_eq_true hown, cond_true, List.modify_zero_cons, List.find?_cons, List.find?_cons,
        hchange]
      by_cases hname : dataSet.name = name
      · rw [decide_eq_true hname]
        show some (change dataSet) = some (if name = own then change dataSet else dataSet)
        rw [if_pos (hname.symm.trans hown)]
      · rw [decide_eq_false hname]
        have hother : name ≠ own := fun hsame => hname (hown.trans hsame.symm)
        cases hfound : dataSets.find? fun dataSet => decide (dataSet.name = name) with
        | none => rfl
        | some found =>
          show some found = some (if name = own then change found else found)
          rw [if_neg hother]
    · rw [decide_eq_false hown, cond_false, List.modify_succ_cons, List.find?_cons,
        List.find?_cons, ih]
      by_cases hname : dataSet.name = name
      · rw [decide_eq_true hname]
        show some dataSet = some (if name = own then change dataSet else dataSet)
        rw [if_neg (fun hsame => hown (hname.trans hsame))]
      · rw [decide_eq_false hname]

theorem findDataset_added (definition : SclModelDefinition) (name : String) :
    findDataset (SclParser.addCommunicationEntry definition) name =
      (findDataset definition name).map fun dataSet =>
        if ascii name = ascii "DSState" then withCommunication definition.logicalDevice dataSet
        else dataSet :=
  find_modify (withCommunication_name definition.logicalDevice) definition.dataSets
    (ascii "DSState") (ascii name)

/-- What the checks behind the last tag say of a model. -/
structure Checked (parsed definition : SclModelDefinition) : Prop where
  measurements : ∃ dataSet, findDataset parsed "DSMeasurements" = some dataSet ∧
    dataSet.entries.length = 6
  state : ∃ dataSet, findDataset parsed "DSState" = some dataSet
  length : parsed.dataSets.length = 2
  dataSets : definition.dataSets = (SclParser.addCommunicationEntry parsed).dataSets
  logicalDevice : definition.logicalDevice = parsed.logicalDevice
  approved : ∀ dataSet ∈ definition.dataSets,
    dataSet.name = ascii "DSMeasurements" ∨ dataSet.name = ascii "DSState" →
      ∀ entry ∈ dataSet.entries,
        entry.ldInst = definition.logicalDevice ∧ approvedEntry entry = true
  reports : definition.reports.length = 2
  telemetryReport : ∃ report ∈ definition.reports,
    report.name = ascii "RPMeasurements" ∧ report.dataSet = ascii "DSMeasurements"
  stateReport : ∃ report ∈ definition.reports,
    report.name = ascii "RPState" ∧ report.dataSet = ascii "DSState"

theorem last_report {reports : List SclReportControl} {name dataSet : String}
    (h : (reports.reverse.find? fun report => report.name = ascii name).map
      SclReportControl.dataSet = some (ascii dataSet)) :
    ∃ report ∈ reports, report.name = ascii name ∧ report.dataSet = ascii dataSet := by
  obtain ⟨report, hfound, hdataSet⟩ := Option.map_eq_some_iff.mp h
  refine ⟨report, List.mem_reverse.mp (List.mem_of_find?_eq_some hfound), ?_, hdataSet⟩
  simpa using List.find?_some hfound

theorem checked_of_finish {p : SclParser} {definition : SclModelDefinition}
    (h : p.finish = .ok definition) : Checked p.definition definition := by
  rw [SclParser.finish] at h
  split at h
  · cases h
  split at h
  · cases h
  cases hdataSets : SclParser.checkDataSets p.definition with
  | error error =>
    rw [hdataSets] at h
    cases h
  | ok checked =>
    rw [hdataSets, Except.bind, SclParser.checkReports] at h
    rw [SclParser.checkDataSets] at hdataSets
    split at hdataSets
    · next measurements state hmeasurements hstate =>
      split at hdataSets
      · cases hdataSets
      · next hcounts =>
        simp only [not_or, not_not] at hcounts
        obtain ⟨hlength, hsix, -, -⟩ := hcounts
        dsimp only at hdataSets
        split at hdataSets
        · next hsupported =>
          cases hdataSets
          split at h
          · cases h
          · next hreports =>
            simp only [not_or, not_not] at hreports
            obtain ⟨htwo, htelemetry, hstateReport⟩ := hreports
            -- only the number of report controls is still set
            obtain ⟨limit, rfl⟩ : ∃ limit, definition =
                { SclParser.addCommunicationEntry p.definition with maxReportControls := limit } := by
              split at h
              · cases h
                exact ⟨2, rfl⟩
              · cases h
                exact ⟨_, rfl⟩
            refine ⟨⟨measurements, hmeasurements, hsix⟩, ⟨state, hstate⟩, hlength, rfl, rfl, ?_, htwo,
              last_report htelemetry, last_report hstateReport⟩
            intro dataSet hdataSet hname entry hentry
            have hall := List.all_eq_true.mp hsupported dataSet hdataSet
            rw [if_neg (by
              rw [not_and_or, not_not, not_not]
              exact hname)] at hall
            have hentry := List.all_eq_true.mp hall entry hentry
            rw [Bool.and_eq_true, decide_eq_true_eq] at hentry
            exact hentry
        · cases hdataSets
    · cases hdataSets

/-- With two data sets, those that are looked for are all there are. -/
theorem names_of_two {dataSets : List SclDataSet} {first second : SclDataSet} {own other : Bytes}
    (hlength : dataSets.length = 2) (hnames : own ≠ other)
    (hfirst : (dataSets.find? fun dataSet => dataSet.name = own) = some first)
    (hsecond : (dataSets.find? fun dataSet => dataSet.name = other) = some second) :
    ∀ dataSet ∈ dataSets, dataSet.name = own ∨ dataSet.name = other := by
  have hown : first.name = own := by simpa using List.find?_some hfirst
  have hother : second.name = other := by simpa using List.find?_some hsecond
  have hne : first ≠ second := fun hsame => hnames (by rw [← hown, ← hother, hsame])
  have hpair : [first, second] ⊆ dataSets := by
    intro dataSet hmem
    rcases List.mem_cons.mp hmem with rfl | hmem
    · exact List.mem_of_find?_eq_some hfirst
    · rw [List.mem_singleton.mp hmem]
      exact List.mem_of_find?_eq_some hsecond
  have hperm : [first, second].Perm dataSets :=
    (List.subperm_of_subset (by simp [hne]) hpair).perm_of_length_le (by rw [hlength]; rfl)
  intro dataSet hdataSet
  rcases List.mem_cons.mp (hperm.mem_iff.mpr hdataSet) with rfl | hmem
  · exact .inl hown
  · rw [List.mem_singleton.mp hmem]
    exact .inr hother

/-- The model is the approved one just when the references of the document are. -/
theorem Checked.approved_iff_entries {parsed definition : SclModelDefinition}
    (h : Checked parsed definition) :
    Approved definition ↔
      ((entriesOf parsed.dataSets (ascii "DSMeasurements")).Nodup ∧
        ∀ entry ∈ entriesOf parsed.dataSets (ascii "DSMeasurements"),
          entry.doName ≠ ascii "Ind1") ∧
      ∃ entry ∈ entriesOf parsed.dataSets (ascii "DSState"), entry.doName = ascii "PaDschAlm" := by
  obtain ⟨measurements, hmeasurements, hsix⟩ := h.measurements
  obtain ⟨state, hstate⟩ := h.state
  have hentries : entriesOf parsed.dataSets (ascii "DSMeasurements") = measurements.entries :=
    congrArg (fun found => (found.map SclDataSet.entries).getD []) hmeasurements
  have hentries' : entriesOf parsed.dataSets (ascii "DSState") = state.entries :=
    congrArg (fun found => (found.map SclDataSet.entries).getD []) hstate
  have hfound : findDataset definition "DSMeasurements" = some measurements := by
    rw [findDataset, h.dataSets]
    have hadded := findDataset_added parsed "DSMeasurements"
    rw [hmeasurements] at hadded
    exact hadded.trans (congrArg some (if_neg (by decide)))
  have hfound' : findDataset definition "DSState" =
      some (withCommunication definition.logicalDevice state) := by
    rw [findDataset, h.dataSets, h.logicalDevice]
    have hadded := findDataset_added parsed "DSState"
    rw [hstate] at hadded
    exact hadded.trans (congrArg some (if_pos rfl))
  have happroved {name : String} {dataSet : SclDataSet}
      (hfound : findDataset definition name = some dataSet)
      (hname : ascii name = ascii "DSMeasurements" ∨ ascii name = ascii "DSState") :
      ∀ entry ∈ dataSet.entries, entry ∈ telemetry definition.logicalDevice ∨
        entry = communicationAlarm definition.logicalDevice := by
    have hown : dataSet.name = ascii name := by simpa using List.find?_some hfound
    intro entry hentry
    obtain ⟨hdevice, hentry⟩ := h.approved dataSet (List.mem_of_find?_eq_some hfound)
      (by rwa [hown]) entry hentry
    exact approvedEntry_cases hdevice hentry
  have hmeasured := telemetry_iff hsix (happroved hfound (.inl rfl))
  rw [hentries, hentries', ← hmeasured]
  constructor
  · intro ha
    obtain ⟨dataSet, hdataSet, hcount⟩ := ha.measurements
    cases hfound.symm.trans hdataSet
    refine ⟨hcount, ?_⟩
    obtain ⟨dataSet', hdataSet', -, halarm⟩ := ha.state
    cases hfound'.symm.trans hdataSet'
    rcases mem_withCommunication halarm with hmem | hsame
    · exact ⟨_, hmem, rfl⟩
    · exact absurd (congrArg SclDataSetEntry.doName hsame) (by show ¬ascii _ = ascii _; decide)
  · rintro ⟨hcount, alarm, halarm, hname⟩
    have htwo : definition.dataSets.length = 2 := by
      rw [h.dataSets]
      exact (List.length_modify ..).trans h.length
    have hnames := names_of_two htwo (by decide) hfound hfound'
    have halarm' := mem_withCommunication_of_mem definition.logicalDevice halarm
    refine ⟨htwo, h.reports, ⟨measurements, hfound, hcount⟩, ⟨_, hfound', ?_, ?_⟩, ?_,
      h.telemetryReport, h.stateReport⟩
    · exact communication_mem (happroved hfound' (.inr rfl))
    · rwa [← dischargeAlarm_of_doName (happroved hfound' (.inr rfl) alarm halarm') hname]
    · intro dataSet hdataSet entry hentry
      exact (h.approved dataSet hdataSet (hnames dataSet hdataSet) entry hentry).1

/-- The references to the model's data that a document lists: of the approved model, all of the
telemetry and the discharge alarm. -/
def ListsApproved (contents : Bytes) : Prop :=
  ((references contents (ascii "DSMeasurements")).Nodup ∧
    ∀ entry ∈ references contents (ascii "DSMeasurements"), entry.doName ≠ ascii "Ind1") ∧
  ∃ entry ∈ references contents (ascii "DSState"), entry.doName = ascii "PaDschAlm"

theorem parsed_references {contents : Bytes} {ts : List Turn} {last : Bytes} {p : SclParser}
    (hcut : turns contents = .ok (ts, last)) (hrun : SclParser.run {} ts = .ok p) (name : Bytes) :
    entriesOf p.definition.dataSets name = references contents name := by
  have htracks : SclParser.Tracks {} := ⟨List.nodup_nil, fun index hindex => by cases hindex⟩
  rw [SclParser.run_entries htracks hrun name, references, hcut]
  rfl

theorem checked_of_parse {contents : Bytes} {definition : SclModelDefinition}
    (h : parseSclModel contents = .ok definition) :
    ∃ parsed, Checked parsed definition ∧
      ∀ name, entriesOf parsed.dataSets name = references contents name := by
  obtain ⟨-, ts, last, p, hcut, hrun, hfinish⟩ := parseSclModel_ok_iff.mp h
  have hchecked := checked_of_finish hfinish
  rw [(p.appendText_definition last).1] at hchecked
  exact ⟨p.definition, hchecked, parsed_references hcut hrun⟩

/-- An accepted document describes the approved model just when it lists no measurement twice,
does not list the communication alarm among them, and lists the discharge alarm in its state. -/
theorem accepted_model_approved_iff {contents : Bytes} {definition : SclModelDefinition}
    (h : parseSclModel contents = .ok definition) :
    Approved definition ↔ ListsApproved contents := by
  obtain ⟨parsed, hchecked, hreferences⟩ := checked_of_parse h
  rw [hchecked.approved_iff_entries, hreferences, hreferences, ListsApproved]

theorem sample_accepted : ∃ definition, parseSclModel sampleDocument = .ok definition := by
  have hview := outcome_view sample_supported
  rw [sample_outcome] at hview
  cases hparse : parseSclModel sampleDocument with
  | error error =>
    rw [hparse] at hview
    cases hview
  | ok definition => exact ⟨definition, rfl⟩

theorem sample_approved_iff :
    ∃ definition, parseSclModel sampleDocument = .ok definition ∧
      (Approved definition ↔ ListsApproved sampleDocument) := by
  obtain ⟨definition, hparse⟩ := sample_accepted
  exact ⟨definition, hparse, accepted_model_approved_iff hparse⟩

theorem sample_repeats : ¬(references sampleDocument (ascii "DSMeasurements")).Nodup := by
  decide +kernel

/-- A document with one measurement six times is accepted. -/
theorem repeated_reference_accepted :
    ∃ definition, parseSclModel sampleDocument = .ok definition ∧ ¬Approved definition := by
  obtain ⟨definition, hparse⟩ := sample_accepted
  obtain ⟨parsed, hchecked, hreferences⟩ := checked_of_parse hparse
  refine ⟨definition, hparse, ?_⟩
  rw [hchecked.approved_iff_entries, hreferences]
  intro happroved
  exact sample_repeats happroved.1.1

end Uhf.Iec61850
