/-
The store of the ICD file (`web/icd_store`).

An uploaded file overrides the packaged one, and the file it replaces is kept beside it.
`validXml` is the store's own look at a document, before the reader of the IEC 61850 server
sees it.

* `validate_length` — no document beyond the limit is valid;
* `replace_steady`, `restore_steady`, `discardOverride_steady` — what the operations make of
  the two files where nothing fails.
-/
import UhfGateway.Iec61850.SclModel
import UhfGateway.Web.HttpServer
import UhfGateway.Web.StateFiles

namespace Uhf.Web

open Effects Posix Posix.Disk Storage
open Iec61850 (parseName parseName_length skipSpace skipSpace_length behind behind_length contains
  parseAttribute parseAttribute_length unsupported unsupported_length kSclNamespace parseSclModel)

/-! ### Documents -/

/-- The rest of a tag up to its end, which is not in quotes, and the input behind it. -/
def tagTail (quote : Option UInt8) : Bytes → Option (Bytes × Bytes)
  | [] => none
  | c :: input =>
    match quote with
    | some q =>
      (tagTail (if c = q then none else some q) input).map fun (tag, rest) => (c :: tag, rest)
    | none =>
      if c = '>'.toUInt8 then some ([], input)
      else
        (tagTail (if c = '\''.toUInt8 ∨ c = '"'.toUInt8 then some c else none) input).map
          fun (tag, rest) => (c :: tag, rest)

theorem tagTail_length {quote : Option UInt8} {input tag rest : Bytes}
    (h : tagTail quote input = some (tag, rest)) : rest.length < input.length := by
  induction input generalizing quote tag with
  | nil => cases h
  | cons c input ih =>
    have hmap : ∀ {quote}, ((tagTail quote input).map fun (tag, rest) => (c :: tag, rest)) =
        some (tag, rest) → rest.length < (c :: input).length := by
      intro quote hmap
      obtain ⟨⟨tag', rest'⟩, hlater, heq⟩ := Option.map_eq_some_iff.mp hmap
      cases heq
      have hrest := ih hlater
      rw [List.length_cons]
      omega
    rw [tagTail.eq_def] at h
    dsimp only at h
    split at h
    · exact hmap h
    · split at h
      · cases h
        simp
      · exact hmap h

/-- A tag that is none, and one that closes an element, has no name where this looks for it. -/
def hasOpenElement (elementName : Bytes) (input : Bytes) : Bool :=
  match input with
  | [] => false
  | c :: input =>
    if c ≠ '<'.toUInt8 then hasOpenElement elementName input
    else if (ascii "!--").isPrefixOf input then
      match _h : behind (ascii "-->") (input.drop 3) with
      | none => false
      | some rest => hasOpenElement elementName rest
    else
      match _h : parseName input with
      | none => hasOpenElement elementName input
      | some (name, rest) => if name = elementName then true else hasOpenElement elementName rest
termination_by input.length
decreasing_by
  · simp
  · have hrest := behind_length _h
    rw [List.length_drop] at hrest
    rw [List.length_cons]
    omega
  · simp
  · have hrest := parseName_length _h
    rw [List.length_cons]
    omega

def hasAttributeValue (elementName attributeName attributeValue : Bytes) (input : Bytes) : Bool :=
  match input with
  | [] => false
  | c :: input =>
    if c ≠ '<'.toUInt8 then hasAttributeValue elementName attributeName attributeValue input
    else if (ascii "!--").isPrefixOf input then
      match _h : behind (ascii "-->") (input.drop 3) with
      | none => false
      | some rest => hasAttributeValue elementName attributeName attributeValue rest
    else
      match _h : parseName input with
      | none => hasAttributeValue elementName attributeName attributeValue input
      | some (name, inside) =>
        match _htag : tagTail none inside with
        | none => false
        | some (tag, rest) =>
          let marker := attributeName ++ ascii "=\"" ++ attributeValue ++ ascii "\""
          let singleMarker := attributeName ++ ascii "='" ++ attributeValue ++ ascii "'"
          if name = elementName ∧ (contains marker tag || contains singleMarker tag) then true
          else hasAttributeValue elementName attributeName attributeValue rest
termination_by input.length
decreasing_by
  · simp
  · have hrest := behind_length _h
    rw [List.length_drop] at hrest
    rw [List.length_cons]
    omega
  · simp
  · have hinside := parseName_length _h
    have hrest := tagTail_length _htag
    rw [List.length_cons]
    omega

/-- `parse_attributes`: the name of the IED behind a tag. -/
def parseAttributes (elementName iedName : Bytes) (input : Bytes) : Option Bytes :=
  match _h : skipSpace input with
  | [] => some iedName
  | c :: rest =>
    if c = '/'.toUInt8 ∨ c = '>'.toUInt8 then some iedName
    else
      match _hattribute : parseAttribute (c :: rest) with
      | .error _ => none
      | .ok (item, rest) =>
        parseAttributes elementName
          (if elementName = ascii "IED" ∧ item.name = ascii "name" then item.value else iedName) rest
termination_by input.length
decreasing_by
  have hspace := skipSpace_length input
  have hrest := parseAttribute_length _hattribute
  rw [_h] at hspace
  omega

/-- What `valid_xml` keeps from one tag to the next; the innermost element comes first. -/
structure XmlReader where
  stack : List Bytes := []
  rootSeen : Bool := false
  iedName : Bytes := []

namespace XmlReader

def closeElement (r : XmlReader) (input : Bytes) : Option (XmlReader × Bytes) :=
  (parseName (skipSpace input)).bind fun (name, input) =>
    match skipSpace input, r.stack with
    | c :: rest, top :: stack =>
      if c = '>'.toUInt8 ∧ top = name then some ({ r with stack := stack }, rest) else none
    | _, _ => none

/-- The root is the element `SCL` in its namespace, and nothing comes behind it. -/
def admits (r : XmlReader) (name tag : Bytes) : Bool :=
  if !r.rootSeen then
    name = ascii "SCL" && hasAttributeValue (ascii "SCL") (ascii "xmlns") kSclNamespace tag
  else !r.stack.isEmpty

def openElement (r : XmlReader) (input : Bytes) : Option (XmlReader × Bytes) :=
  (parseName (skipSpace input)).bind fun (name, inside) =>
    (tagTail none inside).bind fun (tag, rest) =>
      let selfClosing : Bool := tag.getLast? = some '/'.toUInt8
      (parseAttributes name r.iedName (if selfClosing then tag.dropLast else tag)).bind
        fun iedName =>
          if !r.admits name ('<'.toUInt8 :: input.take (input.length - rest.length)) then none
          else if selfClosing then some ({ r with rootSeen := true, iedName := iedName }, rest)
          else if 64 ≤ r.stack.length then none
          else some ({ stack := name :: r.stack, rootSeen := true, iedName := iedName }, rest)

theorem closeElement_length {r r' : XmlReader} {input rest : Bytes}
    (h : r.closeElement input = some (r', rest)) : rest.length < input.length := by
  obtain ⟨⟨name, inside⟩, hname, h⟩ := Option.bind_eq_some_iff.mp h
  have hbehind := parseName_length hname
  have hspace := skipSpace_length input
  have hspace' := skipSpace_length inside
  dsimp only at h
  split at h
  · next hend _ =>
    rw [hend, List.length_cons] at hspace'
    rw [Option.ite_none_right_eq_some] at h
    cases h.2
    omega
  · cases h

theorem openElement_length {r r' : XmlReader} {input rest : Bytes}
    (h : r.openElement input = some (r', rest)) : rest.length < input.length := by
  obtain ⟨⟨name, inside⟩, hname, h⟩ := Option.bind_eq_some_iff.mp h
  obtain ⟨⟨tag, rest'⟩, htag, h⟩ := Option.bind_eq_some_iff.mp h
  obtain ⟨iedName, -, h⟩ := Option.bind_eq_some_iff.mp h
  have hspace := skipSpace_length input
  have hinside := parseName_length hname
  have hrest := tagTail_length htag
  have heq : rest' = rest := by
    split_ifs at h
    all_goals
      cases h
      rfl
  rw [← heq]
  omega

/-- Text without control characters but those of line ends and tabulators. -/
def plainText (text : Bytes) : Bool :=
  text.all fun c =>
    !(c < 0x20 || c = 0x7F) || c = '\r'.toUInt8 || c = '\n'.toUInt8 || c = '\t'.toUInt8

/-- The loop of `valid_xml`. -/
def read (r : XmlReader) (input : Bytes) : Option XmlReader :=
  if !plainText (input.takeWhile (· ≠ '<'.toUInt8)) then none
  else
    match _hfound : input.dropWhile (· ≠ '<'.toUInt8) with
    | [] => some r
    | _ :: found =>
      if (ascii "!--").isPrefixOf found then
        match _h : behind (ascii "-->") (found.drop 3) with
        | none => none
        | some rest => r.read rest
      else if found.head? = some '?'.toUInt8 then
        match _h : behind (ascii "?>") (found.drop 1) with
        | none => none
        | some rest => r.read rest
      else if found.head? = some '!'.toUInt8 then none
      else if found.head? = some '/'.toUInt8 then
        match _h : r.closeElement (found.drop 1) with
        | none => none
        | some (r, rest) => r.read rest
      else
        match _h : r.openElement found with
        | none => none
        | some (r, rest) => r.read rest
termination_by input.length
decreasing_by
  all_goals
    have hfound : (input.dropWhile (· ≠ '<'.toUInt8)).length ≤ input.length :=
      (List.dropWhile_sublist _).length_le
    rw [_hfound, List.length_cons] at hfound
  · have hrest := behind_length _h
    rw [List.length_drop] at hrest
    omega
  · have hrest := behind_length _h
    rw [List.length_drop] at hrest
    omega
  · have hrest := closeElement_length _h
    rw [List.length_drop] at hrest
    omega
  · have hrest := openElement_length _h
    omega

end XmlReader

def validXml (input : Bytes) : Bool :=
  let has (elementName attributeName attributeValue : String) : Bool :=
    hasAttributeValue (ascii elementName) (ascii attributeName) (ascii attributeValue) input
  !unsupported kMaxIcdBytes input &&
    (XmlReader.read {} input).any (fun r => r.rootSeen && r.stack.isEmpty && !r.iedName.isEmpty) &&
    hasOpenElement (ascii "DataSet") input &&
    has "DataSet" "name" "DSMeasurements" && has "DataSet" "name" "DSState" &&
    has "ReportControl" "name" "RPMeasurements" && has "ReportControl" "name" "RPState" &&
    has "ReportControl" "datSet" "DSMeasurements" && has "ReportControl" "datSet" "DSState" &&
    hasOpenElement (ascii "LDevice") input

/-- `IcdStore::validate`: the name of the IED in a valid document. -/
def validate (contents : Bytes) : Option Bytes :=
  if !validXml contents then none
  else
    match parseSclModel contents with
    | .error _ => none
    | .ok definition => some definition.iedName

theorem validate_length {contents iedName : Bytes} (h : validate contents = some iedName) :
    contents.length ≤ kMaxIcdBytes := by
  rw [validate, Option.ite_none_left_eq_some] at h
  have hvalid := h.1
  simp only [validXml, Bool.not_eq_true', Bool.not_eq_false, Bool.and_eq_true] at hvalid
  exact unsupported_length (by simp_all)

/-! ### The store -/

structure IcdStore where
  overridePath : Bytes
  packagedPath : Bytes

namespace IcdStore

def previousPath (store : IcdStore) : Bytes := store.overridePath ++ ascii ".previous"

/-- `none` if there is no such regular file, it is too large or cannot be read. -/
def readFile (path : Bytes) : Prog stateCalls (Option Bytes) :=
  .call (I := stateCalls) (.inl (.isSymlink path)) fun (symlink : Option Bool) =>
    if symlink ≠ some false then .done none
    else .call (I := stateCalls) (.inl (.isRegularFile path)) fun (regular : Option Bool) =>
      if regular ≠ some true then .done none
      else .call (I := stateCalls) (.inr (.fileSize path)) fun (size : Option ℕ) =>
        match size with
        | none => .done none
        | some size =>
          if kMaxIcdBytes < size then .done none
          else .call (I := stateCalls) (.inr (.readFile path)) fun (contents : Option Bytes) =>
            match contents with
            | none => .done none
            | some contents =>
              .done (if kMaxIcdBytes < contents.length then none else some contents)

def readCurrent (store : IcdStore) : Prog stateCalls (Option Bytes) :=
  readFile store.overridePath >>= fun override =>
    match override with
    | some contents => .done (some contents)
    | none => readFile store.packagedPath

def readPrevious (store : IcdStore) : Prog stateCalls (Option Bytes) := readFile store.previousPath

def status (store : IcdStore) : Prog stateCalls IcdStatus :=
  store.readCurrent >>= fun current =>
    match current with
    | none => store.readPrevious >>= fun _ => .done ⟨false, []⟩
    | some contents =>
      readFile store.overridePath >>= fun override =>
        store.readPrevious >>= fun _ =>
          .done ⟨override.isSome, (validate contents).getD []⟩

/-- `write_atomic`; the descriptor is closed again only if the mode cannot be set. -/
def writeAtomic (path contents : Bytes) : Prog stateCalls Bool :=
  (replaceFile (fun step => step = .fchmod) path contents).inr

def replace (store : IcdStore) (contents : Bytes) : Prog stateCalls IcdReplaceResult :=
  if (validate contents).isNone then .done .invalid
  else
    let write : Prog stateCalls IcdReplaceResult :=
      writeAtomic store.overridePath contents >>= fun written =>
        .done (if written then .replaced else .storageError)
    readFile store.overridePath >>= fun override =>
      match override with
      | none => write
      | some override =>
        writeAtomic store.previousPath override >>= fun kept =>
          if kept then write else .done .storageError

/-- The end of a restore without a previous file; `none` if it throws. -/
def removeOverride (store : IcdStore) : Prog stateCalls (Option IcdRestoreResult) :=
  .call (I := stateCalls) (.inr (.remove store.overridePath)) fun (removed : Option Bool) =>
    match removed with
    | none => .done none
    | some false => .done (some .storageError)
    | some true =>
      .call (I := stateCalls) (.inr (.remove store.previousPath)) fun (removed : Option Bool) =>
        .done (some (if removed.isSome then .restored else .storageError))

def restore (store : IcdStore) : Prog stateCalls (Option IcdRestoreResult) :=
  readFile store.overridePath >>= fun override =>
    match override with
    | none => .done (some .noOverride)
    | some override =>
      store.readPrevious >>= fun previous =>
        match previous with
        | none => store.removeOverride
        | some previous =>
          writeAtomic store.previousPath override >>= fun kept =>
            if !kept then .done (some .storageError)
            else
              writeAtomic store.overridePath previous >>= fun written =>
                .done (some (if written then .restored else .storageError))

def discardOverride (store : IcdStore) : Prog stateCalls Bool :=
  .call (I := stateCalls) (.inr (.remove store.overridePath)) fun (removed : Option Bool) =>
    match removed with
    | none => .done false
    | some true => .done true
    | some false =>
      .call (I := stateCalls) (.inl (.present store.overridePath)) fun (present : Option Bool) =>
        .done (present ≠ some true)

end IcdStore

/-! ### The two files -/

/-- A file that is not too large. -/
def readable (contents : Option Bytes) : Option Bytes :=
  contents.filter fun contents => contents.length ≤ kMaxIcdBytes

/-- The override and the file it has replaced. -/
@[ext] structure IcdFiles where
  override : Option Bytes
  previous : Option Bytes

namespace IcdFiles

/-- After a document has been put in place of the override. -/
def replaced (files : IcdFiles) (contents : Bytes) : IcdFiles where
  override := some contents
  previous := (readable files.override).or files.previous

/-- After the override has been taken back; without one there is nothing to take back. -/
def restored (files : IcdFiles) : IcdFiles :=
  match readable files.previous with
  | some previous => ⟨some previous, readable files.override⟩
  | none => ⟨none, none⟩

def discarded (files : IcdFiles) : IcdFiles := { files with override := none }

end IcdFiles

namespace IcdStore

def files (store : IcdStore) (d : Disk) : IcdFiles :=
  ⟨d.content store.overridePath, d.content store.previousPath⟩

section Steady

variable {store : IcdStore} {d d' : Disk} {path contents : Bytes}

theorem overridePath_ne_previous : store.overridePath ≠ store.previousPath := by
  intro h
  have hlength := congrArg List.length h
  rw [previousPath, List.length_append] at hlength
  simp [ascii] at hlength

theorem previousPath_ne_temporary : store.previousPath ≠ store.overridePath ++ kTemporary := by
  intro h
  exact absurd (List.append_cancel_left h) (by decide)

theorem overridePath_ne_temporary : store.overridePath ≠ store.previousPath ++ kTemporary := by
  intro h
  have hlength := congrArg List.length h
  rw [previousPath, List.length_append, List.length_append] at hlength
  simp [ascii] at hlength
  omega

theorem files_renewed_override (h : Renewed d store.overridePath contents d') :
    store.files d' = { store.files d with override := some contents } := by
  have hoverride := h store.overridePath (Config.ne_temporary _)
  have hprevious := h store.previousPath previousPath_ne_temporary
  rw [Function.update_self] at hoverride
  rw [Function.update_of_ne overridePath_ne_previous.symm] at hprevious
  rw [files, hoverride, hprevious]
  rfl

theorem files_renewed_previous (h : Renewed d store.previousPath contents d') :
    store.files d' = { store.files d with previous := some contents } := by
  have hoverride := h store.overridePath overridePath_ne_temporary
  have hprevious := h store.previousPath (Config.ne_temporary _)
  rw [Function.update_of_ne overridePath_ne_previous] at hoverride
  rw [Function.update_self] at hprevious
  rw [files, hoverride, hprevious]
  rfl

theorem readFile_steady (path : Bytes) (d : Disk) :
    (readFile path).Ensures steadyDisk (fun _ => True)
      (fun contents d' => d' = d ∧ contents = readable (d.content path)) d := by
  refine ⟨fun _ => trivial, fun _ _ => trivial, ?_⟩
  rintro symlink d' ⟨⟨-, hsymlink⟩, hd : d' = d⟩
  rw [hd]
  dsimp only
  split_ifs with hs
  · -- an error of the first look means that there is no file
    refine ⟨fun _ => trivial, rfl, ?_⟩
    cases hcontent : d.content path with
    | none => rfl
    | some contents => exact absurd (hsymlink (by rw [hcontent]; rfl)) hs
  · refine ⟨fun _ => trivial, fun _ _ => trivial, ?_⟩
    rintro regular d' ⟨hregular, hd : d' = d⟩
    rw [hd]
    dsimp only
    cases hcontent : d.content path with
    | none =>
      rw [if_pos fun h => by simpa [hcontent] using hregular.mp h]
      exact ⟨fun _ => trivial, rfl, rfl⟩
    | some contents =>
      rw [if_neg (not_not.mpr (hregular.mpr (by rw [hcontent]; rfl)))]
      refine ⟨fun _ => trivial, fun _ _ => trivial, ?_⟩
      rintro size d' ⟨hsize : size = _, hd : d' = d⟩
      rw [hd, hsize, hcontent]
      show (ite (kMaxIcdBytes < contents.length) _ _ : Prog stateCalls _).Ensures _ _ _ _
      split_ifs with hlarge
      · refine ⟨fun _ => trivial, rfl, ?_⟩
        rw [readable, Option.filter_some, if_neg (by simpa using hlarge)]
      · refine ⟨fun _ => trivial, fun _ _ => trivial, ?_⟩
        rintro read d' ⟨hread : read = _, hd : d' = d⟩
        rw [hd, hread, hcontent]
        refine ⟨fun _ => trivial, rfl, ?_⟩
        rw [if_neg hlarge, readable, Option.filter_some, if_pos (by simpa using hlarge)]

theorem readCurrent_steady (store : IcdStore) (d : Disk) :
    store.readCurrent.Ensures steadyDisk (fun _ => True)
      (fun contents d' => d' = d ∧ contents =
        (readable (d.content store.overridePath)).or (readable (d.content store.packagedPath))) d := by
  refine Prog.ensures_bind (Prog.ensures_mono (fun _ h => h) ?_ (readFile_steady _ d))
  rintro override d' ⟨hd, hoverride⟩
  rw [hd, ← hoverride]
  cases override with
  | some contents => exact ⟨fun _ => trivial, rfl, rfl⟩
  | none => exact readFile_steady _ d

theorem status_steady (store : IcdStore) (d : Disk) :
    store.status.Ensures steadyDisk (fun _ => True)
      (fun status d' => d' = d ∧
        status.overrideActive = (readable (d.content store.overridePath)).isSome) d := by
  refine Prog.ensures_bind (Prog.ensures_mono (fun _ h => h) ?_ (readCurrent_steady store d))
  rintro current d' ⟨hd, hcurrent⟩
  rw [hd]
  cases current with
  | none =>
    have hnone := Option.or_eq_none_iff.mp hcurrent.symm
    refine Prog.ensures_bind (Prog.ensures_mono (fun _ h => h) ?_ (readFile_steady _ d))
    rintro previous d' ⟨hd, -⟩
    refine ⟨fun _ => trivial, hd, ?_⟩
    rw [hnone.1]
    rfl
  | some contents =>
    refine Prog.ensures_bind (Prog.ensures_mono (fun _ h => h) ?_ (readFile_steady _ d))
    rintro override d' ⟨hd, hoverride⟩
    rw [hd]
    refine Prog.ensures_bind (Prog.ensures_mono (fun _ h => h) ?_ (readFile_steady _ d))
    rintro previous d' ⟨hd, -⟩
    refine ⟨fun _ => trivial, hd, ?_⟩
    rw [← hoverride]

theorem writeAtomic_steady (path contents : Bytes) (d : Disk) :
    (writeAtomic path contents).Ensures steadyDisk (fun _ => True)
      (fun complete d' => complete = true ∧ Renewed d path contents d') d :=
  Prog.ensures_mono (fun _ _ => trivial) (fun _ _ h => h) (replaceFile_steady d path contents _)

/-- What a replacement answers, and what it makes of the files. -/
def Replaced (files : IcdFiles) (contents : Bytes) (result : IcdReplaceResult) (files' : IcdFiles) :
    Prop :=
  if (validate contents).isSome then result = .replaced ∧ files' = files.replaced contents
  else result = .invalid ∧ files' = files

theorem replace_steady (store : IcdStore) (contents : Bytes) (d : Disk) :
    (store.replace contents).Ensures steadyDisk (fun _ => True)
      (fun result d' => Replaced (store.files d) contents result (store.files d')) d := by
  rw [replace]
  cases hvalid : (validate contents).isSome with
  | false =>
    rw [if_pos (by simpa using hvalid)]
    refine ⟨fun _ => trivial, ?_⟩
    simp [Replaced, hvalid]
  | true =>
    rw [if_neg (by simpa [Option.isSome_iff_ne_none] using hvalid)]
    simp only [Replaced, hvalid, if_true]
    refine Prog.ensures_bind (Prog.ensures_mono (fun _ h => h) ?_ (readFile_steady _ d))
    rintro override d' ⟨hd, hoverride⟩
    rw [hd]
    cases override with
    | none =>
      refine Prog.ensures_bind (Prog.ensures_mono (fun _ h => h) ?_ (writeAtomic_steady _ _ d))
      rintro written d' ⟨rfl, hrenewed⟩
      refine ⟨fun _ => trivial, rfl, ?_⟩
      rw [files_renewed_override hrenewed, IcdFiles.replaced]
      simp [files, ← hoverride]
    | some override =>
      refine Prog.ensures_bind (Prog.ensures_mono (fun _ h => h) ?_ (writeAtomic_steady _ _ d))
      rintro kept d₁ ⟨rfl, hkept⟩
      refine Prog.ensures_bind (Prog.ensures_mono (fun _ h => h) ?_ (writeAtomic_steady _ _ d₁))
      rintro written d' ⟨rfl, hrenewed⟩
      refine ⟨fun _ => trivial, rfl, ?_⟩
      rw [files_renewed_override hrenewed, files_renewed_previous hkept, IcdFiles.replaced]
      simp [files, ← hoverride]

theorem removed_files (d : Disk) :
    store.files ((d.removed store.overridePath).removed store.previousPath) = ⟨none, none⟩ := by
  simp only [files, removed_content, Function.update_self]
  rw [Function.update_of_ne overridePath_ne_previous, Function.update_self]

theorem removed_of_absent (h : d.content path = none) : d.removed path = d := by
  rw [removed, ← h, Function.update_eq_self]

/-- Removing a file that may not be there. -/
theorem perform_remove (d : Disk) (path : Bytes) :
    perform d ⟨.remove path, some (d.content path).isSome⟩ = d.removed path := by
  cases hcontent : d.content path with
  | none =>
    rw [removed_of_absent hcontent]
    rfl
  | some contents => rfl

/-- What a restore answers, and what it makes of the files. -/
def Restored (files : IcdFiles) (result : Option IcdRestoreResult) (files' : IcdFiles) : Prop :=
  if (readable files.override).isSome then result = some .restored ∧ files' = files.restored
  else result = some .noOverride ∧ files' = files

theorem removeOverride_steady (store : IcdStore) (d : Disk)
    (h : (d.content store.overridePath).isSome) :
    store.removeOverride.Ensures steadyDisk (fun _ => True)
      (fun result d' => result = some .restored ∧ store.files d' = ⟨none, none⟩) d := by
  refine ⟨fun _ => trivial, fun _ _ => trivial, ?_⟩
  rintro removed d₁ ⟨hremoved : removed = _, hd : d₁ = perform d ⟨.remove _, removed⟩⟩
  rw [hremoved, perform_remove] at hd
  rw [hremoved, h, hd]
  refine ⟨fun _ => trivial, fun _ _ => trivial, ?_⟩
  rintro removed d' ⟨hremoved : removed = _, hd : d' = perform _ ⟨.remove _, removed⟩⟩
  rw [hremoved, perform_remove] at hd
  rw [hd, hremoved]
  exact ⟨fun _ => trivial, rfl, removed_files d⟩

theorem restore_steady (store : IcdStore) (d : Disk) :
    store.restore.Ensures steadyDisk (fun _ => True)
      (fun result d' => Restored (store.files d) result (store.files d')) d := by
  refine Prog.ensures_bind (Prog.ensures_mono (fun _ h => h) ?_ (readFile_steady _ d))
  rintro override d' ⟨hd, hoverride⟩
  rw [hd]
  have hfiles : readable (store.files d).override = override := hoverride.symm
  cases override with
  | none =>
    refine ⟨fun _ => trivial, ?_⟩
    simp [Restored, hfiles]
  | some override =>
    simp only [Restored, hfiles, Option.isSome_some, if_true]
    refine Prog.ensures_bind (Prog.ensures_mono (fun _ h => h) ?_ (readFile_steady _ d))
    rintro previous d' ⟨hd, hprevious⟩
    rw [hd]
    have hfiles' : readable (store.files d).previous = previous := hprevious.symm
    cases previous with
    | none =>
      have hpresent : (d.content store.overridePath).isSome := by
        obtain ⟨h, -⟩ := Option.filter_eq_some_iff.mp hoverride.symm
        rw [h]
        rfl
      rw [IcdFiles.restored, hfiles']
      exact removeOverride_steady store d hpresent
    | some previous =>
      refine Prog.ensures_bind (Prog.ensures_mono (fun _ h => h) ?_ (writeAtomic_steady _ _ d))
      rintro kept d₁ ⟨rfl, hkept⟩
      refine Prog.ensures_bind (Prog.ensures_mono (fun _ h => h) ?_ (writeAtomic_steady _ _ d₁))
      rintro written d' ⟨rfl, hrenewed⟩
      refine ⟨fun _ => trivial, rfl, ?_⟩
      rw [files_renewed_override hrenewed, files_renewed_previous hkept, IcdFiles.restored, hfiles',
        hfiles]

theorem discardOverride_steady (store : IcdStore) (d : Disk) :
    store.discardOverride.Ensures steadyDisk (fun _ => True)
      (fun _ d' => store.files d' = (store.files d).discarded) d := by
  have hfiles : store.files (d.removed store.overridePath) = (store.files d).discarded := by
    simp only [files, removed_content, Function.update_self]
    rw [Function.update_of_ne overridePath_ne_previous.symm]
    rfl
  refine ⟨fun _ => trivial, fun _ _ => trivial, ?_⟩
  rintro removed d₁ ⟨hremoved : removed = _, hd : d₁ = perform d ⟨.remove _, removed⟩⟩
  rw [hremoved, perform_remove] at hd
  rw [hremoved, hd]
  cases (d.content store.overridePath).isSome with
  | true => exact ⟨fun _ => trivial, hfiles⟩
  | false =>
    refine ⟨fun _ => trivial, fun _ _ => trivial, ?_⟩
    rintro present d' ⟨-, hd : d' = _⟩
    rw [hd]
    exact ⟨fun _ => trivial, hfiles⟩

end Steady

end IcdStore

end Uhf.Web
