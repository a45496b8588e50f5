/-
The event directory and those who use it (`EventBundleStore`, `HttpServer`).

`save` is what the persistence worker runs, `eventsJson` and `latestEventCsv` are the
web handlers; each handler constructs an `EventBundleStore` of its own.  They are
programs over the operations on the directory, known by the names of its entries.

* `eventsJson_onlyReads`, `latestEventCsv_onlyReads` — all a handler does to the directory
  is to remove entries with the extension of a temporary file.
-/
import UhfGateway.Effects.Trace
import UhfGateway.Storage.EventFile

namespace Uhf.Storage

open Domain Acquisition Effects

/-! ### Operations on the directory -/

/-- The file name extension with its dot: from the last dot on, unless the name begins
with that dot. -/
def extension (name : Bytes) : Bytes :=
  let suffix := name.reverse.takeWhile (· ≠ 0x2E)
  if name.length ≤ suffix.length + 1 ∨ name = ascii ".." then [] else 0x2E :: suffix.reverse

inductive FileCall
  | createDirectories
  | isDirectory
  | chmodDirectory
  | listDirectory
  /-- `std::filesystem::remove`. -/
  | remove (name : Bytes)
  | fileSize (name : Bytes)
  | readFile (name : Bytes)
  /-- `open` with `O_WRONLY | O_CREAT | O_TRUNC`. -/
  | openTruncated (name : Bytes)
  | write (descriptor : ℕ) (bytes : Bytes)
  | fchmod (descriptor : ℕ)
  | fsync (descriptor : ℕ)
  | close (descriptor : ℕ)
  | rename (source target : Bytes)
  | openDirectory
  | unlink (name : Bytes)

/-- What each operation reports; `none` is an error.  `remove` says whether there was
something to remove, `write` how many bytes it has written. -/
@[reducible] def fileCalls : Interface where
  Op := FileCall
  Answer
    | .listDirectory => Option (List Bytes)
    | .remove _ => Option Bool
    | .fileSize _ => Option ℕ
    | .readFile _ => Option Bytes
    | .openTruncated _ => Option ℕ
    | .write _ _ => Option ℕ
    | .openDirectory => Option ℕ
    | _ => Bool

def kTemporary : Bytes := ascii ".tmp"

/-! ### Saving -/

/-- The loop that writes the whole content; whether all of it has been written. -/
def writeLoop (descriptor : ℕ) (bytes : Bytes) : Prog fileCalls Bool :=
  if _h : bytes = [] then .done true
  else
    .call (I := fileCalls) (.write descriptor bytes) fun (result : Option ℕ) =>
      match result with
      | none => .done false
      | some written =>
        if _hw : written = 0 then .done false else writeLoop descriptor (bytes.drop written)
termination_by bytes.length
decreasing_by
  have hpos := List.length_pos_iff.mpr _h
  rw [List.length_drop]
  omega

/-- The end of a write that has not come to the rename. -/
def discard (temporary : Bytes) : Prog fileCalls Bool :=
  .call (I := fileCalls) (.unlink temporary) fun _ => .done false

/-- `write_atomic` once the temporary file is open. -/
def finishWrite (name bytes : Bytes) (descriptor : ℕ) : Prog fileCalls Bool :=
  let temporary := name ++ kTemporary
  let abandon : Prog fileCalls Bool :=
    .call (I := fileCalls) (.close descriptor) fun _ => discard temporary
  writeLoop descriptor bytes >>= fun complete =>
    if !complete then abandon
    else .call (I := fileCalls) (.fchmod descriptor) fun (moded : Bool) =>
      if !moded then abandon
      else .call (I := fileCalls) (.fsync descriptor) fun (synced : Bool) =>
        if !synced then abandon
        else .call (I := fileCalls) (.close descriptor) fun (closed : Bool) =>
          if !closed then discard temporary
          else .call (I := fileCalls) (.rename temporary name) fun (renamed : Bool) =>
            if !renamed then discard temporary
            else .call (I := fileCalls) .openDirectory fun (directory : Option ℕ) =>
              match directory with
              | none => .done false
              | some descriptor =>
                .call (I := fileCalls) (.fsync descriptor) fun (synced : Bool) =>
                  .call (I := fileCalls) (.close descriptor) fun _ => .done synced

def writeAtomic (name bytes : Bytes) : Prog fileCalls Bool :=
  .call (I := fileCalls) (.openTruncated (name ++ kTemporary)) fun (opened : Option ℕ) =>
    match opened with
    | none => .done false
    | some descriptor => finishWrite name bytes descriptor

/-- The name of the file, if the bundle has been saved. -/
def save (bundle : EventBundle) : Prog fileCalls (Option Bytes) :=
  match encodeBundle bundle with
  | none => .done none
  | some (milliseconds, bytes) =>
    writeAtomic (eventName milliseconds bundle) bytes >>= fun complete =>
      .done (if complete then some (eventName milliseconds bundle) else none)

/-! ### Reading -/

/-- The loop of `cleanup_incomplete` over the entries. -/
def removeIncomplete : List Bytes → Prog fileCalls Bool
  | [] => .done true
  | entry :: entries =>
    if extension entry ≠ kTemporary then removeIncomplete entries
    else
      .call (I := fileCalls) (.remove entry) fun (removed : Option Bool) =>
        if removed ≠ some true then .done false else removeIncomplete entries

def cleanupIncomplete : Prog fileCalls Bool :=
  .call (I := fileCalls) .listDirectory fun (entries : Option (List Bytes)) =>
    match entries with
    | none => .done false
    | some entries => removeIncomplete entries

/-- The constructor of `EventBundleStore`; it throws if this is false. -/
def prepareStore : Prog fileCalls Bool :=
  .call (I := fileCalls) .createDirectories fun (created : Bool) =>
    if !created then .done false
    else .call (I := fileCalls) .isDirectory fun (directory : Bool) =>
      if !directory then .done false
      else .call (I := fileCalls) .chmodDirectory fun (moded : Bool) =>
        if !moded then .done false else cleanupIncomplete

/-- `read_bytes`. -/
def readBytes (name : Bytes) : Prog fileCalls (Option Bytes) :=
  .call (I := fileCalls) (.fileSize name) fun (size : Option ℕ) =>
    match size with
    | none => .done none
    | some size =>
      if size < kHeaderBytes + kCrcBytes ∨ kMaximumEventBytes < size then .done none
      else
        .call (I := fileCalls) (.readFile name) fun (content : Option Bytes) =>
          match content with
          | none => .done none
          | some content =>
            .done (if content.length < size then none else some (content.take size))

/-- `EventBundleStore::read`. -/
def readBundle (name : Bytes) : Prog fileCalls (Option EventBundle) :=
  readBytes name >>= fun bytes => .done (bytes.bind decodeBundle)

/-- The bundles of the entries that can be read, in the order of the directory. -/
def readRecords : List Bytes → Prog fileCalls (List (Bytes × EventBundle))
  | [] => .done []
  | entry :: entries =>
    if extension entry ≠ ascii ".bin" then readRecords entries
    else
      readBundle entry >>= fun bundle =>
        readRecords entries >>= fun records =>
          .done (bundle.elim records fun bundle => (entry, bundle) :: records)

/-- The order of `list`: latest first, and by number among those of one time. -/
def comesBefore (first second : Bytes × EventBundle) : Bool :=
  if first.2.firstTriggeredAtUtc ≠ second.2.firstTriggeredAtUtc then
    decide (second.2.firstTriggeredAtUtc < first.2.firstTriggeredAtUtc)
  else decide (second.2.id < first.2.id)

/-- `EventBundleStore::list`. -/
def listBundles (limit : ℕ) : Prog fileCalls (List Bytes) :=
  .call (I := fileCalls) .listDirectory fun (entries : Option (List Bytes)) =>
    match entries with
    | none => .done []
    | some entries =>
      readRecords entries >>= fun records =>
        .done (((records.mergeSort fun a b => !comesBefore b a).take limit).map Prod.fst)

/-! ### The web handlers -/

/-- `json_escape` for one byte. -/
def jsonEscapeByte (byte : UInt8) : Bytes :=
  if byte = 0x22 then [0x5C, 0x22]
  else if byte = 0x5C then [0x5C, 0x5C]
  else if byte = 0x0A then ascii "\\n"
  else if byte = 0x0D then ascii "\\r"
  else if byte = 0x09 then ascii "\\t"
  else if byte < 0x20 then ascii "?"
  else [byte]

def jsonEscape (value : Bytes) : Bytes := value.flatMap jsonEscapeByte

/-- The entry of one event in the answer of `events_json`. -/
def eventEntry (name : Bytes) (bundle : EventBundle) : Bytes :=
  [0x7B] ++ jsonKey "name" ++ [0x22] ++ jsonEscape name ++ [0x22] ++ ascii "," ++
    jsonKey "id" ++ decimal bundle.id.toNat ++ ascii "," ++
    jsonKey "timestamp_ms" ++ decimal (bundle.firstTriggeredAtUtc.tdiv 1000000) ++ ascii "," ++
    jsonKey "reason_mask" ++ decimal bundle.reasonMask.toNat ++ ascii "," ++
    jsonKey "partial" ++ ascii (if bundle.isPartial then "true" else "false") ++ ascii "," ++
    jsonKey "frame_count" ++ decimal bundle.frames.length ++ ascii "," ++
    jsonKey "strong_count" ++ decimal bundle.strong.triggerCount.toNat ++ ascii "," ++
    jsonKey "sudden_count" ++ decimal bundle.sudden.triggerCount.toNat ++ [0x7D]

/-- The entries of the events that can still be read. -/
def eventEntries : List Bytes → Prog fileCalls (List Bytes)
  | [] => .done []
  | name :: names =>
    readBundle name >>= fun bundle =>
      eventEntries names >>= fun entries =>
        .done (bundle.elim entries fun bundle => eventEntry name bundle :: entries)

/-- `HttpServer::events_json`. -/
def eventsJson : Prog fileCalls (Option Bytes) :=
  prepareStore >>= fun prepared =>
    if !prepared then .done none
    else
      listBundles 100 >>= fun names =>
        eventEntries names >>= fun entries =>
          .done (some ([0x7B] ++ jsonKey "schema_version" ++ ascii "1," ++ jsonKey "entries" ++
            ascii "[" ++ (entries.intersperse (ascii ",")).flatten ++ ascii "]" ++ [0x7D, 0x0A]))

def statusName : PayloadStatus → Bytes
  | .good => ascii "good"
  | .degraded => ascii "degraded"
  | .notRefreshed => ascii "not_refreshed"

/-- `EventBundleStore::to_csv`. -/
def toCsv (bundle : EventBundle) : Bytes :=
  ascii ("event_id,timestamp_ms,partial,reason_mask,frame_generation,payload_status," ++
      "register_address,raw_value\n") ++
    bundle.frames.flatMap fun frame =>
      frame.payload.rawRegisters.toList.zipIdx.flatMap fun (value, index) =>
        (([decimal bundle.id.toNat, decimal (bundle.firstTriggeredAtUtc.tdiv 1000000),
          ascii (if bundle.isPartial then "true" else "false"), decimal bundle.reasonMask.toNat,
          decimal frame.generation.toNat, statusName frame.payload.payloadStatus,
          decimal (10001 + index : ℕ), decimal value.toNat].intersperse (ascii ",")).flatten) ++
          ascii "\n"

/-- `HttpServer::latest_event_csv`. -/
def latestEventCsv : Prog fileCalls (Option Bytes) :=
  prepareStore >>= fun prepared =>
    if !prepared then .done none
    else
      listBundles 1 >>= fun names =>
        match names with
        | [] => .done none
        | name :: _ => readBundle name >>= fun bundle => .done (bundle.map toCsv)

/-! ### What the handlers may do -/

/-- The operations of a reader: looking, and removing temporary files. -/
def Reads : FileCall → Prop
  | .createDirectories | .isDirectory | .chmodDirectory | .listDirectory => True
  | .fileSize _ | .readFile _ => True
  | .remove name => extension name = kTemporary
  | _ => False

theorem removeIncomplete_onlyReads (entries : List Bytes) :
    (removeIncomplete entries).Only Reads := by
  induction entries with
  | nil => trivial
  | cons entry entries ih =>
    rw [removeIncomplete]
    split
    · exact ih
    · next hextension =>
      refine ⟨not_not.mp hextension, fun (removed : Option Bool) => ?_⟩
      show (if removed ≠ some true then _ else _ : Prog fileCalls Bool).Only Reads
      split
      · trivial
      · exact ih

theorem prepareStore_onlyReads : prepareStore.Only Reads := by
  refine ⟨trivial, fun (created : Bool) => ?_⟩
  cases created with
  | false => trivial
  | true =>
    refine ⟨trivial, fun (directory : Bool) => ?_⟩
    cases directory with
    | false => trivial
    | true =>
      refine ⟨trivial, fun (moded : Bool) => ?_⟩
      cases moded with
      | false => trivial
      | true =>
        refine ⟨trivial, fun (entries : Option (List Bytes)) => ?_⟩
        cases entries with
        | none => trivial
        | some entries => exact removeIncomplete_onlyReads entries

theorem readBundle_onlyReads (name : Bytes) : (readBundle name).Only Reads := by
  refine Prog.only_bind ⟨trivial, fun (size : Option ℕ) => ?_⟩ fun _ => trivial
  cases size with
  | none => trivial
  | some size =>
    show (if size < _ ∨ _ < size then _ else _ : Prog fileCalls (Option Bytes)).Only Reads
    split
    · trivial
    · refine ⟨trivial, fun (content : Option Bytes) => ?_⟩
      cases content <;> trivial

theorem readRecords_onlyReads (entries : List Bytes) : (readRecords entries).Only Reads := by
  induction entries with
  | nil => trivial
  | cons entry entries ih =>
    rw [readRecords]
    split
    · exact ih
    · exact Prog.only_bind (readBundle_onlyReads entry) fun _ =>
        Prog.only_bind ih fun _ => trivial

theorem listBundles_onlyReads (limit : ℕ) : (listBundles limit).Only Reads := by
  refine ⟨trivial, fun (entries : Option (List Bytes)) => ?_⟩
  cases entries with
  | none => trivial
  | some entries => exact Prog.only_bind (readRecords_onlyReads entries) fun _ => trivial

theorem eventEntries_onlyReads (names : List Bytes) : (eventEntries names).Only Reads := by
  induction names with
  | nil => trivial
  | cons name names ih =>
    exact Prog.only_bind (readBundle_onlyReads name) fun _ => Prog.only_bind ih fun _ => trivial

theorem eventsJson_onlyReads : eventsJson.Only Reads := by
  refine Prog.only_bind prepareStore_onlyReads fun prepared => ?_
  cases prepared with
  | false => trivial
  | true =>
    exact Prog.only_bind (listBundles_onlyReads 100) fun names =>
      Prog.only_bind (eventEntries_onlyReads names) fun _ => trivial

theorem latestEventCsv_onlyReads : latestEventCsv.Only Reads := by
  refine Prog.only_bind prepareStore_onlyReads fun prepared => ?_
  cases prepared with
  | false => trivial
  | true =>
    refine Prog.only_bind (listBundles_onlyReads 1) fun names => ?_
    cases names with
    | nil => trivial
    | cons name names => exact Prog.only_bind (readBundle_onlyReads name) fun _ => trivial

end Uhf.Storage
