/-
The export of the newest event.

`save` takes bundles of up to six frames, and the export writes a line for each register of each
frame; `csvBytes` is what that comes to.

* `length_toCsv` — the size of a table, from the number of digits of its entries;
* `latestEventCsv_newest` — the handler makes the table of the newest bundle of the directory;
* `event_export_iff` — which saved bundles are exported.
-/
import Mathlib.Algebra.Group.Action.Defs
import Mathlib.Algebra.Order.BigOperators.Group.List
import Mathlib.Data.Nat.Log
import UhfGateway.Domain.Decimal
import UhfGateway.Storage.EventReaders
import UhfGateway.Storage.EventRoundTrip
import UhfGateway.Web.Routes

namespace Uhf.Web

open Domain Acquisition Effects Storage

/-! ### The size of a table -/

/-- How many decimal digits a number has. -/
def digitCount (n : ℕ) : ℕ := Nat.log 10 n + 1

theorem digitCount_le_iff {n k : ℕ} (hk : 0 < k) : digitCount n ≤ k ↔ n < 10 ^ k := by
  rw [digitCount, Nat.add_one_le_iff]
  exact ⟨Nat.lt_pow_of_log_lt (by decide), Nat.log_lt_of_lt_pow' (Nat.ne_of_gt hk)⟩

theorem length_decimal (n : ℕ) : (decimal (n : Int)).length = digitCount n := by
  have hle : ∀ k, 0 < k → ((decimal (n : Int)).length ≤ k ↔ digitCount n ≤ k) := by
    intro k hk
    rw [decimal_natCast, List.length_map, Nat.length_toDigits_le_iff (by decide) hk,
      digitCount_le_iff hk]
  have hpos : 0 < (decimal (n : Int)).length := List.length_pos_iff.mpr (decimal_ne_nil n)
  refine Nat.le_antisymm ?_ ?_
  · exact (hle _ (Nat.succ_pos _)).mpr (Nat.le_refl _)
  · exact (hle _ hpos).mp (Nat.le_refl _)

/-- The bytes of the name of a status. -/
def statusBytes : PayloadStatus → ℕ
  | .good => 4
  | .degraded => 8
  | .notRefreshed => 13

/-- What the columns take that are the same in every line of a frame, with the address, the
separators and the end of the line. -/
def lineBytes (bundle : EventBundle) (frame : PublishedSnapshot) : ℕ :=
  digitCount bundle.id.toNat + digitCount (bundle.firstTriggeredAtUtc.tdiv 1000000).toNat +
    (if bundle.isPartial then 4 else 5) + digitCount bundle.reasonMask.toNat +
    digitCount frame.generation.toNat + statusBytes frame.payload.payloadStatus + 13

def frameBytes (bundle : EventBundle) (frame : PublishedSnapshot) : ℕ :=
  kPd1000RegisterCount * lineBytes bundle frame +
    (frame.payload.rawRegisters.toList.map fun value => digitCount value.toNat).sum

/-- The size of the table of a bundle. -/
def csvBytes (bundle : EventBundle) : ℕ := 101 + (bundle.frames.map (frameBytes bundle)).sum

theorem length_ascii (text : String) : (ascii text).length = text.length := by
  rw [ascii, List.length_map, String.length_toList]

theorem length_statusName (status : PayloadStatus) :
    (statusName status).length = statusBytes status := by
  cases status <;> rfl

theorem length_columns (a b c d e f g h : Bytes) :
    ((([a, b, c, d, e, f, g, h].intersperse (ascii ",")).flatten) ++ ascii "\n").length =
      a.length + b.length + c.length + d.length + e.length + f.length + g.length + h.length + 8 := by
  have hone : (ascii ",").length = 1 ∧ (ascii "\n").length = 1 := ⟨rfl, rfl⟩
  simp only [List.intersperse, List.flatten_cons, List.flatten_nil, List.length_append,
    List.append_nil, hone]
  omega

/-- The lines of a frame from the address of index `start` on. -/
theorem length_lines (bundle : EventBundle) (frame : PublishedSnapshot)
    (htime : 0 ≤ bundle.firstTriggeredAtUtc.tdiv 1000000) (values : List UInt16) {start : ℕ}
    (hstart : start + values.length ≤ 89999) :
    ((values.zipIdx start).flatMap fun (value, index) =>
      (([decimal bundle.id.toNat, decimal (bundle.firstTriggeredAtUtc.tdiv 1000000),
        ascii (if bundle.isPartial then "true" else "false"), decimal bundle.reasonMask.toNat,
        decimal frame.generation.toNat, statusName frame.payload.payloadStatus,
        decimal (10001 + index : ℕ), decimal value.toNat].intersperse (ascii ",")).flatten) ++
        ascii "\n").length =
      values.length * lineBytes bundle frame + (values.map fun value => digitCount value.toNat).sum := by
  induction values generalizing start with
  | nil => rw [List.length_nil, Nat.zero_mul]; rfl
  | cons value values ih =>
    rw [List.length_cons] at hstart
    have hflag : (ascii (if bundle.isPartial then "true" else "false")).length =
        if bundle.isPartial then 4 else 5 := by
      cases bundle.isPartial <;> rfl
    have htimes : (decimal (bundle.firstTriggeredAtUtc.tdiv 1000000)).length =
        digitCount (bundle.firstTriggeredAtUtc.tdiv 1000000).toNat := by
      rw [← length_decimal, Int.toNat_of_nonneg htime]
    -- the addresses have five digits
    have haddress : digitCount (10001 + start) = 5 := by
      refine Nat.le_antisymm ((digitCount_le_iff (by decide)).mpr (by omega)) ?_
      exact Nat.not_lt.mp fun hlt =>
        absurd ((digitCount_le_iff (by decide)).mp (Nat.le_of_lt_succ hlt)) (by omega)
    rw [List.zipIdx_cons, List.flatMap_cons, List.length_append, ih (by omega), length_columns,
      length_decimal, htimes, hflag, length_decimal, length_decimal, length_statusName,
      length_decimal, length_decimal, haddress, List.length_cons, List.map_cons, List.sum_cons,
      Nat.add_mul, lineBytes]
    omega

/-- The size of a table, for a time not before the epoch. -/
theorem length_toCsv {bundle : EventBundle}
    (htime : 0 ≤ bundle.firstTriggeredAtUtc.tdiv 1000000) :
    (toCsv bundle).length = csvBytes bundle := by
  have hframes : ∀ frames : List PublishedSnapshot, (frames.flatMap fun frame =>
      frame.payload.rawRegisters.toList.zipIdx.flatMap fun (value, index) =>
        (([decimal bundle.id.toNat, decimal (bundle.firstTriggeredAtUtc.tdiv 1000000),
          ascii (if bundle.isPartial then "true" else "false"), decimal bundle.reasonMask.toNat,
          decimal frame.generation.toNat, statusName frame.payload.payloadStatus,
          decimal (10001 + index : ℕ), decimal value.toNat].intersperse (ascii ",")).flatten) ++
          ascii "\n").length = (frames.map (frameBytes bundle)).sum := by
    intro frames
    induction frames with
    | nil => rfl
    | cons frame frames ih =>
      rw [List.flatMap_cons, List.length_append, ih, List.map_cons, List.sum_cons]
      have hlength : frame.payload.rawRegisters.toList.length = kPd1000RegisterCount :=
        Vector.length_toList
      rw [length_lines bundle frame htime _ (by rw [hlength]; decide), hlength, frameBytes]
  rw [toCsv, List.length_append, hframes, csvBytes, length_ascii]
  rfl

/-- No table is smaller than with one digit in each column but the time. -/
theorem csvBytes_ge (bundle : EventBundle) :
    101 + bundle.frames.length *
      (kPd1000RegisterCount * (25 + digitCount (bundle.firstTriggeredAtUtc.tdiv 1000000).toNat)) ≤
        csvBytes bundle := by
  have hframe : ∀ frame, kPd1000RegisterCount *
      (25 + digitCount (bundle.firstTriggeredAtUtc.tdiv 1000000).toNat) ≤ frameBytes bundle frame := by
    intro frame
    have hdigits : kPd1000RegisterCount ≤
        (frame.payload.rawRegisters.toList.map fun value => digitCount value.toNat).sum := by
      have hcard := List.card_nsmul_le_sum
        (frame.payload.rawRegisters.toList.map fun value => digitCount value.toNat) 1 (by
          intro digits hdigits
          obtain ⟨value, -, rfl⟩ := List.mem_map.mp hdigits
          exact Nat.succ_pos _)
      rwa [List.length_map, Vector.length_toList, smul_eq_mul, Nat.mul_one] at hcard
    have hline : 24 + digitCount (bundle.firstTriggeredAtUtc.tdiv 1000000).toNat ≤
        lineBytes bundle frame := by
      have hpos : ∀ n, 1 ≤ digitCount n := fun n => Nat.succ_pos _
      have hid := hpos bundle.id.toNat
      have hmask := hpos bundle.reasonMask.toNat
      have hgeneration := hpos frame.generation.toNat
      have hstatus : 4 ≤ statusBytes frame.payload.payloadStatus := by
        cases frame.payload.payloadStatus <;> decide
      rw [lineBytes]
      split <;> omega
    have hmul := Nat.mul_le_mul_left kPd1000RegisterCount hline
    rw [frameBytes]
    rw [show 25 + digitCount (bundle.firstTriggeredAtUtc.tdiv 1000000).toNat =
      24 + digitCount (bundle.firstTriggeredAtUtc.tdiv 1000000).toNat + 1 by omega, Nat.mul_add,
      Nat.mul_one]
    omega
  have hsum := List.card_nsmul_le_sum (bundle.frames.map (frameBytes bundle)) _ (by
    intro bytes hbytes
    obtain ⟨frame, -, rfl⟩ := List.mem_map.mp hbytes
    exact hframe frame)
  rw [List.length_map, smul_eq_mul] at hsum
  rw [csvBytes]
  omega

/-- What a table takes at most whose lines take no more than `width` without the values. -/
theorem csvBytes_le {bundle : EventBundle} {width : ℕ}
    (h : ∀ frame ∈ bundle.frames, lineBytes bundle frame ≤ width) :
    csvBytes bundle ≤ 101 + bundle.frames.length * (kPd1000RegisterCount * (width + 5)) := by
  have hdigits : ∀ value : UInt16, digitCount value.toNat ≤ 5 := by
    intro value
    have hlt := value.toNat_lt
    exact (digitCount_le_iff (by decide)).mpr (by omega)
  have hframe : ∀ frame ∈ bundle.frames,
      frameBytes bundle frame ≤ kPd1000RegisterCount * (width + 5) := by
    intro frame hframe
    have hvalues := List.sum_le_card_nsmul
      (frame.payload.rawRegisters.toList.map fun value => digitCount value.toNat) 5 (by
        intro digits hmem
        obtain ⟨value, -, rfl⟩ := List.mem_map.mp hmem
        exact hdigits value)
    rw [List.length_map, Vector.length_toList, smul_eq_mul] at hvalues
    have hmul := Nat.mul_le_mul_left kPd1000RegisterCount (h frame hframe)
    rw [frameBytes, Nat.mul_add]
    omega
  have hsum := List.sum_le_card_nsmul (bundle.frames.map (frameBytes bundle)) _ (by
    intro bytes hbytes
    obtain ⟨frame, hmem, rfl⟩ := List.mem_map.mp hbytes
    exact hframe frame hmem)
  rw [List.length_map, smul_eq_mul] at hsum
  rw [csvBytes]
  omega

/-! ### Saved bundles -/

/-- A frame with what its registers come to. -/
def reparsed (frame : PublishedSnapshot) : PublishedSnapshot :=
  { frame with payload := parsePd1000Registers frame.payload.rawRegisters }

/-- Of a frame that is read back the status is that of its registers. -/
theorem status_of_decoded {bytes encoded rest : Bytes} {offset : ℕ} {previous : List UInt64}
    {frames before read : List PublishedSnapshot}
    (h : encodeFrames previous frames = some encoded) (hbytes : bytes.drop offset = encoded ++ rest)
    (hread : decodeFrames bytes frames.length offset before = some read) :
    ∀ frame ∈ frames, (reparsed frame).payload.payloadStatus = frame.payload.payloadStatus := by
  induction frames generalizing previous before encoded offset with
  | nil => exact fun frame hframe => absurd hframe List.not_mem_nil
  | cons frame frames ih =>
    rw [encodeFrames] at h
    split at h
    · cases h
    split at h
    · cases h
    obtain ⟨later, hlater, rfl⟩ := Option.map_eq_some_iff.mp h
    rw [List.append_assoc] at hbytes
    obtain ⟨-, hstatus, -, -, hregisters⟩ := frame_fields hbytes
    rw [List.length_cons, decodeFrames, hstatus, decodeStatus_statusCode] at hread
    simp only [hregisters] at hread
    split at hread
    · cases hread
    split at hread
    · cases hread
    next hsame =>
    rw [not_not] at hsame
    refine List.forall_mem_cons.mpr ⟨hsame, ?_⟩
    exact ih hlater (drop_of_drop _ _ (length_encodeFrame frame) hbytes) hread

/-- A bundle that is read back has the table of the bundle that was saved. -/
theorem decoded_csvBytes {bundle stored : EventBundle} {milliseconds : UInt64} {bytes : Bytes}
    (hsaved : encodeBundle bundle = some (milliseconds, bytes))
    (htime : ClockCount bundle.firstTriggeredAtUtc) (hread : decodeBundle bytes = some stored) :
    (toCsv stored).length = csvBytes bundle := by
  obtain ⟨hmilliseconds, hvalid, frames, hframes, hbytes⟩ := encodeBundle_cases hsaved
  have hdrop : bytes.drop kHeaderBytes =
      frames ++ appendU32 (crc32 (encodeHeader milliseconds bundle ++ frames)) := by
    rw [hbytes, ← length_encodeHeader milliseconds bundle]
    exact List.drop_left
  have hstatus : ∀ frame ∈ bundle.frames,
      (reparsed frame).payload.payloadStatus = frame.payload.payloadStatus := by
    obtain ⟨-, read, hdecoded, -⟩ := decodeBundle_eq_some.mp hread
    have hfields := header_fields milliseconds bundle
      (frames ++ appendU32 (crc32 (encodeHeader milliseconds bundle ++ frames)))
    rw [← hbytes] at hfields
    simp only [bundleIsValid, Bool.and_eq_true, decide_eq_true_eq] at hvalid
    have hmany := hvalid.1.1.2
    have hcount : (readU16 bytes 50).toNat = bundle.frames.length := by
      rw [hfields.frames, UInt16.toNat_ofNat_of_lt' (Nat.lt_of_le_of_lt hmany (by decide))]
    rw [hcount] at hdecoded
    exact status_of_decoded hframes hdrop hdecoded
  -- the saved bytes are also those of the bundle with what its registers come to
  have hencodeFrame : ∀ frame ∈ bundle.frames, encodeFrame (reparsed frame) = encodeFrame frame := by
    intro frame hframe
    rw [encodeFrame, hstatus frame hframe]
    rfl
  have hencodeFrames : ∀ (frames : List PublishedSnapshot) (previous : List UInt64),
      (∀ frame ∈ frames, encodeFrame (reparsed frame) = encodeFrame frame) →
        encodeFrames previous (frames.map reparsed) = encodeFrames previous frames := by
    intro frames
    induction frames with
    | nil => exact fun _ _ => rfl
    | cons frame frames ih =>
      intro previous hall
      obtain ⟨hframe, hrest⟩ := List.forall_mem_cons.mp hall
      rw [List.map_cons, encodeFrames, encodeFrames, hframe, ih _ hrest]
      rfl
  have hagain : encodeBundle { bundle with frames := bundle.frames.map reparsed } =
      some (milliseconds, bytes) := by
    rw [← hsaved, encodeBundle, encodeBundle]
    simp only [bundleIsValid, encodeHeader, List.length_map, List.isEmpty_map,
      hencodeFrames _ [] hencodeFrame]
    rfl
  have hstored := decodeBundle_encodeBundle hagain htime (by
    intro frame hframe
    obtain ⟨original, -, rfl⟩ := List.mem_map.mp hframe
    rfl)
  obtain rfl := Option.some.inj (hread.symm.trans hstored)
  have hpos : 0 ≤ bundle.firstTriggeredAtUtc.tdiv 1000000 := by
    rw [timestampMilliseconds] at hmilliseconds
    split at hmilliseconds
    · cases hmilliseconds
    next hpos => exact Int.not_lt.mp hpos
  have htdiv : (bundle.firstTriggeredAtUtc.tdiv 1000000 * 1000000).tdiv 1000000 =
      bundle.firstTriggeredAtUtc.tdiv 1000000 := Int.mul_tdiv_cancel _ (by decide)
  rw [length_toCsv (by show 0 ≤ (_ * 1000000 : Int).tdiv 1000000; rw [htdiv]; exact hpos)]
  have hlines : ∀ frame ∈ bundle.frames,
      frameBytes (storedBundle { bundle with frames := bundle.frames.map reparsed })
        (storedFrame (reparsed frame)) = frameBytes bundle frame := by
    intro frame hframe
    have hsame : (storedFrame (reparsed frame)).payload.payloadStatus = frame.payload.payloadStatus :=
      hstatus frame hframe
    rw [frameBytes, lineBytes, hsame]
    show kPd1000RegisterCount * (digitCount bundle.id.toNat +
      digitCount ((bundle.firstTriggeredAtUtc.tdiv 1000000 * 1000000).tdiv 1000000).toNat + _ + _ + _ +
        _ + 13) + _ = _
    rw [htdiv]
    rfl
  rw [csvBytes, csvBytes]
  show 101 + (((bundle.frames.map reparsed).map storedFrame).map _).sum = _
  rw [List.map_map, List.map_map]
  exact congrArg (101 + ·.sum) (List.map_congr_left hlines)

/-! ### The newest bundle of the directory -/

/-- The file `name` holds the newest of the bundles that can be read. -/
structure Newest (d : Directory) (name : Bytes) (stored : EventBundle) : Prop where
  nodup : d.entries.Nodup
  suffix : Storage.extension name = ascii ".bin"
  readable : (d.content name).bind decodeBundle = some stored
  newest : ∀ other bundle, other ≠ name → Storage.extension other = ascii ".bin" →
    (d.content other).bind decodeBundle = some bundle →
      comesBefore (name, stored) (other, bundle) = true

theorem content_removed (d : Directory) {name entry : Bytes} (h : name ≠ entry) :
    (d.removed entry).content name = d.content name := by
  have hmem : name ∈ (d.removed entry).entries ↔ name ∈ d.entries := by
    rw [Directory.removed, List.mem_filter, decide_eq_true_eq]
    exact and_iff_left h
  rw [Directory.content, Directory.content]
  simp only [hmem]
  rfl

theorem Newest.removed {d : Directory} {name entry : Bytes} {stored : EventBundle}
    (h : Newest d name stored) (hentry : Storage.extension entry = kTemporary) :
    Newest (d.removed entry) name stored := by
  have hother : ∀ {other}, Storage.extension other = ascii ".bin" → other ≠ entry := by
    rintro other hother rfl
    rw [hother] at hentry
    exact absurd hentry (by decide)
  refine ⟨h.nodup.filter _, h.suffix, ?_, ?_⟩
  · rw [content_removed d (hother h.suffix)]
    exact h.readable
  · intro other bundle hne hsuffix hread
    rw [content_removed d (hother hsuffix)] at hread
    exact h.newest other bundle hne hsuffix hread

theorem removeIncomplete_keeps {name : Bytes} {stored : EventBundle} {entries : List Bytes}
    (hentries : entries.Nodup) {d : Directory} (hmem : ∀ entry ∈ entries, entry ∈ d.entries)
    (h : Newest d name stored) :
    (removeIncomplete entries).Ensures directoryWorld (fun _ => True)
      (fun ok d' => ok = true ∧ Newest d' name stored) d := by
  induction entries generalizing d with
  | nil => exact ⟨fun _ => trivial, rfl, h⟩
  | cons entry entries ih =>
    obtain ⟨hnew, hrest⟩ := List.nodup_cons.mp hentries
    obtain ⟨hhere, hlater⟩ := List.forall_mem_cons.mp hmem
    rw [removeIncomplete]
    split
    · exact ih hrest hlater h
    next hextension =>
    refine ⟨fun _ => trivial, fun _ _ => trivial, ?_⟩
    rintro removed d' ⟨rfl, rfl⟩
    show (if some (decide (entry ∈ d.entries)) ≠ some true then _ else _ : Prog fileCalls Bool).Ensures
      _ _ _ _
    rw [decide_eq_true hhere, if_neg (not_not.mpr rfl)]
    refine ih hrest (fun other hother => ?_) (h.removed (not_not.mp hextension))
    rw [Directory.removed, List.mem_filter, decide_eq_true_eq]
    exact ⟨hlater other hother, fun heq => hnew (heq ▸ hother)⟩

theorem prepareStore_keeps {name : Bytes} {stored : EventBundle} {d : Directory}
    (h : Newest d name stored) :
    prepareStore.Ensures directoryWorld (fun _ => True)
      (fun ok d' => ok = true ∧ Newest d' name stored) d := by
  refine ⟨fun _ => trivial, fun _ _ => trivial, ?_⟩
  rintro created d₁ ⟨rfl, rfl⟩
  refine ⟨fun _ => trivial, fun _ _ => trivial, ?_⟩
  rintro directory d₂ ⟨rfl, rfl⟩
  refine ⟨fun _ => trivial, fun _ _ => trivial, ?_⟩
  rintro moded d₃ ⟨rfl, rfl⟩
  refine ⟨fun _ => trivial, fun _ _ => trivial, ?_⟩
  rintro entries d₄ ⟨⟨listed, rfl, hperm⟩, rfl⟩
  exact removeIncomplete_keeps (hperm.nodup_iff.mpr h.nodup) (fun _ => hperm.mem_iff.mp) h

/-- A file is as long as it says, so `read_bytes` returns what `read` would decode. -/
theorem readBundle_reads (d : Directory) (name : Bytes) :
    (readBundle name).Ensures directoryWorld (fun _ => True)
      (fun bundle d' => bundle = (d.content name).bind decodeBundle ∧ d' = d) d := by
  refine Prog.ensures_bind ⟨fun _ => trivial, fun _ _ => trivial, ?_⟩
  rintro size d₁ ⟨rfl, hd⟩
  subst d₁
  cases hcontent : d.content name with
  | none => exact ⟨fun _ => trivial, fun _ => trivial, rfl, rfl⟩
  | some content =>
    show (if content.length < _ ∨ _ < content.length then _ else _ :
      Prog fileCalls (Option Bytes)).Ensures _ _ _ _
    split
    · next hsize =>
      -- the sizes of bundles of one to six frames lie in between
      refine ⟨fun _ => trivial, fun _ => trivial, ?_, rfl⟩
      rw [Option.bind_none, Option.bind_some, eq_comm, Option.eq_none_iff_forall_ne_some]
      intro bundle hread
      have haccepted := (decodeBundle_eq_some.mp hread).1
      have hlength := haccepted.length
      have hfew := Nat.mul_le_mul_right kFrameBytes haccepted.few_frames
      rw [kMaximumEventBytes] at hsize
      omega
    · refine ⟨fun _ => trivial, fun _ _ => trivial, ?_⟩
      rintro answer d₂ ⟨rfl, hd⟩
      subst d₂
      rw [hcontent]
      refine ⟨fun _ => trivial, fun _ => trivial, ?_, rfl⟩
      show (if content.length < content.length then none else some (content.take content.length)).bind
        decodeBundle = _
      rw [if_neg (Nat.lt_irrefl _), List.take_length]

/-- What `list` keeps of an entry. -/
def recordOf (d : Directory) (entry : Bytes) : Option (Bytes × EventBundle) :=
  if Storage.extension entry ≠ ascii ".bin" then none
  else ((d.content entry).bind decodeBundle).map fun bundle => (entry, bundle)

theorem readRecords_reads (d : Directory) (entries : List Bytes) :
    (readRecords entries).Ensures directoryWorld (fun _ => True)
      (fun records d' => records = entries.filterMap (recordOf d) ∧ d' = d) d := by
  induction entries with
  | nil => exact ⟨fun _ => trivial, rfl, rfl⟩
  | cons entry entries ih =>
    rw [readRecords]
    split
    · next hextension =>
      refine Prog.ensures_mono (fun _ h => h) ?_ ih
      rintro records d' ⟨rfl, hd⟩
      rw [List.filterMap_cons, recordOf, if_pos hextension]
      exact ⟨rfl, hd⟩
    next hextension =>
    refine Prog.ensures_bind (Prog.ensures_mono (fun _ h => h) ?_ (readBundle_reads d entry))
    rintro bundle d₁ ⟨hbundle, hd⟩
    subst d₁
    refine Prog.ensures_bind (Prog.ensures_mono (fun _ h => h) ?_ ih)
    rintro records d₂ ⟨rfl, hd⟩
    subst d₂
    refine ⟨fun _ => trivial, ?_, rfl⟩
    rw [List.filterMap_cons, recordOf, if_neg hextension, ← hbundle]
    cases bundle <;> rfl

/-- The order of `list` in words. -/
theorem not_comesBefore {first second : Bytes × EventBundle} :
    (!comesBefore second first) = true ↔
      second.2.firstTriggeredAtUtc < first.2.firstTriggeredAtUtc ∨
        second.2.firstTriggeredAtUtc = first.2.firstTriggeredAtUtc ∧ second.2.id ≤ first.2.id := by
  rw [comesBefore]
  split
  · next hne =>
    simp only [Bool.not_eq_true', decide_eq_false_iff_not]
    have hlt : ∀ {s t : Int}, t ≠ s → (¬ s < t ↔ t < s ∨ t = s ∧ second.2.id ≤ first.2.id) := by
      intro s t hne
      simp only [hne, false_and, or_false]
      omega
    exact hlt hne
  · next heq =>
    rw [ne_eq, not_not] at heq
    simp only [heq, Bool.not_eq_true', decide_eq_false_iff_not, lt_self_iff_false, false_or, true_and]
    exact UInt64.not_lt

theorem listBundles_newest {d : Directory} {name : Bytes} {stored : EventBundle}
    (h : Newest d name stored) :
    (listBundles 1).Ensures directoryWorld (fun _ => True)
      (fun names d' => names = [name] ∧ d' = d) d := by
  refine ⟨fun _ => trivial, fun _ _ => trivial, ?_⟩
  rintro entries d₁ ⟨⟨listed, rfl, hperm⟩, hd⟩
  subst d₁
  refine Prog.ensures_bind (Prog.ensures_mono (fun _ h => h) ?_ (readRecords_reads d listed))
  rintro records d₁ ⟨rfl, hd⟩
  subst d₁
  refine ⟨fun _ => trivial, ?_, rfl⟩
  have hentry : name ∈ d.entries := by
    have hread := h.readable
    rw [Directory.content] at hread
    split at hread
    · assumption
    · cases hread
  have hrecord : recordOf d name = some (name, stored) := by
    rw [recordOf, if_neg (not_not.mpr h.suffix), h.readable]
    rfl
  have hmem : (name, stored) ∈ listed.filterMap (recordOf d) :=
    List.mem_filterMap.mpr ⟨name, hperm.mem_iff.mpr hentry, hrecord⟩
  have htrans : ∀ a b c : Bytes × EventBundle, (!comesBefore b a) = true → (!comesBefore c b) = true →
      (!comesBefore c a) = true := by
    have horder : ∀ {s t u : Int} {i j k : ℕ}, t < s ∨ t = s ∧ j ≤ i → u < t ∨ u = t ∧ k ≤ j →
        u < s ∨ u = s ∧ k ≤ i := by omega
    intro a b c
    simp only [not_comesBefore, UInt64.le_iff_toNat_le]
    exact horder
  have htotal : ∀ a b : Bytes × EventBundle, ((!comesBefore b a) || (!comesBefore a b)) = true := by
    have horder : ∀ (s t : Int) (i j : ℕ), (t < s ∨ t = s ∧ j ≤ i) ∨ (s < t ∨ s = t ∧ i ≤ j) := by
      omega
    intro a b
    rw [Bool.or_eq_true, not_comesBefore, not_comesBefore, UInt64.le_iff_toNat_le,
      UInt64.le_iff_toNat_le]
    exact horder _ _ _ _
  have hsorted := List.pairwise_mergeSort htrans htotal (listed.filterMap (recordOf d))
  have hperm' := List.mergeSort_perm (listed.filterMap (recordOf d)) fun a b => !comesBefore b a
  generalize (listed.filterMap (recordOf d)).mergeSort (fun a b => !comesBefore b a) = sorted at *
  cases sorted with
  | nil => exact absurd (hperm'.mem_iff.mpr hmem) List.not_mem_nil
  | cons first rest =>
    -- the first record comes before all others, and only the newest one does
    suffices hfirst : first.1 = name by
      show [first.1] = [name]
      rw [hfirst]
    by_contra hne
    have hfirst := hperm'.mem_iff.mp List.mem_cons_self
    obtain ⟨entry, -, hentry⟩ := List.mem_filterMap.mp hfirst
    rw [recordOf] at hentry
    split at hentry
    · cases hentry
    next hextension =>
    obtain ⟨bundle, hbundle, rfl⟩ := Option.map_eq_some_iff.mp hentry
    have hbefore := h.newest entry bundle hne (not_not.mp hextension) hbundle
    obtain heq | hrest := List.mem_cons.mp (hperm'.mem_iff.mpr hmem)
    · exact hne (congrArg Prod.fst heq).symm
    · have hle := List.rel_of_pairwise_cons hsorted hrest
      rw [hbefore] at hle
      cases hle

/-- The handler makes the table of the newest bundle. -/
theorem latestEventCsv_newest {d : Directory} {name : Bytes} {stored : EventBundle}
    (h : Newest d name stored) :
    latestEventCsv.Ensures directoryWorld (fun _ => True)
      (fun answer _ => answer = some (toCsv stored)) d := by
  refine Prog.ensures_bind (Prog.ensures_mono (fun _ h => h) ?_ (prepareStore_keeps h))
  rintro prepared d₁ ⟨rfl, hprepared⟩
  refine Prog.ensures_bind (Prog.ensures_mono (fun _ h => h) ?_ (listBundles_newest hprepared))
  rintro names d₂ ⟨rfl, hd⟩
  subst d₂
  refine Prog.ensures_bind (Prog.ensures_mono (fun _ h => h) ?_ (readBundle_reads d₁ name))
  rintro bundle d₂ ⟨rfl, -⟩
  rw [hprepared.readable]
  exact ⟨fun _ => trivial, rfl⟩

/-! ### What is exported -/

/-- The route answers with the whole table. -/
structure Exported (answer : Option Bytes) : Prop where
  table : ∃ csv, answer = some csv ∧ csv.length ≤ kMaxResponseBytes
  status : (exported answer "latest-event.csv").status = 200

/-- A saved bundle that is the newest of the directory is exported exactly if its table fits into
a response; otherwise the route answers 500. -/
theorem event_export_iff {bundle stored : EventBundle} {milliseconds : UInt64} {bytes : Bytes}
    (hsaved : encodeBundle bundle = some (milliseconds, bytes))
    (htime : ClockCount bundle.firstTriggeredAtUtc) (hread : decodeBundle bytes = some stored)
    {d d' : Directory} (hnewest : Newest d (eventName milliseconds bundle) stored)
    {answer : Option Bytes} (h : latestEventCsv.Runs directoryWorld d (some answer) d') :
    (Exported answer ↔ csvBytes bundle ≤ kMaxResponseBytes) ∧
      (¬ Exported answer → (exported answer "latest-event.csv").status = 500) := by
  obtain rfl := (latestEventCsv_newest hnewest).sound h
  have hlength := decoded_csvBytes hsaved htime hread
  by_cases hfits : csvBytes bundle ≤ kMaxResponseBytes
  · have hexported : Exported (some (toCsv stored)) := by
      refine ⟨⟨_, rfl, by rw [hlength]; exact hfits⟩, ?_⟩
      rw [exported, if_neg (by rw [hlength]; exact Nat.not_lt.mpr hfits)]
    exact ⟨iff_of_true hexported hfits, fun hnot => absurd hexported hnot⟩
  · have hnot : ¬ Exported (some (toCsv stored)) := by
      rintro ⟨⟨csv, hcsv, hle⟩, -⟩
      obtain rfl := Option.some.inj hcsv
      exact hfits (hlength ▸ hle)
    refine ⟨iff_of_false hnot hfits, fun _ => ?_⟩
    rw [exported, if_pos (by rw [hlength]; exact Nat.not_le.mp hfits)]
    rfl

/-! ### Bundles that are exported, and bundles that are not -/

/-- A bundle of six frames is never exported. -/
theorem six_frames_exceed {bundle : EventBundle} (h : bundle.frames.length = kMaxEventFrames) :
    ¬ csvBytes bundle ≤ kMaxResponseBytes := by
  have hge := csvBytes_ge bundle
  have hdigits : 1 ≤ digitCount (bundle.firstTriggeredAtUtc.tdiv 1000000).toNat := Nat.succ_pos _
  rw [h, kMaxEventFrames, kPd1000RegisterCount] at hge
  rw [kMaxResponseBytes]
  omega

/-- From September 2001 on, neither is one of four. -/
theorem four_frames_exceed {bundle : EventBundle} (h : 4 ≤ bundle.frames.length)
    (htime : 10 ^ 12 ≤ (bundle.firstTriggeredAtUtc.tdiv 1000000).toNat) :
    ¬ csvBytes bundle ≤ kMaxResponseBytes := by
  have hge := csvBytes_ge bundle
  have hdigits : 13 ≤ digitCount (bundle.firstTriggeredAtUtc.tdiv 1000000).toNat := by
    by_contra hlt
    have hsmall := (digitCount_le_iff (by decide)).mp (Nat.le_of_lt_succ (Nat.not_le.mp hlt))
    omega
  have hline := Nat.mul_le_mul h (Nat.mul_le_mul_left kPd1000RegisterCount
    (Nat.add_le_add_left hdigits 25))
  rw [kPd1000RegisterCount] at hge hline
  rw [kMaxResponseBytes]
  omega

/-- A directory with a single file. -/
def singleFile (name bytes : Bytes) : Directory := { entries := [name], data := fun _ => bytes }

theorem singleFile_newest {name bytes : Bytes} {stored : EventBundle}
    (hname : Storage.extension name = ascii ".bin") (hread : decodeBundle bytes = some stored) :
    Newest (singleFile name bytes) name stored := by
  have hcontent : (singleFile name bytes).content name = some bytes :=
    if_pos (List.mem_singleton_self name)
  refine ⟨List.nodup_singleton name, hname, by rw [hcontent]; exact hread, ?_⟩
  intro other bundle hne _ hother
  rw [Directory.content, if_neg (by exact fun hmem => hne (List.mem_singleton.mp hmem))] at hother
  cases hother

theorem reads_answered {call : FileCall} (h : Reads call) (d : Directory) :
    ∃ a d', directoryWorld.answers call d a d' := by
  cases call with
  | listDirectory => exact ⟨some d.entries, d, ⟨_, rfl, .refl _⟩, rfl⟩
  | remove name => exact ⟨_, _, rfl, rfl⟩
  | fileSize name => exact ⟨_, _, rfl, rfl⟩
  | readFile name => exact ⟨_, _, rfl, rfl⟩
  | createDirectories => exact ⟨_, _, rfl, rfl⟩
  | isDirectory => exact ⟨_, _, rfl, rfl⟩
  | chmodDirectory => exact ⟨_, _, rfl, rfl⟩
  | write descriptor bytes => exact h.elim
  | openTruncated name => exact h.elim
  | fchmod descriptor => exact h.elim
  | fsync descriptor => exact h.elim
  | close descriptor => exact h.elim
  | rename source target => exact h.elim
  | openDirectory => exact h.elim
  | unlink name => exact h.elim

theorem sampleBundle_fits : csvBytes sampleBundle ≤ kMaxResponseBytes := by
  have hstatus : ∀ status, statusBytes status ≤ 13 := by
    intro status
    cases status <;> decide
  have hline : ∀ frame ∈ sampleBundle.frames, lineBytes sampleBundle frame ≤ 40 := by
    intro frame hframe
    have hsmall := hstatus frame.payload.payloadStatus
    have hgeneration : frame.generation = 1 := by
      rw [List.mem_singleton.mp hframe]
    rw [lineBytes, hgeneration]
    show 1 + 1 + 5 + 1 + 1 + _ + 13 ≤ 40
    omega
  exact Nat.le_trans (csvBytes_le hline) (by decide)

theorem sampleBundle_decoded {bytes : Bytes} (h : encodeBundle sampleBundle = some (0, bytes)) :
    decodeBundle bytes = some (storedBundle sampleBundle) := by
  refine decodeBundle_encodeBundle h ⟨by decide, by decide⟩ ?_
  intro frame hframe
  rw [List.mem_singleton.mp hframe]
  rfl

theorem event_export_sample : ∃ bytes d answer d',
    encodeBundle sampleBundle = some (0, bytes) ∧
      latestEventCsv.Runs directoryWorld d (some answer) d' ∧ Exported answer := by
  obtain ⟨bytes, hsaved⟩ := sampleBundle_encoded
  have hread := sampleBundle_decoded hsaved
  have hnewest := singleFile_newest (extension_eventName 0 sampleBundle) hread
  obtain ⟨answer, d', hrun⟩ := latestEventCsv_onlyReads.exists_runs (fun _ => reads_answered)
    (singleFile (eventName 0 sampleBundle) bytes)
  refine ⟨bytes, _, answer, d', hsaved, hrun, ?_⟩
  have hfits := event_export_iff hsaved ⟨by decide, by decide⟩ hread hnewest hrun
  exact hfits.1.mpr sampleBundle_fits

/-- A frame with the given registers. -/
def silentFrame (rawRegisters : Registers) (generation : UInt64) : PublishedSnapshot :=
  { generation := generation, startedAt := 0, completedAt := 0, pollDuration := 0
    payload := parsePd1000Registers rawRegisters }

/-- A bundle of six frames. -/
def sixFrames : EventBundle where
  id := 1
  reasonMask := kStrongReason
  strong := ⟨1, -40, 0⟩
  frames := [1, 2, 3, 4, 5, 6].map (silentFrame (Vector.replicate kPd1000RegisterCount 0))

/-- It is saved and read back, and the export answers 500. -/
theorem sixFrames_not_exported : ∃ bytes stored d answer d',
    encodeBundle sixFrames = some (0, bytes) ∧ decodeBundle bytes = some stored ∧
      Newest d (eventName 0 sixFrames) stored ∧
      latestEventCsv.Runs directoryWorld d (some answer) d' ∧ answer = some (toCsv stored) ∧
      kMaxResponseBytes < (toCsv stored).length ∧ (exported answer "latest-event.csv").status = 500 := by
  have htime : timestampMilliseconds sixFrames.firstTriggeredAtUtc = some 0 := by decide
  have hvalid : bundleIsValid sixFrames = true := by
    rw [bundleIsValid]
    decide
  have hparsed : ∀ rawRegisters generation, Parsed (silentFrame rawRegisters generation) :=
    fun _ _ => rfl
  obtain ⟨bytes, hsaved⟩ := encodeBundle_isSome htime hvalid rfl
  have hclock : ClockCount sixFrames.firstTriggeredAtUtc := ⟨by decide, by decide⟩
  have hread := decodeBundle_encodeBundle hsaved hclock (by
    intro frame hframe
    obtain ⟨generation, -, rfl⟩ := List.mem_map.mp hframe
    exact hparsed _ generation)
  have hnewest := singleFile_newest (extension_eventName 0 sixFrames) hread
  obtain ⟨answer, d', hrun⟩ := latestEventCsv_onlyReads.exists_runs (fun _ => reads_answered)
    (singleFile (eventName 0 sixFrames) bytes)
  obtain rfl := (latestEventCsv_newest hnewest).sound hrun
  have hlarge : kMaxResponseBytes < (toCsv (storedBundle sixFrames)).length := by
    rw [decoded_csvBytes hsaved hclock hread]
    exact Nat.not_le.mp (six_frames_exceed rfl)
  refine ⟨bytes, _, _, _, d', hsaved, hread, hnewest, hrun, rfl, hlarge, ?_⟩
  rw [exported, if_pos hlarge]
  rfl

end Uhf.Web
