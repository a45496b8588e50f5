/-
The logger (`Logger::log_at`, `Logger::recovered_at`).

A logger keeps the latest entries in a ring that is bounded by their number and by their bytes, and
a record for each event that it throttles.  Sizes are natural numbers, since all that is counted in
them is in memory; the other counters have 64 bits.

Not modelled: the lines for syslog, which nothing reads back.

* `entryOf_fields` — which fields an entry has;
* `trimRecent_spec` — what trimming leaves;
* `LoggerRun.invariant` — the rule for runs;
* `ring_accounted` — the ring and the records over every run;
* `sequence_wraps` — the sequence numbers over a run of 2^64 entries.
-/
import UhfGateway.Acquisition.SnapshotStore
import UhfGateway.Containers.Table
import UhfGateway.Domain.Decimal

namespace Uhf.Logging

open Acquisition Containers

/-! ### Entries -/

inductive Level
  | debug
  | info
  | warning
  | error
  | critical
  deriving DecidableEq

/-- `level_rank`. -/
def Level.rank : Level → ℕ
  | .debug => 0
  | .info => 1
  | .warning => 2
  | .error => 3
  | .critical => 4

inductive Component
  | acquisition
  | modbusRtu
  | modbusTcp
  | iec61850
  | web
  | auth
  | config
  | storage
  | system
  deriving DecidableEq

/-- `component_name`. -/
def Component.name : Component → Bytes
  | .acquisition => ascii "acquisition"
  | .modbusRtu => ascii "modbus-rtu"
  | .modbusTcp => ascii "modbus-tcp"
  | .iec61850 => ascii "iec61850"
  | .web => ascii "web"
  | .auth => ascii "auth"
  | .config => ascii "config"
  | .storage => ascii "storage"
  | .system => ascii "system"

structure Field where
  key : Bytes
  value : Bytes
  deriving DecidableEq

structure Entry where
  timestampUtc : Nanoseconds
  sequence : UInt64 := 0
  level : Level
  component : Component
  eventCode : Bytes
  message : Bytes
  fields : List Field := []

structure Options where
  minimumLevel : Level := .info
  maxRecentEntries : ℕ := 500
  maxRecentBytes : ℕ := 512 * 1024
  maxThrottleRecords : ℕ := 64
  /-- In seconds. -/
  throttleWindow : Int := 60

def Options.window (options : Options) : Nanoseconds := options.throttleWindow * 1000000000

def kMaxEventCodeBytes : ℕ := 64
def kMaxMessageBytes : ℕ := 256
def kMaxFieldCount : ℕ := 8
def kMaxFieldKeyBytes : ℕ := 32
def kMaxFieldValueBytes : ℕ := 128
def kMaxEntryBytes : ℕ := 2048

/-! ### Texts -/

/-- `std::tolower` of the C locale. -/
def toLower (c : UInt8) : UInt8 :=
  if 'A'.toUInt8 ≤ c ∧ c ≤ 'Z'.toUInt8 then c + 0x20 else c

/-- `std::isalnum` of the C locale. -/
def isAlnum (c : UInt8) : Bool :=
  isDigit c || (('A'.toUInt8 ≤ c && c ≤ 'Z'.toUInt8) || ('a'.toUInt8 ≤ c && c ≤ 'z'.toUInt8))

def containsAsciiCaseInsensitive (value needle : Bytes) : Bool :=
  if needle = [] ∨ value.length < needle.length then false
  else (List.range (value.length - needle.length + 1)).any fun offset =>
    ((value.drop offset).take needle.length).map toLower = needle.map toLower

def sensitiveWords : List Bytes :=
  [ascii "password", ascii "passwd", ascii "cookie", ascii "token", ascii "secret",
    ascii "private", ascii "credential", ascii "authorization", ascii "auth", ascii "key",
    ascii "spectrum", ascii "payload", ascii "config"]

def sensitiveKey (key : Bytes) : Bool := sensitiveWords.any (containsAsciiCaseInsensitive key)

def cleanText (value : Bytes) (limit : ℕ) : Bytes :=
  (value.take limit).map fun c => if c < 0x20 ∨ c = 0x7F then '?'.toUInt8 else c

/-- What is left of a key. -/
def safeKey (key : Bytes) : Bytes :=
  (cleanText key kMaxFieldKeyBytes).map fun c =>
    if isAlnum c ∨ c = '_'.toUInt8 ∨ c = '-'.toUInt8 ∨ c = '.'.toUInt8 then c else '_'.toUInt8

/-- `throttle_key`. -/
def throttleKey (component : Component) (eventCode : Bytes) : Bytes :=
  component.name ++ ascii ":" ++ cleanText eventCode kMaxEventCodeBytes

def Field.bytes (field : Field) : ℕ := field.key.length + field.value.length + 2

/-- `entry_bytes`. -/
def Entry.bytes (e : Entry) : ℕ :=
  e.eventCode.length + e.message.length + 32 + (e.fields.map Field.bytes).sum

/-! ### Making an entry -/

/-- What `log_at` and `recovered_at` are called with, besides the level. -/
structure Event where
  component : Component
  eventCode : Bytes
  message : Bytes
  fields : List Field
  monotonicNow : Nanoseconds
  utcNow : Nanoseconds

/-- The field that is made of one of the caller's. -/
def Field.clean (field : Field) : Field :=
  ⟨safeKey field.key, cleanText field.value kMaxFieldValueBytes⟩

/-- The loop over the fields in `normalize`. -/
def normalizeFields : List Field → List Field → List Field
  | [], kept => kept
  | field :: rest, kept =>
    if kMaxFieldCount ≤ kept.length ∨ sensitiveKey field.key = true then normalizeFields rest kept
    else if cleanText field.key kMaxFieldKeyBytes = [] then normalizeFields rest kept
    else normalizeFields rest (kept ++ [field.clean])

/-- The loop at the end of `normalize`, which takes fields away from an entry that is too long. -/
def popFields : ℕ → Entry → Entry
  | 0, e => e
  | n + 1, e =>
    if kMaxEntryBytes < e.bytes ∧ e.fields ≠ [] then
      popFields n { e with fields := e.fields.dropLast }
    else e

/-- The entry that `normalize` begins with. -/
def draft (level : Level) (component : Component) (eventCode message : Bytes)
    (fields : List Field) (utcNow : Nanoseconds) : Entry where
  timestampUtc := utcNow
  level := level
  component := component
  eventCode :=
    if cleanText eventCode kMaxEventCodeBytes = [] then ascii "unspecified"
    else cleanText eventCode kMaxEventCodeBytes
  message := cleanText message kMaxMessageBytes
  fields := normalizeFields fields []

/-- `normalize`. -/
def entryOf (level : Level) (component : Component) (eventCode message : Bytes)
    (fields : List Field) (utcNow : Nanoseconds) : Entry :=
  popFields (normalizeFields fields []).length
    (draft level component eventCode message fields utcNow)

def countField (suppressed : UInt64) : Field := ⟨ascii "suppressed_count", decimal suppressed.toNat⟩

/-- `effective_fields`. -/
def effectiveFields (fields : List Field) (suppressed : UInt64) : List Field :=
  if 0 < suppressed then fields ++ [countField suppressed] else fields

/-! ### The logger -/

structure ThrottleState where
  lastEmitted : Nanoseconds
  lastSeen : Nanoseconds
  suppressed : UInt64 := 0

inductive Call
  | log (level : Level) (event : Event)
  | recovered (event : Event)

def Call.event : Call → Event
  | .log _ event => event
  | .recovered event => event

/-- An entry with the call that it was made for. -/
structure Emission where
  call : Call
  entry : Entry

structure Logger where
  options : Options
  nextSequence : UInt64 := 1
  recentBytes : ℕ := 0
  suppressedCount : UInt64 := 0
  evictedRecentCount : UInt64 := 0
  recentEntries : List Entry := []
  throttle : Table Bytes ThrottleState := ∅
  /-- All entries so far.  The source keeps no such list, and nothing here looks at it. -/
  emitted : List Emission := []

/-- The difference of two numbers of type `size_t`. -/
def sizeSub (a b : ℕ) : ℕ := if b ≤ a then a - b else a + 2 ^ 64 - b

namespace Logger

/-- The loop of `trim_recent_locked`.  It is called with `max_recent_entries > 0` only, so that it
stops when the ring is empty. -/
def trimRecent (l : Logger) : List Entry → ℕ → UInt64 → Logger
  | [], bytes, evicted =>
    { l with recentEntries := [], recentBytes := bytes, evictedRecentCount := evicted }
  | front :: rest, bytes, evicted =>
    if (l.options.maxRecentEntries = 0 ∨ l.options.maxRecentEntries < (front :: rest).length) ∨
        l.options.maxRecentBytes < bytes then
      trimRecent l rest (sizeSub bytes front.bytes) (evicted + 1)
    else
      { l with
        recentEntries := front :: rest
        recentBytes := bytes
        evictedRecentCount := evicted }

/-- `emit_locked`. -/
def emit (l : Logger) (call : Call) (entry : Entry) : Logger :=
  let entry := { entry with sequence := l.nextSequence }
  let l := { l with nextSequence := l.nextSequence + 1, emitted := l.emitted ++ [⟨call, entry⟩] }
  if 0 < l.options.maxRecentEntries ∧ entry.bytes ≤ l.options.maxRecentBytes then
    l.trimRecent (l.recentEntries ++ [entry]) (l.recentBytes + entry.bytes) l.evictedRecentCount
  else l

/-- When the event of a record was seen last. -/
def lastSeen (l : Logger) (key : Bytes) : Nanoseconds :=
  (l.throttle.lookup key).elim 0 ThrottleState.lastSeen

/-- The record that `evict_oldest_throttle_locked` erases, if the map is iterated in this order. -/
def oldest (l : Logger) : List Bytes → Option Bytes
  | [] => none
  | first :: rest =>
    some (rest.foldl (fun oldest key => if l.lastSeen key < l.lastSeen oldest then key else oldest)
      first)

def evictOldest (l : Logger) (order : List Bytes) : Logger :=
  match l.oldest order with
  | none => l
  | some key => { l with throttle := l.throttle.erase key }

/-- Room for one more record. -/
def makeRoom (l : Logger) (order : List Bytes) : Logger :=
  if l.options.maxThrottleRecords ≤ l.throttle.size then l.evictOldest order else l

/-- The entry of a call, with the events that were suppressed before it. -/
def report (l : Logger) (level : Level) (event : Event) (suppressed : UInt64) : Logger :=
  l.emit (.log level event)
    (entryOf level event.component event.eventCode event.message
      (effectiveFields event.fields suppressed) event.utcNow)

/-- `log_at`, with the order in which the map is iterated if a record has to go. -/
def logAt (l : Logger) (order : List Bytes) (level : Level) (event : Event) : Bool × Logger :=
  if level.rank < l.options.minimumLevel.rank then (false, l)
  else
    let key := throttleKey event.component event.eventCode
    if Level.warning.rank ≤ level.rank ∧ 0 < l.options.throttleWindow then
      match l.throttle.lookup key with
      | some state =>
        if event.monotonicNow < state.lastEmitted + l.options.window then
          (false, { l with
            throttle := l.throttle.insert key
              { state with suppressed := state.suppressed + 1, lastSeen := event.monotonicNow }
            suppressedCount := l.suppressedCount + 1 })
        else
          (true, { l with
            throttle := l.throttle.insert key ⟨event.monotonicNow, event.monotonicNow, 0⟩ }.report
              level event state.suppressed)
      | none =>
        if l.options.maxThrottleRecords = 0 then (true, l.report level event 0)
        else
          (true, { l with
            throttle := (l.makeRoom order).throttle.insert key
              ⟨event.monotonicNow, event.monotonicNow, 0⟩ }.report level event 0)
    else (true, l.report level event 0)

/-- `recovered_at`. -/
def recoveredAt (l : Logger) (event : Event) : Bool × Logger :=
  if Level.info.rank < l.options.minimumLevel.rank then (false, l)
  else
    let key := throttleKey event.component event.eventCode
    match l.throttle.lookup key with
    | none => (false, l)
    | some state =>
      (true, { l with throttle := l.throttle.erase key }.emit (.recovered event)
        (entryOf .info event.component (event.eventCode ++ ascii ".recovered") event.message
          (effectiveFields event.fields state.suppressed) event.utcNow))

def perform (l : Logger) (order : List Bytes) : Call → Bool × Logger
  | .log level event => l.logAt order level event
  | .recovered event => l.recoveredAt event

end Logger

/-- The runs of a logger by its calls, each of which finds the map in some order. -/
inductive LoggerRun (options : Options)
    (Allowed : List Call → Logger → List Bytes → Call → Prop) : List Call → Logger → Prop
  | start : LoggerRun options Allowed [] { options := options }
  | call {calls : List Call} {l : Logger} (call : Call) (order : List Bytes)
      (h : LoggerRun options Allowed calls l) (horder : order.Perm l.throttle.keys)
      (hallowed : Allowed calls l order call) :
      LoggerRun options Allowed (calls ++ [call]) (l.perform order call).2

/-! ### What an entry has -/

theorem normalizeFields_spec (fields kept : List Field) :
    ∃ more, normalizeFields fields kept = kept ++ more ∧
      more.Sublist ((fields.filter fun field => !sensitiveKey field.key).map Field.clean) ∧
      (kept.length ≤ kMaxFieldCount → (kept ++ more).length ≤ kMaxFieldCount) := by
  induction fields generalizing kept with
  | nil => exact ⟨[], (List.append_nil kept).symm, .slnil, fun h => by rwa [List.append_nil]⟩
  | cons field rest ih =>
    -- a field that is left out
    have hskip : ∀ more : List Field, more.Sublist
        ((rest.filter fun field => !sensitiveKey field.key).map Field.clean) →
        more.Sublist
          (((field :: rest).filter fun field => !sensitiveKey field.key).map Field.clean) := by
      intro more hmore
      exact hmore.trans (((List.sublist_cons_self field rest).filter _).map _)
    rw [normalizeFields]
    split
    · obtain ⟨more, heq, hsub, hlength⟩ := ih kept
      exact ⟨more, heq, hskip more hsub, hlength⟩
    next hkeep =>
    split
    · obtain ⟨more, heq, hsub, hlength⟩ := ih kept
      exact ⟨more, heq, hskip more hsub, hlength⟩
    · obtain ⟨more, heq, hsub, hlength⟩ := ih (kept ++ [field.clean])
      rw [not_or, not_le, Bool.not_eq_true] at hkeep
      refine ⟨field.clean :: more, ?_, ?_, fun _ => ?_⟩
      · rw [heq, List.append_assoc, List.singleton_append]
      · rw [List.filter_cons_of_pos (by rw [hkeep.2]; rfl), List.map_cons]
        exact hsub.cons_cons _
      · have hall := hlength (by rw [List.length_append, List.length_singleton]; exact hkeep.1)
        rw [List.append_assoc, List.singleton_append] at hall
        exact hall

theorem popFields_spec (n : ℕ) (e : Entry) :
    ∃ fields, popFields n e = { e with fields := fields } ∧ fields <+: e.fields ∧
      (e.fields.length ≤ n → { e with fields := fields : Entry }.bytes ≤ kMaxEntryBytes ∨
        fields = []) ∧
      (e.bytes ≤ kMaxEntryBytes → fields = e.fields) := by
  induction n generalizing e with
  | zero =>
    refine ⟨e.fields, rfl, List.prefix_refl _, fun h => .inr ?_, fun _ => rfl⟩
    exact List.length_eq_zero_iff.mp (Nat.le_zero.mp h)
  | succ n ih =>
    rw [popFields]
    split
    · next hlong =>
      obtain ⟨fields, heq, hfront, hshort, -⟩ := ih { e with fields := e.fields.dropLast }
      refine ⟨fields, heq, hfront.trans (List.dropLast_prefix _), fun h => hshort ?_, fun h => ?_⟩
      · rw [List.length_dropLast]
        omega
      · exact absurd hlong.1 (Nat.not_lt.mpr h)
    · next hdone =>
      refine ⟨e.fields, rfl, List.prefix_refl _, fun _ => ?_, fun _ => rfl⟩
      rw [not_and_or, not_lt, not_not] at hdone
      exact hdone

/-- The fields of an entry are some of the caller's, cleaned, without those with sensitive keys. -/
theorem entryOf_fields {level : Level} {component : Component} {eventCode message : Bytes}
    {fields : List Field} {utcNow : Nanoseconds} :
    (entryOf level component eventCode message fields utcNow).fields.length ≤ kMaxFieldCount ∧
      (entryOf level component eventCode message fields utcNow).fields.Sublist
        ((fields.filter fun field => !sensitiveKey field.key).map Field.clean) := by
  obtain ⟨kept, hkept, hsub, hlength⟩ := normalizeFields_spec fields []
  rw [List.nil_append] at hkept hlength
  obtain ⟨fields', heq, hfront, -, -⟩ := popFields_spec (normalizeFields fields []).length
    (draft level component eventCode message fields utcNow)
  rw [entryOf, heq]
  have hkeptFront : fields' <+: kept := hkept ▸ hfront
  exact ⟨hkeptFront.length_le.trans (hlength (Nat.zero_le _)), hkeptFront.sublist.trans hsub⟩

/-! ### The ring -/

def ringBytes (ring : List Entry) : ℕ := (ring.map Entry.bytes).sum

namespace Logger

theorem trimRecent_spec (l : Logger) (ring : List Entry) (evicted : UInt64) :
    ∃ kept evicted', kept <:+ ring ∧ kept.length ≤ l.options.maxRecentEntries ∧
      ringBytes kept ≤ l.options.maxRecentBytes ∧
      l.trimRecent ring (ringBytes ring) evicted =
        { l with
          recentEntries := kept
          recentBytes := ringBytes kept
          evictedRecentCount := evicted' } := by
  induction ring generalizing evicted with
  | nil => exact ⟨[], evicted, List.suffix_refl _, Nat.zero_le _, Nat.zero_le _, rfl⟩
  | cons front rest ih =>
    have hbytes : ringBytes (front :: rest) = front.bytes + ringBytes rest := List.sum_cons
    -- the front is part of what is counted, so that the difference does not wrap
    have hsub : sizeSub (ringBytes (front :: rest)) front.bytes = ringBytes rest := by
      rw [hbytes, sizeSub, if_pos (Nat.le_add_right _ _), Nat.add_sub_cancel_left]
    rw [trimRecent]
    split
    · rw [hsub]
      obtain ⟨kept, evicted', hkept, hlength, hfits, heq⟩ := ih (evicted + 1)
      exact ⟨kept, evicted', hkept.trans (List.suffix_cons front rest), hlength, hfits, heq⟩
    · next hdone =>
      simp only [not_or, not_lt] at hdone
      exact ⟨front :: rest, evicted, List.suffix_refl _, hdone.1.2, hdone.2, rfl⟩

/-- The entry as it is emitted. -/
def numbered (l : Logger) (entry : Entry) : Entry := { entry with sequence := l.nextSequence }

/-- Where the ring is within its bounds, it still is with a new entry. -/
theorem emit_spec {l : Logger} {call : Call} {entry : Entry}
    (hbytes : l.recentBytes = ringBytes l.recentEntries)
    (hentries : l.recentEntries.length ≤ l.options.maxRecentEntries)
    (hfits : l.recentBytes ≤ l.options.maxRecentBytes) :
    ∃ kept evicted', kept.Sublist (l.recentEntries ++ [l.numbered entry]) ∧
      kept.length ≤ l.options.maxRecentEntries ∧ ringBytes kept ≤ l.options.maxRecentBytes ∧
      l.emit call entry =
        { l with
          nextSequence := l.nextSequence + 1
          emitted := l.emitted ++ [⟨call, l.numbered entry⟩]
          recentEntries := kept
          recentBytes := ringBytes kept
          evictedRecentCount := evicted' } := by
  rw [emit]
  split
  · have hsum : l.recentBytes + (l.numbered entry).bytes =
        ringBytes (l.recentEntries ++ [l.numbered entry]) := by
      rw [hbytes, ringBytes, ringBytes, List.map_append, List.sum_append, List.map_singleton,
        List.sum_singleton]
    obtain ⟨kept, evicted', hkept, hlength, hkeptFits, heq⟩ := trimRecent_spec
      { l with
        nextSequence := l.nextSequence + 1
        emitted := l.emitted ++ [⟨call, l.numbered entry⟩] }
      (l.recentEntries ++ [l.numbered entry]) l.evictedRecentCount
    refine ⟨kept, evicted', hkept.sublist, hlength, hkeptFits, ?_⟩
    rw [← hsum] at heq
    exact heq
  · refine ⟨l.recentEntries, l.evictedRecentCount, List.sublist_append_left _ _, hentries, ?_, ?_⟩
    · rw [← hbytes]
      exact hfits
    · rw [← hbytes]
      rfl

/-! ### What a call does -/

/-- The event of the call is one that is throttled. -/
def Throttles (l : Logger) (level : Level) : Prop :=
  Level.warning.rank ≤ level.rank ∧ 0 < l.options.throttleWindow

/-- A call that makes an entry: the records after it, the level and the code of the entry, and how
many events it says were suppressed. -/
inductive Reports (l : Logger) (order : List Bytes) :
    Call → Table Bytes ThrottleState → Level → Bytes → UInt64 → Prop
  | plain {level : Level} {event : Event} (h : ¬ l.Throttles level) :
      Reports l order (.log level event) l.throttle level event.eventCode 0
  | again {level : Level} {event : Event} {state : ThrottleState} (hlevel : l.Throttles level)
      (h : l.throttle.lookup (throttleKey event.component event.eventCode) = some state)
      (hlate : state.lastEmitted + l.options.window ≤ event.monotonicNow) :
      Reports l order (.log level event)
        (l.throttle.insert (throttleKey event.component event.eventCode)
          ⟨event.monotonicNow, event.monotonicNow, 0⟩) level event.eventCode state.suppressed
  | unrecorded {level : Level} {event : Event} (hlevel : l.Throttles level)
      (h : l.throttle.lookup (throttleKey event.component event.eventCode) = none)
      (hmax : l.options.maxThrottleRecords = 0) :
      Reports l order (.log level event) l.throttle level event.eventCode 0
  | first {level : Level} {event : Event} (hlevel : l.Throttles level)
      (h : l.throttle.lookup (throttleKey event.component event.eventCode) = none)
      (hmax : 0 < l.options.maxThrottleRecords) :
      Reports l order (.log level event)
        ((l.makeRoom order).throttle.insert (throttleKey event.component event.eventCode)
          ⟨event.monotonicNow, event.monotonicNow, 0⟩) level event.eventCode 0
  | recovered {event : Event} {state : ThrottleState}
      (h : l.throttle.lookup (throttleKey event.component event.eventCode) = some state) :
      Reports l order (.recovered event)
        (l.throttle.erase (throttleKey event.component event.eventCode)) .info
        (event.eventCode ++ ascii ".recovered") state.suppressed

/-- The entry of such a call. -/
def entryFor (call : Call) (level : Level) (eventCode : Bytes) (suppressed : UInt64) : Entry :=
  entryOf level call.event.component eventCode call.event.message
    (effectiveFields call.event.fields suppressed) call.event.utcNow

/-- A call leaves the logger alone, suppresses its event, or makes an entry. -/
inductive Step (l : Logger) (order : List Bytes) (call : Call) : Logger → Prop
  | ignored : Step l order call l
  | suppressed {level : Level} {event : Event} {state : ThrottleState}
      (hcall : call = .log level event)
      (hlevel : l.Throttles level)
      (h : l.throttle.lookup (throttleKey event.component event.eventCode) = some state)
      (hearly : event.monotonicNow < state.lastEmitted + l.options.window) :
      Step l order call { l with
        throttle := l.throttle.insert (throttleKey event.component event.eventCode)
          { state with suppressed := state.suppressed + 1, lastSeen := event.monotonicNow }
        suppressedCount := l.suppressedCount + 1 }
  | emitted {throttle : Table Bytes ThrottleState} {level : Level} {eventCode : Bytes}
      {suppressed : UInt64} (h : l.Reports order call throttle level eventCode suppressed) :
      Step l order call
        ({ l with throttle := throttle }.emit call (entryFor call level eventCode suppressed))

theorem perform_step (l : Logger) (order : List Bytes) (call : Call) :
    l.Step order call (l.perform order call).2 := by
  cases call with
  | log level event =>
    rw [perform, logAt]
    split
    · exact .ignored
    dsimp only
    split
    · next hlevel =>
      split
      · next state hstate =>
        split
        · next hearly => exact .suppressed rfl hlevel hstate hearly
        · next hlate => exact .emitted (.again hlevel hstate (not_lt.mp hlate))
      · next hnone =>
        split
        · next hmax => exact .emitted (.unrecorded hlevel hnone hmax)
        · next hmax => exact .emitted (.first hlevel hnone (Nat.pos_of_ne_zero hmax))
    · next hlevel => exact .emitted (.plain hlevel)
  | recovered event =>
    rw [perform, recoveredAt]
    split
    · exact .ignored
    dsimp only
    split
    · exact .ignored
    · next state hstate => exact .emitted (.recovered hstate)

theorem emit_options (l : Logger) (call : Call) (entry : Entry) :
    (l.emit call entry).options = l.options ∧ (l.emit call entry).throttle = l.throttle ∧
      (l.emit call entry).suppressedCount = l.suppressedCount ∧
      (l.emit call entry).nextSequence = l.nextSequence + 1 ∧
      (l.emit call entry).emitted = l.emitted ++ [⟨call, l.numbered entry⟩] := by
  have htrim : ∀ (l : Logger) (ring : List Entry) (bytes : ℕ) (evicted : UInt64),
      (l.trimRecent ring bytes evicted).options = l.options ∧
        (l.trimRecent ring bytes evicted).throttle = l.throttle ∧
        (l.trimRecent ring bytes evicted).suppressedCount = l.suppressedCount ∧
        (l.trimRecent ring bytes evicted).nextSequence = l.nextSequence ∧
        (l.trimRecent ring bytes evicted).emitted = l.emitted := by
    intro l ring
    induction ring with
    | nil => exact fun _ _ => ⟨rfl, rfl, rfl, rfl, rfl⟩
    | cons front rest ih =>
      intro bytes evicted
      rw [trimRecent]
      split
      · exact ih _ _
      · exact ⟨rfl, rfl, rfl, rfl, rfl⟩
  rw [emit]
  split
  · exact htrim _ _ _ _
  · exact ⟨rfl, rfl, rfl, rfl, rfl⟩

/-! ### Records -/

theorem oldest_mem {l : Logger} {order : List Bytes} {key : Bytes} (h : l.oldest order = some key) :
    key ∈ order := by
  cases order with
  | nil => cases h
  | cons first rest =>
    have hfold : ∀ (rest : List Bytes) (start : Bytes), rest.foldl (fun oldest key =>
        if l.lastSeen key < l.lastSeen oldest then key else oldest) start ∈ start :: rest := by
      intro rest
      induction rest with
      | nil => exact fun start => List.mem_singleton_self start
      | cons key rest ih =>
        intro start
        rw [List.foldl_cons]
        split
        · exact List.mem_cons_of_mem _ (ih key)
        · obtain heq | hmem := List.mem_cons.mp (ih start)
          · rw [heq]
            exact List.mem_cons_self
          · exact List.mem_cons_of_mem _ (List.mem_cons_of_mem _ hmem)
    exact Option.some.inj h ▸ hfold rest first

/-- What has been erased to make room, if anything. -/
theorem makeRoom_cases {l : Logger} {order : List Bytes} (horder : order.Perm l.throttle.keys) :
    (l.throttle.size < l.options.maxThrottleRecords ∧ l.makeRoom order = l) ∨
    (l.throttle.size = 0 ∧ l.makeRoom order = l) ∨
    ∃ key, l.options.maxThrottleRecords ≤ l.throttle.size ∧ l.oldest order = some key ∧
      key ∈ l.throttle ∧ l.makeRoom order = { l with throttle := l.throttle.erase key } := by
  rw [makeRoom]
  split
  · next hfull =>
    rw [evictOldest]
    cases holdest : l.oldest order with
    | none =>
      cases order with
      | nil => exact .inr (.inl ⟨horder.symm.length_eq, rfl⟩)
      | cons first rest => cases holdest
    | some key =>
      have hmem : key ∈ l.throttle := AList.mem_keys.mpr (horder.subset (oldest_mem holdest))
      exact .inr (.inr ⟨key, hfull, rfl, hmem, rfl⟩)
  · next hroom => exact .inl ⟨not_le.mp hroom, rfl⟩

theorem Reports.size_le {l : Logger} {order : List Bytes} {call : Call}
    {throttle : Table Bytes ThrottleState} {level : Level} {eventCode : Bytes} {suppressed : UInt64}
    (h : l.Reports order call throttle level eventCode suppressed)
    (horder : order.Perm l.throttle.keys)
    (hsize : l.throttle.size ≤ l.options.maxThrottleRecords) :
    throttle.size ≤ l.options.maxThrottleRecords := by
  cases h with
  | plain => exact hsize
  | again _ h _ =>
    rw [Table.size_insert_of_mem (Table.mem_iff_lookup.mpr ⟨_, h⟩)]
    exact hsize
  | unrecorded => exact hsize
  | first _ _ hmax =>
    refine Table.size_insert_le.trans ?_
    obtain ⟨hroom, heq⟩ | ⟨hzero, heq⟩ | ⟨key, -, -, hmem, heq⟩ := makeRoom_cases horder
    · rw [heq]
      omega
    · rw [heq, hzero]
      omega
    · rw [heq]
      have hless := Table.size_erase_lt hmem
      show Table.size (l.throttle.erase key) + 1 ≤ l.options.maxThrottleRecords
      omega
  | recovered => exact Table.size_erase_le.trans hsize

end Logger

/-! ### Every run -/

/-- What every call keeps holds in every run. -/
theorem LoggerRun.invariant {options : Options}
    {Allowed : List Call → Logger → List Bytes → Call → Prop} (Inv : List Call → Logger → Prop)
    (hstart : Inv [] { options := options })
    (hstep : ∀ calls l order call l', Inv calls l → order.Perm l.throttle.keys →
      Allowed calls l order call → l.Step order call l' → Inv (calls ++ [call]) l')
    {calls : List Call} {l : Logger} (h : LoggerRun options Allowed calls l) : Inv calls l := by
  induction h with
  | start => exact hstart
  | call call order _ horder hallowed ih =>
    exact hstep _ _ order call _ ih horder hallowed (Logger.perform_step _ order call)

/-- No more fields than there may be, and none whose key as the caller gave it is sensitive. -/
def Emission.Cleaned (m : Emission) : Prop :=
  m.entry.fields.length ≤ kMaxFieldCount ∧ ∃ suppressed, m.entry.fields.Sublist
    (((effectiveFields m.call.event.fields suppressed).filter fun field =>
      !sensitiveKey field.key).map Field.clean)

structure RingAccounted (options : Options) (l : Logger) : Prop where
  bytes : l.recentBytes = ringBytes l.recentEntries
  entries_le : l.recentEntries.length ≤ options.maxRecentEntries
  bytes_le : l.recentBytes ≤ options.maxRecentBytes
  throttle_le : l.throttle.size ≤ options.maxThrottleRecords
  /-- The ring holds entries that have been emitted, in their order. -/
  recent : l.recentEntries.Sublist (l.emitted.map Emission.entry)
  cleaned : ∀ m ∈ l.emitted, m.Cleaned

/-- The entries are numbered from 1. -/
structure Numbered (l : Logger) : Prop where
  next : l.nextSequence = UInt64.ofNat (l.emitted.length + 1)
  sequences : l.emitted.map (fun m => m.entry.sequence) =
    (List.range l.emitted.length).map fun n => UInt64.ofNat (n + 1)

theorem RingAccounted.emit {options : Options} {l : Logger} {call : Call} {level : Level}
    {eventCode : Bytes} {suppressed : UInt64} (hoptions : l.options = options)
    (h : RingAccounted options l) :
    RingAccounted options (l.emit call (Logger.entryFor call level eventCode suppressed)) := by
  obtain ⟨kept, evicted, hkept, hlength, hfits, heq⟩ := @Logger.emit_spec l call
    (Logger.entryFor call level eventCode suppressed) h.bytes (hoptions ▸ h.entries_le)
    (hoptions ▸ h.bytes_le)
  rw [heq]
  refine ⟨rfl, hoptions ▸ hlength, hoptions ▸ hfits, h.throttle_le, ?_, ?_⟩
  · show kept.Sublist ((l.emitted ++ [_]).map Emission.entry)
    rw [List.map_append]
    exact hkept.trans (h.recent.append (List.Sublist.refl _))
  · intro m hm
    obtain hbefore | hnew := List.mem_append.mp hm
    · exact h.cleaned m hbefore
    · obtain rfl := List.mem_singleton.mp hnew
      obtain ⟨hcount, hsub⟩ := @entryOf_fields level call.event.component eventCode
        call.event.message (effectiveFields call.event.fields suppressed) call.event.utcNow
      exact ⟨hcount, suppressed, hsub⟩

theorem Numbered.emit {l : Logger} {call : Call} {entry : Entry} (h : Numbered l) :
    Numbered (l.emit call entry) := by
  obtain ⟨-, -, -, hnext, hemitted⟩ := l.emit_options call entry
  constructor
  · rw [hnext, hemitted, List.length_append, List.length_singleton, h.next]
    exact (UInt64.ofNat_add (l.emitted.length + 1) 1).symm
  · rw [hemitted, List.length_append, List.length_singleton, List.map_append, h.sequences,
      List.range_succ, List.map_append, List.map_singleton, List.map_singleton, Logger.numbered,
      h.next]

theorem ringAccounted_of_run {options : Options}
    {Allowed : List Call → Logger → List Bytes → Call → Prop} {calls : List Call} {l : Logger}
    (h : LoggerRun options Allowed calls l) :
    l.options = options ∧ RingAccounted options l ∧ Numbered l := by
  refine LoggerRun.invariant (fun _ l => l.options = options ∧ RingAccounted options l ∧ Numbered l)
    ?_ ?_ h
  · refine ⟨rfl, ⟨rfl, Nat.zero_le _, Nat.zero_le _, Nat.zero_le _, .slnil, ?_⟩, rfl, rfl⟩
    exact fun m hm => absurd hm List.not_mem_nil
  · rintro calls l order call _ ⟨hoptions, hring, hnumbered⟩ horder - hstep
    cases hstep with
    | ignored => exact ⟨hoptions, hring, hnumbered⟩
    | suppressed hcall hlevel hstate hearly =>
      refine ⟨hoptions, { hring with throttle_le := ?_ }, { hnumbered with }⟩
      show Table.size (l.throttle.insert _ _) ≤ options.maxThrottleRecords
      rw [Table.size_insert_of_mem (Table.mem_iff_lookup.mpr ⟨_, hstate⟩)]
      exact hring.throttle_le
    | @emitted throttle level eventCode suppressed hreports =>
      have hsize : throttle.size ≤ options.maxThrottleRecords := by
        have hsize := hreports.size_le horder (hoptions ▸ hring.throttle_le)
        rw [hoptions] at hsize
        exact hsize
      refine ⟨?_, RingAccounted.emit hoptions { hring with throttle_le := hsize }, ?_⟩
      · rw [(Logger.emit_options _ call _).1]
        exact hoptions
      · exact Numbered.emit { hnumbered with }

/-- Whatever is logged, the ring and the records are within their bounds and counted as they are,
and the entries in the ring are in order as long as there have been fewer than 2^64 of them. -/
theorem ring_accounted {options : Options} {calls : List Call} {l : Logger}
    (h : LoggerRun options (fun _ _ _ _ => True) calls l) :
    RingAccounted options l ∧ (l.emitted.length < 2 ^ 64 →
      l.recentEntries.Pairwise fun older newer => older.sequence < newer.sequence) := by
  obtain ⟨-, hring, hnumbered⟩ := ringAccounted_of_run h
  refine ⟨hring, fun hfew => ?_⟩
  have hemitted : (l.emitted.map fun m => m.entry.sequence).Pairwise (· < ·) := by
    rw [hnumbered.sequences, List.pairwise_map]
    refine List.pairwise_lt_range.imp_of_mem ?_
    intro older newer holder hnewer hlt
    rw [List.mem_range] at holder hnewer
    rw [UInt64.lt_iff_toNat_lt, UInt64.toNat_ofNat', UInt64.toNat_ofNat']
    omega
  have hentries : (l.emitted.map Emission.entry).Pairwise fun older newer =>
      older.sequence < newer.sequence := by
    rw [List.pairwise_map] at hemitted ⊢
    exact hemitted
  exact hentries.sublist hring.recent

/-! ### The end of the sequence numbers -/

def twoEntries : Options where
  maxRecentEntries := 2

def tick : Call := .log .info ⟨.system, ascii "x", ascii "y", [], 0, 0⟩

def tickEntry (sequence : UInt64) : Entry where
  timestampUtc := 0
  sequence := sequence
  level := .info
  component := .system
  eventCode := ascii "x"
  message := ascii "y"

theorem perform_tick {l : Logger} (hoptions : l.options = twoEntries) :
    (l.perform [] tick).2 = l.emit tick (tickEntry 0) := by
  have hlevel : ¬ Level.info.rank < l.options.minimumLevel.rank := by
    rw [hoptions]
    decide
  have hquiet : ¬ (Level.warning.rank ≤ Level.info.rank ∧ 0 < l.options.throttleWindow) :=
    fun hthrottled => absurd hthrottled.1 (by decide)
  rw [tick, Logger.perform, Logger.logAt, if_neg hlevel]
  dsimp only
  rw [if_neg hquiet]
  rfl

theorem emit_tick {l : Logger} {older newer : UInt64} (hoptions : l.options = twoEntries)
    (hbytes : l.recentBytes = 68) (hring : l.recentEntries = [tickEntry older, tickEntry newer]) :
    (l.emit tick (tickEntry 0)).recentBytes = 68 ∧
      (l.emit tick (tickEntry 0)).recentEntries = [tickEntry newer, tickEntry l.nextSequence] := by
  obtain ⟨options, next, bytes, suppressed, evicted, ring, throttle, emitted⟩ := l
  subst hoptions hbytes hring
  exact ⟨rfl, rfl⟩

/-- The ring after some calls. -/
theorem ticks_run (n : ℕ) : ∃ l, LoggerRun twoEntries (fun _ _ _ _ => True)
    (List.replicate (n + 2) tick) l ∧ l.options = twoEntries ∧ l.throttle = ∅ ∧
    l.nextSequence = UInt64.ofNat (n + 3) ∧ l.recentBytes = 68 ∧
    l.recentEntries = [tickEntry (UInt64.ofNat (n + 1)), tickEntry (UInt64.ofNat (n + 2))] := by
  induction n with
  | zero =>
    refine ⟨_, .call tick [] (.call tick [] .start (.refl _) trivial) (.refl _) trivial, ?_⟩
    exact ⟨rfl, rfl, rfl, rfl, rfl⟩
  | succ n ih =>
    obtain ⟨l, hrun, hoptions, hthrottle, hnext, hbytes, hring⟩ := ih
    have horder : ([] : List Bytes).Perm l.throttle.keys := by
      rw [hthrottle]
      exact .refl _
    have hcall := LoggerRun.call tick [] hrun horder trivial
    rw [perform_tick hoptions, ← List.replicate_succ'] at hcall
    obtain ⟨hoptions', hthrottle', -, hnext', -⟩ := l.emit_options tick (tickEntry 0)
    obtain ⟨hbytes', hring'⟩ := emit_tick hoptions hbytes hring
    refine ⟨_, hcall, hoptions'.trans hoptions, hthrottle'.trans hthrottle, ?_, hbytes', ?_⟩
    · rw [hnext', hnext]
      exact (UInt64.ofNat_add (n + 3) 1).symm
    · rw [hring', hnext]

theorem tick_accounted : ∃ l, LoggerRun twoEntries (fun _ _ _ _ => True) [tick, tick] l ∧
    RingAccounted twoEntries l := by
  obtain ⟨l, hrun, -⟩ := ticks_run 0
  exact ⟨l, hrun, (ring_accounted hrun).1⟩

/-- The entry of the call number 2^64 has the number 0. -/
theorem sequence_wraps : ∃ l, LoggerRun twoEntries (fun _ _ _ _ => True)
    (List.replicate (2 ^ 64) tick) l ∧
    ¬ l.recentEntries.Pairwise fun older newer => older.sequence < newer.sequence := by
  have hcount : 2 ^ 64 - 2 + 2 = 2 ^ 64 := Nat.sub_add_cancel (by decide)
  obtain ⟨l, hrun, -, -, -, -, hring⟩ := ticks_run (2 ^ 64 - 2)
  rw [hcount] at hrun hring
  refine ⟨l, hrun, fun hsorted => ?_⟩
  rw [hring, List.pairwise_cons] at hsorted
  have hlt := hsorted.1 _ (List.mem_singleton_self _)
  have hwraps : ¬ UInt64.ofNat (2 ^ 64 - 2 + 1) < UInt64.ofNat (2 ^ 64) := by decide
  exact hwraps hlt

end Uhf.Logging
