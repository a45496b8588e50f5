/-
The text of the transaction journal (`transaction_json`, `parse_transaction`).

The journal nests the flat texts of two configurations in an object of its own.  Its reader finds
their ends by counting braces, and leaves what is between them to the reader of flat texts.

* `extractObject_toFlatJson` — the braces of a configuration are found again;
* `TransactionParser.parseValue_written` — each value is read back from what is written of it;
* `journal_round_trip` — so is a transaction that can be journalled.
-/
import UhfGateway.Network.ConfigSources
import UhfGateway.Network.Transaction

namespace Uhf.Network

open Config (skipSpace consume Plain Printable)

/-! ### Writing -/

def transactionStateName : TransactionState → Bytes
  | .staged => ascii "staged"
  | .confirming => ascii "confirming"
  | .confirmed => ascii "confirmed"
  | .rolledBack => ascii "rolled_back"

/-- `transaction_json`, with the `json_escape` of its file. -/
def transactionJson (t : Transaction) : Bytes :=
  ascii "\x7b\"version\":1,\"id\":" ++ decimal t.id.toNat ++
    ascii ",\"boot_id\":\"" ++ Config.jsonEscape t.bootId ++
    ascii "\",\"staged_boottime_ns\":" ++ decimal t.stagedBoottimeNs.toNat ++
    ascii ",\"deadline_boottime_ns\":" ++ decimal t.deadlineBoottimeNs.toNat ++
    ascii ",\"state\":\"" ++ transactionStateName t.state ++
    ascii "\",\"previous\":" ++ toFlatJson t.previous ++
    ascii ",\"candidate\":" ++ toFlatJson t.candidate ++ ascii "\x7d\n"

/-! ### Reading -/

def readString (input : Bytes) : Option (Bytes × Bytes) := parseString input

def readUnsigned (input : Bytes) : Option (ℕ × Bytes) := Config.parseUnsigned input

/-- The state of the loop of `extract_object`; a depth of zero is left by the first brace. -/
structure ObjectScan where
  depth : ℕ := 0
  quoted : Bool := false
  escaped : Bool := false

/-- One character, or `none` if it closes the object. -/
def ObjectScan.step (s : ObjectScan) (c : UInt8) : Option ObjectScan :=
  if s.quoted then
    if s.escaped then some { s with escaped := false }
    else if c = '\\'.toUInt8 then some { s with escaped := true }
    else if c = '"'.toUInt8 then some { s with quoted := false }
    else some s
  else if c = '"'.toUInt8 then some { s with quoted := true }
  else if c = '{'.toUInt8 then some { s with depth := s.depth + 1 }
  else if c = '}'.toUInt8 then
    if s.depth = 1 then none else some { s with depth := s.depth - 1 }
  else some s

def extractLoop : ObjectScan → Bytes → Option (Bytes × Bytes)
  | _, [] => none
  | s, c :: input =>
    match s.step c with
    | none => some ([c], input)
    | some s => (extractLoop s input).map fun (object, rest) => (c :: object, rest)

def extractObject (input : Bytes) : Option (Bytes × Bytes) :=
  if (skipSpace input).head? = some '{'.toUInt8 then extractLoop {} (skipSpace input) else none

inductive JournalKey
  | version | id | bootId | stagedBoottimeNs | deadlineBoottimeNs | state | previous | candidate
  deriving DecidableEq, Repr

namespace JournalKey

def all : List JournalKey :=
  [version, id, bootId, stagedBoottimeNs, deadlineBoottimeNs, state, previous, candidate]

def text : JournalKey → Bytes
  | version => ascii "version"
  | id => ascii "id"
  | bootId => ascii "boot_id"
  | stagedBoottimeNs => ascii "staged_boottime_ns"
  | deadlineBoottimeNs => ascii "deadline_boottime_ns"
  | state => ascii "state"
  | previous => ascii "previous"
  | candidate => ascii "candidate"

end JournalKey

def transactionStateOfName (name : Bytes) : Option TransactionState :=
  if name = ascii "staged" then some .staged
  else if name = ascii "confirming" then some .confirming
  else if name = ascii "confirmed" then some .confirmed
  else if name = ascii "rolled_back" then some .rolledBack
  else none

/-- A configuration that the journal holds as an object. -/
def readConfig (input : Bytes) : Option (NetworkConfig × Bytes) :=
  (extractObject input).bind fun (object, rest) =>
    (parseFlatJson object).map fun config => (config, rest)

/-- The keys seen so far (`version_seen` and so on), and the transaction as it has been read. -/
structure TransactionParser where
  seen : List JournalKey := []
  transaction : Transaction := {}

namespace TransactionParser

/-- The value of a key, which stands right behind the colon. -/
def parseValue (t : Transaction) (input : Bytes) : JournalKey → Option (Transaction × Bytes)
  | .version =>
    (readUnsigned input).bind fun (value, rest) => if value ≠ 1 then none else some (t, rest)
  | .id =>
    (readUnsigned input).bind fun (value, rest) =>
      if value = 0 then none else some ({ t with id := UInt64.ofNat value }, rest)
  | .bootId =>
    (readString input).bind fun (text, rest) =>
      if text = [] then none else some ({ t with bootId := text }, rest)
  | .stagedBoottimeNs =>
    (readUnsigned input).map fun (value, rest) =>
      ({ t with stagedBoottimeNs := UInt64.ofNat value }, rest)
  | .deadlineBoottimeNs =>
    (readUnsigned input).bind fun (value, rest) =>
      if UInt64.ofNat value < t.stagedBoottimeNs then none
      else some ({ t with deadlineBoottimeNs := UInt64.ofNat value }, rest)
  | .state =>
    (readString input).bind fun (text, rest) =>
      (transactionStateOfName text).map fun state => ({ t with state := state }, rest)
  | .previous =>
    (readConfig input).map fun (config, rest) => ({ t with previous := config }, rest)
  | .candidate =>
    (readConfig input).map fun (config, rest) => ({ t with candidate := config }, rest)

def parseField (p : TransactionParser) (key input : Bytes) : Option (TransactionParser × Bytes) :=
  (JournalKey.all.find? (·.text = key)).bind fun key =>
    if key ∈ p.seen then none
    else (parseValue p.transaction input key).map fun (t, rest) => (⟨key :: p.seen, t⟩, rest)

/-- One member, and the input behind it. -/
def parseMember (p : TransactionParser) (input : Bytes) : Option (TransactionParser × Bytes) :=
  (readString (skipSpace input)).bind fun (key, rest) =>
    (consume ':'.toUInt8 (skipSpace rest)).bind fun rest =>
      (p.parseField key rest).map fun (p, rest) => (p, skipSpace rest)

theorem extractLoop_length {s : ObjectScan} {input object rest : Bytes}
    (h : extractLoop s input = some (object, rest)) : rest.length < input.length := by
  induction input generalizing s object with
  | nil => cases h
  | cons c input ih =>
    rw [extractLoop] at h
    split at h
    · cases h
      exact Nat.lt_succ_self _
    · obtain ⟨⟨object', rest'⟩, hloop, hr⟩ := Option.map_eq_some_iff.mp h
      cases hr
      exact Nat.lt_succ_of_lt (ih hloop)

theorem readConfig_length {input rest : Bytes} {config : NetworkConfig}
    (h : readConfig input = some (config, rest)) : rest.length < input.length := by
  obtain ⟨⟨object, behind⟩, hobject, h⟩ := Option.bind_eq_some_iff.mp h
  obtain ⟨config, -, hr⟩ := Option.map_eq_some_iff.mp h
  cases hr
  rw [extractObject, Option.ite_none_right_eq_some] at hobject
  exact Nat.lt_of_lt_of_le (extractLoop_length hobject.2) (Config.skipSpace_length input)

theorem parseValue_length {t t' : Transaction} {input rest : Bytes} {key : JournalKey}
    (h : parseValue t input key = some (t', rest)) : rest.length ≤ input.length := by
  have hnumber : ∀ {value : ℕ} {behind : Bytes}, readUnsigned input = some (value, behind) →
      behind.length ≤ input.length := fun h => Config.parseUnsigned_length h
  have hstring : ∀ {text behind : Bytes}, readString input = some (text, behind) →
      behind.length ≤ input.length := fun h => Nat.le_of_lt (FlatJsonParser.parseString_length h)
  cases key with
  | version | id | deadlineBoottimeNs =>
    obtain ⟨⟨value, behind⟩, hvalue, h⟩ := Option.bind_eq_some_iff.mp h
    rw [Option.ite_none_left_eq_some] at h
    cases h.2
    exact hnumber hvalue
  | stagedBoottimeNs =>
    obtain ⟨⟨value, behind⟩, hvalue, hr⟩ := Option.map_eq_some_iff.mp h
    cases hr
    exact hnumber hvalue
  | bootId =>
    obtain ⟨⟨text, behind⟩, htext, h⟩ := Option.bind_eq_some_iff.mp h
    rw [Option.ite_none_left_eq_some] at h
    cases h.2
    exact hstring htext
  | state =>
    obtain ⟨⟨text, behind⟩, htext, h⟩ := Option.bind_eq_some_iff.mp h
    obtain ⟨state, -, hr⟩ := Option.map_eq_some_iff.mp h
    cases hr
    exact hstring htext
  | previous | candidate =>
    obtain ⟨⟨config, behind⟩, hconfig, hr⟩ := Option.map_eq_some_iff.mp h
    cases hr
    exact Nat.le_of_lt (readConfig_length hconfig)

theorem parseMember_length {p p' : TransactionParser} {input rest : Bytes}
    (h : p.parseMember input = some (p', rest)) : rest.length < input.length := by
  obtain ⟨⟨key, behind⟩, hkey, h⟩ := Option.bind_eq_some_iff.mp h
  obtain ⟨colon, hcolon, h⟩ := Option.bind_eq_some_iff.mp h
  obtain ⟨⟨p'', field⟩, hfield, hr⟩ := Option.map_eq_some_iff.mp h
  cases hr
  obtain ⟨key, -, h⟩ := Option.bind_eq_some_iff.mp hfield
  rw [Option.ite_none_left_eq_some] at h
  obtain ⟨⟨t, left⟩, hvalue, hr⟩ := Option.map_eq_some_iff.mp h.2
  cases hr
  have hfirst := Config.skipSpace_length input
  have hbehind := FlatJsonParser.parseString_length hkey
  have hskipped := Config.skipSpace_length behind
  have hrest := parseValue_length hvalue
  have hlast := Config.skipSpace_length field
  rw [Config.consume_eq_some] at hcolon
  rw [hcolon, List.length_cons] at hskipped
  omega

/-- The end of `parse_transaction`, behind the closing brace. -/
def finish (p : TransactionParser) (rest : Bytes) : Option Transaction :=
  if skipSpace rest = [] ∧ (∀ key ∈ JournalKey.all, key ∈ p.seen) ∧
      (validate p.transaction.previous).valid ∧ (validate p.transaction.candidate).valid then
    some p.transaction
  else none

/-- The loop of `parse_transaction`. -/
def parseMembers (p : TransactionParser) (input : Bytes) : Option Transaction :=
  match _h : p.parseMember input with
  | none => none
  | some (p, rest) =>
    match consume '}'.toUInt8 rest with
    | some behind => p.finish behind
    | none =>
      match _hcomma : consume ','.toUInt8 rest with
      | none => none
      | some more => p.parseMembers more
termination_by input.length
decreasing_by
  have hrest := parseMember_length _h
  rw [Config.consume_eq_some] at _hcomma
  rw [_hcomma, List.length_cons] at hrest
  omega

end TransactionParser

def parseTransaction (input : Bytes) : Option Transaction :=
  (consume '{'.toUInt8 (skipSpace input)).bind fun rest => TransactionParser.parseMembers {} rest

def kMaxTransactionBytes : ℕ := 64 * 1024

/-- `TransactionStore::load`, of a regular file that can be read. -/
def loadJournal (file : Option Bytes) : LoadResult :=
  match file with
  | none => .none
  | some contents =>
    if kMaxTransactionBytes < contents.length then .corrupt
    else
      match parseTransaction contents with
      | none => .corrupt
      | some t => .valid t

/-! ### Braces -/

/-- The scan goes over the whole text and is then where it was. -/
def ObjectScan.Passes (s : ObjectScan) (text : Bytes) : Prop := text.foldlM step s = some s

namespace ObjectScan

variable {s : ObjectScan}

theorem Passes.append {first second : Bytes} (hfirst : s.Passes first) (hsecond : s.Passes second) :
    s.Passes (first ++ second) := by
  rw [Passes, List.foldlM_append, hfirst]
  exact hsecond

/-- What is no quote and no brace is passed outside a string. -/
theorem passes_of_quiet (hs : s.quoted = false) {text : Bytes}
    (h : ∀ c ∈ text, c ≠ '"'.toUInt8 ∧ c ≠ '{'.toUInt8 ∧ c ≠ '}'.toUInt8) : s.Passes text := by
  induction text with
  | nil => rfl
  | cons c text ih =>
    obtain ⟨⟨hquote, hopen, hclose⟩, htext⟩ := List.forall_mem_cons.mp h
    have hstep : s.step c = some s := by simp [step, hs, hquote, hopen, hclose]
    rw [Passes, List.foldlM_cons, hstep]
    exact ih htext

theorem passes_colon (hs : s.quoted = false) : s.Passes (ascii ":") :=
  passes_of_quiet hs (List.forall_mem_singleton.mpr (by decide))

theorem passes_comma (hs : s.quoted = false) : s.Passes (ascii ",") :=
  passes_of_quiet hs (List.forall_mem_singleton.mpr (by decide))

theorem passes_decimal (hs : s.quoted = false) (n : ℕ) : s.Passes (decimal (n : Int)) := by
  refine passes_of_quiet hs fun c hc => ?_
  have hdigit := List.all_eq_true.mp (all_isDigit_decimal n) c hc
  refine ⟨?_, ?_, ?_⟩ <;>
  · rintro rfl
    exact absurd hdigit (by decide)

/-- A string without escapes is passed from its opening quote to its closing one. -/
theorem passes_quoted (hs : s.quoted = false) (hescaped : s.escaped = false) {text : Bytes}
    (h : Plain text) : s.Passes (Network.quoted text) := by
  have hinside : ({ s with quoted := true } : ObjectScan).Passes text := by
    have hall := h.2
    clear h
    induction text with
    | nil => rfl
    | cons c text ih =>
      obtain ⟨⟨-, hquote, hbackslash⟩, htext⟩ := List.forall_mem_cons.mp hall
      have hstep : ({ s with quoted := true } : ObjectScan).step c =
          some { s with quoted := true } := by
        simp [step, hescaped, hquote, hbackslash]
      rw [Passes, List.foldlM_cons, hstep]
      exact ih htext
  have hopen : s.step '"'.toUInt8 = some { s with quoted := true } := by simp [step, hs]
  have hclose : ({ s with quoted := true } : ObjectScan).step '"'.toUInt8 = some s := by
    obtain ⟨depth, quotes, escapes⟩ := s
    cases hs
    cases hescaped
    rfl
  have hstart : s.Passes (Network.quoted text) ↔
      (text ++ ['"'.toUInt8]).foldlM step { s with quoted := true } = some s := by
    rw [Passes, Network.quoted, List.foldlM_cons, hopen]
    rfl
  rw [hstart, List.foldlM_append, hinside]
  show ([('"'.toUInt8)].foldlM step { s with quoted := true }) = some s
  rw [List.foldlM_cons, hclose]
  rfl

theorem passes_member (hs : s.quoted = false) (hescaped : s.escaped = false)
    {config : NetworkConfig} (hconfig : ∀ port, (config.port port).Recorded)
    {m : Port × FlatField} (hm : m ∈ flatMembers) : s.Passes (memberText config m) := by
  obtain ⟨port, field⟩ := m
  refine ((passes_quoted hs hescaped (keys_plain _ hm)).append ?_).append ?_
  · exact passes_colon hs
  · cases field with
    | string field => exact passes_quoted hs hescaped ((hconfig port).plain field)
    | number field =>
      cases field with
      | prefixLength => exact passes_decimal hs _
      | dhcpTimeoutSeconds => exact passes_decimal hs _

theorem passes_members (hs : s.quoted = false) (hescaped : s.escaped = false)
    {config : NetworkConfig} (hconfig : ∀ port, (config.port port).Recorded)
    {ms : List (Port × FlatField)} (hms : ∀ m ∈ ms, m ∈ flatMembers) :
    s.Passes ((ascii ",").intercalate (ms.map (memberText config))) := by
  induction ms with
  | nil => rfl
  | cons m ms ih =>
    obtain ⟨hm, hrest⟩ := List.forall_mem_cons.mp hms
    have hmember := passes_member hs hescaped hconfig hm
    cases ms with
    | nil =>
      rw [List.map_cons, List.map_nil, List.intercalate_singleton]
      exact hmember
    | cons next ms =>
      rw [List.map_cons, List.map_cons, List.intercalate_cons_cons]
      exact (hmember.append (passes_comma hs)).append (ih hrest)

theorem extractLoop_append {s' : ObjectScan} {text : Bytes} (h : text.foldlM step s = some s')
    (rest : Bytes) :
    extractLoop s (text ++ rest) =
      (extractLoop s' rest).map fun (object, behind) => (text ++ object, behind) := by
  induction text generalizing s with
  | nil =>
    cases h
    rw [List.nil_append]
    exact (congrFun Option.map_id _).symm
  | cons c text ih =>
    rw [List.foldlM_cons] at h
    obtain ⟨s₁, hstep, htext⟩ := Option.bind_eq_some_iff.mp h
    rw [List.cons_append, extractLoop, hstep]
    dsimp only
    rw [ih htext, Option.map_map]
    rfl

end ObjectScan

theorem extractObject_braces {members : Bytes} (h : ObjectScan.Passes { depth := 1 } members)
    (rest : Bytes) :
    extractObject ('{'.toUInt8 :: (members ++ '}'.toUInt8 :: rest)) =
      some ('{'.toUInt8 :: (members ++ ['}'.toUInt8]), rest) := by
  have hscan : ('{'.toUInt8 :: members).foldlM ObjectScan.step {} = some { depth := 1 } := by
    rw [List.foldlM_cons]
    exact h
  have hspace : skipSpace ('{'.toUInt8 :: (members ++ '}'.toUInt8 :: rest)) =
      '{'.toUInt8 :: (members ++ '}'.toUInt8 :: rest) := Config.skipSpace_of_not (by decide) _
  have hclose : extractLoop { depth := 1 } ('}'.toUInt8 :: rest) = some (['}'.toUInt8], rest) := rfl
  rw [extractObject, hspace, List.head?_cons, if_pos rfl, ← List.cons_append,
    ObjectScan.extractLoop_append hscan, hclose]
  rfl

/-- The object ends with the brace of the configuration, whatever stands behind it. -/
theorem extractObject_toFlatJson {config : NetworkConfig}
    (hconfig : ∀ port, (config.port port).Recorded) (rest : Bytes) :
    extractObject (toFlatJson config ++ rest) = some (toFlatJson config, rest) := by
  have hpasses := ObjectScan.passes_members (s := { depth := 1 }) rfl rfl hconfig fun _ hm => hm
  have hbrace : ascii "\x7d" = ['}'.toUInt8] := rfl
  have hbraces := extractObject_braces hpasses rest
  rw [toFlatJson_eq hconfig, hbrace, List.cons_append, List.append_assoc, List.singleton_append]
  exact hbraces

theorem readConfig_toFlatJson {config : NetworkConfig} (h : config.Recorded) (rest : Bytes) :
    readConfig (toFlatJson config ++ rest) = some (config, rest) := by
  rw [readConfig, extractObject_toFlatJson h.port, Option.bind_some]
  dsimp only
  rw [parseFlatJson_toFlatJson h, Option.map_some]

/-! ### Members -/

theorem stringLoop_jsonEscape {text : Bytes} (hprintable : Printable text) (result rest : Bytes) :
    stringLoop (Config.jsonEscape text ++ '"'.toUInt8 :: rest) result =
      if (result ++ text).length ≤ 256 then some (result ++ text, rest) else none := by
  induction text generalizing result with
  | nil =>
    rw [Config.jsonEscape, List.flatMap_nil, List.nil_append, stringLoop.eq_def]
    simp only [if_true, List.append_nil]
  | cons c text ih =>
    obtain ⟨hc, htext⟩ := List.forall_mem_cons.mp hprintable
    have hgoOn := ih htext (result ++ [c])
    rw [List.append_assoc, List.singleton_append] at hgoOn
    rw [← hgoOn, Config.jsonEscape, List.flatMap_cons, ← Config.jsonEscape]
    by_cases hescaped : c = '"'.toUInt8 ∨ c = '\\'.toUInt8
    · rw [if_pos hescaped, List.cons_append, List.cons_append, stringLoop.eq_def]
      have hallowed : ¬ (¬ c = '"'.toUInt8 ∧ ¬ c = '\\'.toUInt8) := by
        rwa [not_and_or, not_not, not_not]
      have hquote : '\\'.toUInt8 ≠ '"'.toUInt8 := by decide
      have hcontrol : ¬ '\\'.toUInt8 < 0x20 := by decide
      simp only [hquote, hcontrol, hallowed, if_false, ne_eq, not_true, List.nil_append,
        List.cons_append]
    · rw [not_or] at hescaped
      rw [if_neg (by simp [hescaped]), List.singleton_append, List.cons_append, stringLoop.eq_def]
      simp only [hescaped, UInt8.not_lt.mpr hc, if_false, ne_eq, not_false_eq_true, if_true]

theorem readString_jsonEscape {text : Bytes} (hprintable : Printable text)
    (hshort : text.length ≤ 256) (rest : Bytes) :
    readString (quoted (Config.jsonEscape text) ++ rest) = some (text, rest) := by
  have hloop := stringLoop_jsonEscape hprintable [] rest
  rw [List.nil_append, if_pos hshort] at hloop
  rw [readString, quoted, List.cons_append, List.append_assoc, List.singleton_append, parseString,
    consume, if_pos rfl, Option.bind_some, hloop]

/-- What a transaction must be like to be journalled: as `stage` and `confirm` make it. -/
structure Transaction.Persistable (t : Transaction) : Prop where
  id : 1 ≤ t.id
  bootId : t.bootId ≠ [] ∧ t.bootId.length ≤ 256 ∧ Printable t.bootId
  deadline : t.stagedBoottimeNs ≤ t.deadlineBoottimeNs
  previous : t.previous.Obtained ∧ t.previous.Legible
  candidate : t.candidate.Obtained ∧ t.candidate.Legible

def JournalKey.written (t : Transaction) : JournalKey → Bytes
  | version => decimal (1 : ℕ)
  | id => decimal t.id.toNat
  | bootId => quoted (Config.jsonEscape t.bootId)
  | stagedBoottimeNs => decimal t.stagedBoottimeNs.toNat
  | deadlineBoottimeNs => decimal t.deadlineBoottimeNs.toNat
  | state => quoted (transactionStateName t.state)
  | previous => toFlatJson t.previous
  | candidate => toFlatJson t.candidate

/-- The value of one key taken over from another transaction. -/
def JournalKey.copy (source target : Transaction) : JournalKey → Transaction
  | version => target
  | id => { target with id := source.id }
  | bootId => { target with bootId := source.bootId }
  | stagedBoottimeNs => { target with stagedBoottimeNs := source.stagedBoottimeNs }
  | deadlineBoottimeNs => { target with deadlineBoottimeNs := source.deadlineBoottimeNs }
  | state => { target with state := source.state }
  | previous => { target with previous := source.previous }
  | candidate => { target with candidate := source.candidate }

def JournalKey.member (t : Transaction) (key : JournalKey) : Bytes :=
  quoted key.text ++ ascii ":" ++ key.written t

theorem transactionJson_eq (t : Transaction) :
    transactionJson t = '{'.toUInt8 ::
      ((ascii ",").intercalate (JournalKey.all.map (JournalKey.member t)) ++ ascii "\x7d\n") := by
  have hversion : ascii "\x7b\"version\":1,\"id\":" =
      '{'.toUInt8 :: (quoted (ascii "version") ++ ascii ":" ++ decimal (1 : ℕ) ++ ascii "," ++
        quoted (ascii "id") ++ ascii ":") := rfl
  have hbootId : ascii ",\"boot_id\":\"" =
      ascii "," ++ quoted (ascii "boot_id") ++ ascii ":" ++ ['"'.toUInt8] := rfl
  have hstaged : ascii "\",\"staged_boottime_ns\":" =
      '"'.toUInt8 :: (ascii "," ++ quoted (ascii "staged_boottime_ns") ++ ascii ":") := rfl
  have hdeadline : ascii ",\"deadline_boottime_ns\":" =
      ascii "," ++ quoted (ascii "deadline_boottime_ns") ++ ascii ":" := rfl
  have hstate : ascii ",\"state\":\"" =
      ascii "," ++ quoted (ascii "state") ++ ascii ":" ++ ['"'.toUInt8] := rfl
  have hprevious : ascii "\",\"previous\":" =
      '"'.toUInt8 :: (ascii "," ++ quoted (ascii "previous") ++ ascii ":") := rfl
  have hcandidate : ascii ",\"candidate\":" =
      ascii "," ++ quoted (ascii "candidate") ++ ascii ":" := rfl
  have hstrings : ∀ text : Bytes, quoted text = '"'.toUInt8 :: (text ++ ['"'.toUInt8]) :=
    fun _ => rfl
  simp only [JournalKey.all, List.map_cons, List.map_nil, List.intercalate_cons_cons,
    List.intercalate_singleton, JournalKey.member, JournalKey.text, JournalKey.written]
  rw [transactionJson, hversion, hbootId, hstaged, hdeadline, hstate, hprevious, hcandidate,
    hstrings (Config.jsonEscape t.bootId), hstrings (transactionStateName t.state)]
  simp only [List.append_assoc, List.cons_append, List.nil_append]

theorem transactionStateOfName_name (state : TransactionState) :
    transactionStateOfName (transactionStateName state) = some state := by
  cases state <;> decide +kernel

theorem transactionStateName_plain (state : TransactionState) :
    Plain (transactionStateName state) := by
  cases state <;> decide +kernel

namespace TransactionParser

theorem readUnsigned_decimal {n : ℕ} (hn : n < 18446744073709551616) {rest : Bytes}
    (hrest : NoDigit rest) : readUnsigned (decimal (n : Int) ++ rest) = some (n, rest) :=
  Config.parseUnsigned_decimal hn hrest

theorem parseValue_written {t target : Transaction} (h : t.Persistable) (key : JournalKey)
    (hstaged : key = .deadlineBoottimeNs → target.stagedBoottimeNs = t.stagedBoottimeNs)
    {rest : Bytes} (hrest : NoDigit rest) :
    parseValue target (key.written t ++ rest) key = some (key.copy t target, rest) := by
  cases key with
  | version =>
    rw [parseValue, JournalKey.written, readUnsigned_decimal (by decide) hrest]
    rfl
  | id =>
    have hid : t.id.toNat ≠ 0 := by
      have hone := UInt64.le_iff_toNat_le.mp h.id
      rw [UInt64.toNat_one] at hone
      omega
    rw [parseValue, JournalKey.written, readUnsigned_decimal t.id.toNat_lt hrest, Option.bind_some]
    simp only [hid, if_false, UInt64.ofNat_toNat, JournalKey.copy]
  | bootId =>
    obtain ⟨hne, hshort, hprintable⟩ := h.bootId
    rw [parseValue, JournalKey.written, readString_jsonEscape hprintable hshort, Option.bind_some]
    simp only [hne, if_false, JournalKey.copy]
  | stagedBoottimeNs =>
    rw [parseValue, JournalKey.written, readUnsigned_decimal t.stagedBoottimeNs.toNat_lt hrest,
      Option.map_some]
    simp only [UInt64.ofNat_toNat, JournalKey.copy]
  | deadlineBoottimeNs =>
    have horder : ¬ t.deadlineBoottimeNs < target.stagedBoottimeNs := by
      rw [hstaged rfl]
      exact UInt64.not_lt.mpr h.deadline
    rw [parseValue, JournalKey.written, readUnsigned_decimal t.deadlineBoottimeNs.toNat_lt hrest,
      Option.bind_some]
    simp only [UInt64.ofNat_toNat, horder, if_false, JournalKey.copy]
  | state =>
    have hstring : readString (quoted (transactionStateName t.state) ++ rest) =
        some (transactionStateName t.state, rest) :=
      parseString_quoted (transactionStateName_plain t.state) rest
    rw [parseValue, JournalKey.written, hstring, Option.bind_some]
    simp only [transactionStateOfName_name, Option.map_some, JournalKey.copy]
  | previous =>
    rw [parseValue, JournalKey.written,
      readConfig_toFlatJson (h.previous.1.recorded h.previous.2), Option.map_some]
    rfl
  | candidate =>
    rw [parseValue, JournalKey.written,
      readConfig_toFlatJson (h.candidate.1.recorded h.candidate.2), Option.map_some]
    rfl

theorem keys_plain : ∀ key ∈ JournalKey.all, Plain key.text := by decide +kernel

theorem keys_found : ∀ key ∈ JournalKey.all,
    (JournalKey.all.find? (·.text = key.text)) = some key := by decide +kernel

/-- The parser once the key has been read. -/
def taken (t : Transaction) (p : TransactionParser) (key : JournalKey) : TransactionParser :=
  ⟨key :: p.seen, key.copy t p.transaction⟩

theorem parseMember_written {t : Transaction} (h : t.Persistable) {p : TransactionParser}
    {key : JournalKey} (hkey : key ∈ JournalKey.all) (hnew : key ∉ p.seen)
    (hstaged : key = .deadlineBoottimeNs →
      p.transaction.stagedBoottimeNs = t.stagedBoottimeNs)
    {rest : Bytes} (hrest : NoDigit rest) :
    p.parseMember (key.member t ++ rest) = some (taken t p key, skipSpace rest) := by
  have hquote : skipSpace (quoted key.text ++ (ascii ":" ++ (key.written t ++ rest))) =
      quoted key.text ++ (ascii ":" ++ (key.written t ++ rest)) :=
    Config.skipSpace_of_not (by decide) _
  have hcolon : skipSpace (ascii ":" ++ (key.written t ++ rest)) =
      ':'.toUInt8 :: (key.written t ++ rest) := Config.skipSpace_of_not (by decide) _
  have hstring : readString (quoted key.text ++ (ascii ":" ++ (key.written t ++ rest))) =
      some (key.text, ascii ":" ++ (key.written t ++ rest)) :=
    parseString_quoted (keys_plain key hkey) _
  rw [JournalKey.member, List.append_assoc, List.append_assoc, parseMember, hquote, hstring,
    Option.bind_some]
  dsimp only
  rw [hcolon, consume, if_pos rfl, Option.bind_some, parseField, keys_found key hkey,
    Option.bind_some, if_neg hnew, parseValue_written h key hstaged hrest]
  rfl

theorem parseMembers_last {p p' : TransactionParser} {member : Bytes}
    (hmember : p.parseMember (member ++ ascii "\x7d\n") = some (p', ascii "\x7d\n")) :
    p.parseMembers (member ++ ascii "\x7d\n") = p'.finish (ascii "\n") := by
  have hconsume : consume '}'.toUInt8 (ascii "\x7d\n") = some (ascii "\n") := rfl
  rw [parseMembers, hmember]
  simp only [hconsume]

theorem parseMembers_more {p p' : TransactionParser} {member more : Bytes}
    (hmember : p.parseMember (member ++ (ascii "," ++ more)) = some (p', ascii "," ++ more)) :
    p.parseMembers (member ++ (ascii "," ++ more)) = p'.parseMembers more := by
  have hnoBrace : consume '}'.toUInt8 (ascii "," ++ more) = none := rfl
  have hconsume : consume ','.toUInt8 (ascii "," ++ more) = some more := rfl
  rw [parseMembers, hmember]
  simp only [hnoBrace]
  split
  · next hnone =>
    rw [hconsume] at hnone
    cases hnone
  · next text hsome =>
    rw [hconsume] at hsome
    cases hsome
    rfl

/-- The time at which the transaction was staged is known when its deadline is read. -/
def StagedFirst (t : Transaction) : List JournalKey → Transaction → Prop
  | [], _ => True
  | key :: keys, target =>
    (key = .deadlineBoottimeNs → target.stagedBoottimeNs = t.stagedBoottimeNs) ∧
      StagedFirst t keys (key.copy t target)

/-- The members of the journal, from some one on, are taken one after the other. -/
theorem parseMembers_written {t : Transaction} (h : t.Persistable) {keys : List JournalKey}
    {p : TransactionParser} (hne : keys ≠ []) (hkeys : ∀ key ∈ keys, key ∈ JournalKey.all)
    (hnodup : keys.Nodup) (hnew : ∀ key ∈ keys, key ∉ p.seen)
    (hstaged : StagedFirst t keys p.transaction) :
    p.parseMembers ((ascii ",").intercalate (keys.map (JournalKey.member t)) ++ ascii "\x7d\n") =
      (keys.foldl (taken t) p).finish (ascii "\n") := by
  induction keys generalizing p with
  | nil => exact absurd rfl hne
  | cons key keys ih =>
    obtain ⟨hkey, hkeysRest⟩ := List.forall_mem_cons.mp hkeys
    obtain ⟨hfresh, hnewRest⟩ := List.forall_mem_cons.mp hnew
    obtain ⟨hdeadline, hstagedRest⟩ := hstaged
    rw [List.nodup_cons] at hnodup
    cases keys with
    | nil =>
      have hmember : p.parseMember (key.member t ++ ascii "\x7d\n") =
          some (taken t p key, ascii "\x7d\n") :=
        parseMember_written h hkey hfresh hdeadline (noDigit_cons (by decide) _)
      rw [List.map_cons, List.map_nil, List.intercalate_singleton, parseMembers_last hmember]
      rfl
    | cons next keys =>
      let more := (ascii ",").intercalate ((next :: keys).map (JournalKey.member t)) ++
        ascii "\x7d\n"
      have hmember : p.parseMember (key.member t ++ (ascii "," ++ more)) =
          some (taken t p key, ascii "," ++ more) :=
        parseMember_written h hkey hfresh hdeadline (noDigit_cons (by decide) _)
      have hrest := @ih (taken t p key) (by simp) hkeysRest hnodup.2 ?_ hstagedRest
      · rw [List.map_cons, List.map_cons, List.intercalate_cons_cons, List.append_assoc,
          List.append_assoc]
        exact (parseMembers_more hmember).trans hrest
      · intro key' hkey' hmem
        obtain heq | hmem := List.mem_cons.mp hmem
        · exact hnodup.1 (heq ▸ hkey')
        · exact hnewRest key' hkey' hmem

theorem foldl_taken (t : Transaction) (keys : List JournalKey) (p : TransactionParser) :
    keys.foldl (taken t) p =
      ⟨keys.reverse ++ p.seen, keys.foldl (fun target key => key.copy t target) p.transaction⟩ := by
  induction keys generalizing p with
  | nil => rfl
  | cons key keys ih =>
    rw [List.foldl_cons, ih, List.foldl_cons, List.reverse_cons, List.append_assoc]
    rfl

/-- All keys make up the transaction. -/
theorem foldl_copy (t target : Transaction) :
    JournalKey.all.foldl (fun target key => key.copy t target) target = t := by
  simp only [JournalKey.all, List.foldl_cons, List.foldl_nil, JournalKey.copy]

theorem finish_written {t : Transaction} (h : t.Persistable) :
    (JournalKey.all.foldl (taken t) {}).finish (ascii "\n") = some t := by
  have hspace : skipSpace (ascii "\n") = [] := rfl
  rw [foldl_taken, foldl_copy]
  refine if_pos ⟨hspace, ?_, h.previous.1.ordered.valid, h.candidate.1.ordered.valid⟩
  intro key hkey
  exact List.mem_append_left _ (List.mem_reverse.mpr hkey)

end TransactionParser

/-! ### The whole journal -/

theorem parseTransaction_transactionJson {t : Transaction} (h : t.Persistable) :
    parseTransaction (transactionJson t) = some t := by
  have hne : JournalKey.all ≠ [] := by decide
  have hnodup : JournalKey.all.Nodup := by decide
  have hstaged : TransactionParser.StagedFirst t JournalKey.all {} :=
    ⟨by simp, by simp, by simp, by simp, fun _ => rfl, by simp, by simp, by simp, trivial⟩
  have hmembers := TransactionParser.parseMembers_written (p := {}) h hne (fun _ hkey => hkey)
    hnodup (fun _ _ => List.not_mem_nil) hstaged
  have hbrace : skipSpace (transactionJson t) = '{'.toUInt8 ::
      ((ascii ",").intercalate (JournalKey.all.map (JournalKey.member t)) ++ ascii "\x7d\n") := by
    rw [transactionJson_eq]
    exact Config.skipSpace_of_not (by decide) _
  rw [parseTransaction, hbrace, consume, if_pos rfl, Option.bind_some, hmembers,
    TransactionParser.finish_written h]

theorem length_transactionJson_le {t : Transaction} (h : t.Persistable) :
    (transactionJson t).length ≤ kMaxTransactionBytes := by
  have hnumber : ∀ n : UInt64, (decimal (n.toNat : Int)).length ≤ 20 := fun n =>
    length_decimal_le (by decide) (Nat.lt_trans n.toNat_lt (by decide))
  have hid := hnumber t.id
  have hstaged := hnumber t.stagedBoottimeNs
  have hdeadline := hnumber t.deadlineBoottimeNs
  have hshort := h.bootId.2.1
  have hbootId := Config.length_jsonEscape_le t.bootId
  have hstate := (transactionStateName_plain t.state).1
  have hprevious := length_toFlatJson_le (h.previous.1.recorded h.previous.2).port
  have hcandidate := length_toFlatJson_le (h.candidate.1.recorded h.candidate.2).port
  have hliterals : (ascii "\x7b\"version\":1,\"id\":").length = 18 ∧
      (ascii ",\"boot_id\":\"").length = 12 ∧ (ascii "\",\"staged_boottime_ns\":").length = 23 ∧
      (ascii ",\"deadline_boottime_ns\":").length = 24 ∧ (ascii ",\"state\":\"").length = 10 ∧
      (ascii "\",\"previous\":").length = 13 ∧ (ascii ",\"candidate\":").length = 13 ∧
      (ascii "\x7d\n").length = 2 := ⟨rfl, rfl, rfl, rfl, rfl, rfl, rfl, rfl⟩
  rw [transactionJson, kMaxTransactionBytes]
  simp only [List.length_append]
  omega

/-- A transaction that can be journalled is what the journal then holds. -/
theorem journal_round_trip {t : Transaction} (h : t.Persistable) :
    loadJournal (some (transactionJson t)) = .valid t := by
  rw [loadJournal]
  simp only [Nat.not_lt.mpr (length_transactionJson_le h), if_false,
    parseTransaction_transactionJson h]

/-- A vendor's file of each mode. -/
def vendorDhcp : Bytes := ascii "METHOD=DHCP\nNETMASK=255.255.255.0\n"
def vendorStatic : Bytes :=
  ascii "METHOD=STATIC\nIPADDR=192.168.7.2\nNETMASK=255.255.0.0\nGATEWAY='192.168.7.1'\n"

def vendorConfig : NetworkConfig where
  eth0 := { name := ascii "eth0", mode := .dhcp, address := [], gateway := [] }
  eth1 :=
    { name := ascii "eth1", address := ascii "192.168.7.2", prefixLength := 16
      gateway := ascii "192.168.7.1" }

theorem loadVendor_vendorConfig : loadVendor vendorDhcp vendorStatic = some vendorConfig := by
  decide +kernel

def vendorTransaction : Transaction where
  id := 18446744073709551615
  bootId := ascii "\"6d1f\" \\ 2"
  stagedBoottimeNs := 1000
  deadlineBoottimeNs := 60000001000
  state := .confirming
  candidate := vendorConfig

theorem journal_round_trip_vendor :
    loadJournal (some (transactionJson vendorTransaction)) = .valid vendorTransaction := by
  have hlegible : ∀ config ∈ [({} : NetworkConfig), vendorConfig], config.Legible := by
    intro config hconfig port
    rw [List.mem_cons, List.mem_singleton] at hconfig
    obtain rfl | rfl := hconfig <;> cases port <;>
      exact ⟨by decide +kernel, by decide +kernel, by decide +kernel, by decide +kernel⟩
  exact journal_round_trip
    { id := by decide
      bootId := by decide +kernel
      deadline := by decide
      previous := ⟨.builtIn, hlegible {} (by simp)⟩
      candidate := ⟨.vendorFiles loadVendor_vendorConfig, hlegible vendorConfig (by simp)⟩ }

end Uhf.Network
