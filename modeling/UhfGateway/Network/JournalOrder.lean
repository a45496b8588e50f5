/-
The order of a journal's members.

`parse_transaction` compares the deadline with the time of staging when it reads the deadline.  A
document is taken apart into the texts of its members here, so that they can stand in another
order.

* `Entry`, `readEntry` — what a member says, whatever has been read before;
* `Document` — a journal as a list of members;
* `journal_document_iff` — when the order of the members makes no difference.
-/
import UhfGateway.Network.Journal

namespace Uhf.Network

open Config (skipSpace consume)

theorem JournalKey.mem_all (key : JournalKey) : key ∈ JournalKey.all := by cases key <;> decide

namespace Journal

/-! ### Entries -/

inductive Entry
  | version (value : ℕ)
  | id (value : ℕ)
  | bootId (text : Bytes)
  | stagedBoottimeNs (value : ℕ)
  | deadlineBoottimeNs (value : ℕ)
  | state (name : Bytes)
  | previous (config : NetworkConfig)
  | candidate (config : NetworkConfig)
  deriving DecidableEq

namespace Entry

def key : Entry → JournalKey
  | version _ => .version
  | id _ => .id
  | bootId _ => .bootId
  | stagedBoottimeNs _ => .stagedBoottimeNs
  | deadlineBoottimeNs _ => .deadlineBoottimeNs
  | state _ => .state
  | previous _ => .previous
  | candidate _ => .candidate

/-- What is asked of a value on its own. -/
def InRange : Entry → Prop
  | version value => value = 1
  | id value => value ≠ 0
  | bootId text => text ≠ []
  | state name => (transactionStateOfName name).isSome
  | _ => True

instance : (e : Entry) → Decidable e.InRange
  | version value => inferInstanceAs (Decidable (value = 1))
  | id value => inferInstanceAs (Decidable (value ≠ 0))
  | bootId text => inferInstanceAs (Decidable (text ≠ []))
  | state name => inferInstanceAs (Decidable ((transactionStateOfName name).isSome = true))
  | stagedBoottimeNs _ | deadlineBoottimeNs _ | previous _ | candidate _ =>
    inferInstanceAs (Decidable True)

/-- What the readers ensure. -/
def Sized : Entry → Prop
  | version value | id value | stagedBoottimeNs value | deadlineBoottimeNs value =>
    value < 18446744073709551616
  | previous config | candidate config => (validate config).valid = true
  | bootId _ | state _ => True

/-- A deadline before the time of staging, as far as that has been read. -/
def Early (t : Transaction) : Entry → Prop
  | deadlineBoottimeNs value => UInt64.ofNat value < t.stagedBoottimeNs
  | _ => False

instance (t : Transaction) : (e : Entry) → Decidable (e.Early t)
  | deadlineBoottimeNs value =>
    inferInstanceAs (Decidable (UInt64.ofNat value < t.stagedBoottimeNs))
  | version _ | id _ | bootId _ | stagedBoottimeNs _ | state _ | previous _ | candidate _ =>
    inferInstanceAs (Decidable False)

def store (t : Transaction) : Entry → Transaction
  | version _ => t
  | id value => { t with id := UInt64.ofNat value }
  | bootId text => { t with bootId := text }
  | stagedBoottimeNs value => { t with stagedBoottimeNs := UInt64.ofNat value }
  | deadlineBoottimeNs value => { t with deadlineBoottimeNs := UInt64.ofNat value }
  | state name => { t with state := (transactionStateOfName name).getD t.state }
  | previous config => { t with previous := config }
  | candidate config => { t with candidate := config }

/-- The values of different keys are stored in either order. -/
theorem store_comm {e e' : Entry} (h : e.key ≠ e'.key) (t : Transaction) :
    e'.store (e.store t) = e.store (e'.store t) := by
  cases e <;> cases e' <;> first | exact absurd rfl h | rfl

end Entry

/-- The value of the key, as far as it can be told without the other members. -/
def readValue (input : Bytes) : JournalKey → Option (Entry × Bytes)
  | .version => (readUnsigned input).map fun (value, rest) => (.version value, rest)
  | .id => (readUnsigned input).map fun (value, rest) => (.id value, rest)
  | .bootId => (readString input).map fun (text, rest) => (.bootId text, rest)
  | .stagedBoottimeNs =>
    (readUnsigned input).map fun (value, rest) => (.stagedBoottimeNs value, rest)
  | .deadlineBoottimeNs =>
    (readUnsigned input).map fun (value, rest) => (.deadlineBoottimeNs value, rest)
  | .state => (readString input).map fun (name, rest) => (.state name, rest)
  | .previous => (readConfig input).map fun (config, rest) => (.previous config, rest)
  | .candidate => (readConfig input).map fun (config, rest) => (.candidate config, rest)

def readEntry (input : Bytes) : Option (Entry × Bytes) :=
  (readString (skipSpace input)).bind fun (key, rest) =>
    (consume ':'.toUInt8 (skipSpace rest)).bind fun rest =>
      (JournalKey.all.find? (·.text = key)).bind fun key =>
        (readValue rest key).map fun (e, rest) => (e, skipSpace rest)

/-- The parser once the entry has been read. -/
def take (p : TransactionParser) (e : Entry) : Option TransactionParser :=
  if e.key ∈ p.seen ∨ ¬ e.InRange ∨ e.Early p.transaction then none
  else some ⟨e.key :: p.seen, e.store p.transaction⟩

theorem readValue_key {input rest : Bytes} {key : JournalKey} {e : Entry}
    (h : readValue input key = some (e, rest)) : e.key = key := by
  cases key <;>
  · obtain ⟨read, -, hr⟩ := Option.map_eq_some_iff.mp h
    cases hr
    rfl

theorem parseValue_eq (t : Transaction) (input : Bytes) (key : JournalKey) :
    TransactionParser.parseValue t input key = (readValue input key).bind fun (e, rest) =>
      if ¬ e.InRange ∨ e.Early t then none else some (e.store t, rest) := by
  cases key with
  | version | id | bootId | deadlineBoottimeNs =>
    simp only [TransactionParser.parseValue, readValue, Option.bind_map]
    refine Option.bind_congr fun read _ => ?_
    simp [Entry.InRange, Entry.Early, Entry.store]
  | stagedBoottimeNs | previous | candidate =>
    rw [TransactionParser.parseValue, readValue, Option.bind_map, Option.map_eq_bind]
    refine Option.bind_congr fun read _ => ?_
    simp [Entry.InRange, Entry.Early, Entry.store]
  | state =>
    simp only [TransactionParser.parseValue, readValue, Option.bind_map]
    refine Option.bind_congr fun read _ => ?_
    cases hname : transactionStateOfName read.1 with
    | none => simp [Entry.InRange, hname]
    | some state => simp [Entry.InRange, Entry.Early, Entry.store, hname]

theorem parseMember_eq (p : TransactionParser) (input : Bytes) :
    p.parseMember input = (readEntry input).bind fun (e, rest) => (take p e).map (·, rest) := by
  rw [TransactionParser.parseMember, readEntry, Option.bind_assoc]
  refine Option.bind_congr fun found _ => ?_
  obtain ⟨key, behind⟩ := found
  rw [Option.bind_assoc]
  refine Option.bind_congr fun colon _ => ?_
  rw [TransactionParser.parseField, Option.bind_assoc, Option.map_bind]
  refine Option.bind_congr fun key _ => ?_
  dsimp only [Function.comp]
  rw [parseValue_eq, Option.bind_map]
  cases hvalue : readValue colon key with
  | none => simp
  | some read =>
    obtain ⟨e, rest⟩ := read
    have hkey := readValue_key hvalue
    subst hkey
    by_cases hseen : e.key ∈ p.seen
    · simp [take, hseen]
    · by_cases hbad : ¬ e.InRange ∨ e.Early p.transaction
      · simp [take, hseen, hbad]
      · simp [take, hseen, hbad]

/-! ### Texts of members -/

end Journal

namespace ObjectScan

/-- A character of a member.  What ends it is a comma or a brace outside strings and objects. -/
def inside (s : ObjectScan) (c : UInt8) : Option ObjectScan :=
  if s.depth = 0 ∧ s.quoted = false ∧ (c = ','.toUInt8 ∨ c = '}'.toUInt8) then none
  else some ((s.step c).getD { s with depth := 0 })

/-- Inside of an object. -/
def Within (s : ObjectScan) : Prop := 1 ≤ s.depth ∧ (s.escaped = true → s.quoted = true)

theorem inside_step {s s' : ObjectScan} {c : UInt8} (h : s.Within) (hstep : s.step c = some s') :
    s.inside c = some s' ∧ s'.Within := by
  have hinside : ¬ (s.depth = 0 ∧ s.quoted = false ∧ (c = ','.toUInt8 ∨ c = '}'.toUInt8)) :=
    fun hend => Nat.ne_of_gt h.1 hend.1
  refine ⟨by rw [inside, if_neg hinside, hstep, Option.getD_some], ?_⟩
  obtain ⟨hdepth, hescaped⟩ := h
  obtain ⟨depth, quoted, escaped⟩ := s
  cases quoted with
  | true => grind [step, Within]
  | false => grind [step, Within]

theorem inside_close {s : ObjectScan} {c : UInt8} (h : s.Within) (hstep : s.step c = none) :
    s.inside c = some {} := by
  have hinside : ¬ (s.depth = 0 ∧ s.quoted = false ∧ (c = ','.toUInt8 ∨ c = '}'.toUInt8)) :=
    fun hend => Nat.ne_of_gt h.1 hend.1
  obtain ⟨hdepth, hescaped⟩ := h
  rw [inside, if_neg hinside, hstep, Option.getD_none]
  obtain ⟨depth, quoted, escaped⟩ := s
  cases quoted with
  | true => grind [step]
  | false => cases escaped <;> simp_all

end ObjectScan

namespace Journal

/-- The text is over outside strings and objects, and has not been before. -/
def Closed (text : Bytes) : Prop := text.foldlM ObjectScan.inside {} = some {}

/-- What stands behind a member. -/
def Separated (rest : Bytes) : Prop :=
  ∃ c more, rest = c :: more ∧ (c = ','.toUInt8 ∨ c = '}'.toUInt8)

theorem Closed.append {first second : Bytes} (hfirst : Closed first) (hsecond : Closed second) :
    Closed (first ++ second) := by
  rw [Closed, List.foldlM_append, hfirst]
  exact hsecond

theorem Closed.of_append {first second : Bytes} (hfirst : Closed first)
    (h : Closed (first ++ second)) : Closed second := by
  rw [Closed, List.foldlM_append, hfirst] at h
  exact h

theorem Closed.not_separated {text : Bytes} (h : Closed text) : ¬ Separated text := by
  rintro ⟨c, more, rfl, hc⟩
  have hstep : ObjectScan.inside {} c = none := if_pos ⟨rfl, rfl, hc⟩
  rw [Closed, List.foldlM_cons, hstep] at h
  cases h

theorem Separated.append {text more : Bytes} (h : Separated (text ++ more)) (hne : text ≠ []) :
    Separated text := by
  obtain ⟨c, behind, heq, hc⟩ := h
  cases text with
  | nil => exact absurd rfl hne
  | cons first text =>
    rw [List.cons_append, List.cons.injEq] at heq
    exact ⟨first, text, rfl, heq.1 ▸ hc⟩

/-- A member ends where the next separator outside of strings and objects stands. -/
theorem Closed.unique {first second behind behind' : Bytes} (hfirst : Closed first)
    (hsecond : Closed second) (hbehind : Separated behind) (hbehind' : Separated behind')
    (h : first ++ behind = second ++ behind') : first = second ∧ behind = behind' := by
  have hshort : ∀ {text more : Bytes}, Closed text → Closed (text ++ more) →
      ∀ {last : Bytes}, Separated (more ++ last) → more = [] := by
    intro text more htext hlong last hlast
    by_contra hne
    exact (htext.of_append hlong).not_separated (hlast.append hne)
  obtain ⟨more, rfl, rfl⟩ | ⟨more, rfl, rfl⟩ := List.append_eq_append_iff.mp h
  · obtain rfl := hshort hfirst hsecond hbehind
    simp
  · obtain rfl := hshort hsecond hfirst hbehind'
    simp

theorem closed_of_quiet {text : Bytes}
    (h : ∀ c ∈ text, c ≠ '"'.toUInt8 ∧ c ≠ '{'.toUInt8 ∧ c ≠ '}'.toUInt8 ∧ c ≠ ','.toUInt8) :
    Closed text := by
  induction text with
  | nil => rfl
  | cons c text ih =>
    obtain ⟨⟨hquote, hopen, hclose, hcomma⟩, htext⟩ := List.forall_mem_cons.mp h
    have hstep : ObjectScan.inside {} c = some {} := by
      simp [ObjectScan.inside, ObjectScan.step, hquote, hopen, hclose, hcomma]
    rw [Closed, List.foldlM_cons, hstep]
    exact ih htext

theorem closed_blank {gap : Bytes} (h : Config.Blank gap) : Closed gap := by
  refine closed_of_quiet fun c hc => ?_
  have hspace := h c hc
  refine ⟨?_, ?_, ?_, ?_⟩ <;>
  · rintro rfl
    exact absurd hspace (by decide)

theorem closed_colon : Closed [':'.toUInt8] :=
  closed_of_quiet (List.forall_mem_singleton.mpr (by decide))

theorem closed_digits {digits : Bytes} (h : ∀ c ∈ digits, isDigit c = true) : Closed digits := by
  refine closed_of_quiet fun c hc => ?_
  have hdigit := h c hc
  refine ⟨?_, ?_, ?_, ?_⟩ <;>
  · rintro rfl
    exact absurd hdigit (by decide)

/-! ### What the readers go over -/

theorem stringLoop_reads {input result text rest : Bytes}
    (h : stringLoop input result = some (text, rest)) :
    ∃ used, input = used ++ rest ∧
      used.foldlM ObjectScan.inside { quoted := true } = some {} ∧
      ∀ rest', stringLoop (used ++ rest') result = some (text, rest') := by
  fun_induction stringLoop input result with
  | case1 => cases h
  | case2 input result hlength =>
    cases h
    refine ⟨['"'.toUInt8], rfl, rfl, fun rest' => ?_⟩
    rw [List.singleton_append, stringLoop.eq_def]
    exact (if_pos rfl).trans (if_pos hlength)
  | case3 => cases h
  | case4 => cases h
  | case5 c input result hquote hcontrol hescape ih =>
    obtain ⟨used, rfl, hused, hread⟩ := ih h
    have hstep : ObjectScan.inside { quoted := true } c = some { quoted := true } := by
      simp [ObjectScan.inside, ObjectScan.step, hquote, hescape]
    refine ⟨c :: used, rfl, ?_, fun rest' => ?_⟩
    · rw [List.foldlM_cons, hstep]
      exact hused
    · rw [List.cons_append, stringLoop.eq_def]
      dsimp only
      rw [if_neg hquote, if_neg hcontrol, if_pos hescape, hread]
  | case6 => cases h
  | case7 => cases h
  | case8 c result hquote hcontrol hescape escaped input hescaped ih =>
    obtain ⟨used, rfl, hused, hread⟩ := ih h
    rw [not_not] at hescape
    subst hescape
    refine ⟨'\\'.toUInt8 :: escaped :: used, rfl, ?_, fun rest' => ?_⟩
    · have hstep : ObjectScan.inside { quoted := true, escaped := true } escaped =
          some { quoted := true } := by
        simp [ObjectScan.inside, ObjectScan.step]
      rw [List.foldlM_cons]
      show (used.foldlM ObjectScan.inside { quoted := true }) = _
      exact hused
    · rw [List.cons_append, List.cons_append, stringLoop.eq_def]
      dsimp only
      rw [if_neg hquote, if_neg hcontrol, if_neg (not_not.mpr rfl), if_neg hescaped, hread]

theorem readString_reads {input text rest : Bytes} (h : readString input = some (text, rest)) :
    ∃ used, input = '"'.toUInt8 :: (used ++ rest) ∧ Closed ('"'.toUInt8 :: used) ∧
      ∀ rest', readString ('"'.toUInt8 :: (used ++ rest')) = some (text, rest') := by
  obtain ⟨later, hquote, hloop⟩ := Option.bind_eq_some_iff.mp h
  rw [Config.consume_eq_some] at hquote
  obtain ⟨used, rfl, hused, hread⟩ := stringLoop_reads hloop
  refine ⟨used, hquote, ?_, fun rest' => ?_⟩
  · rw [Closed, List.foldlM_cons]
    exact hused
  · rw [readString, parseString, consume, if_pos rfl, Option.bind_some, hread]

theorem readUnsigned_reads {input rest : Bytes} {n : ℕ} (h : readUnsigned input = some (n, rest)) :
    n < 18446744073709551616 ∧ ∃ used, input = used ++ rest ∧ Closed used ∧
      ∀ rest', NoDigit rest' → readUnsigned (used ++ rest') = some (n, rest') := by
  obtain ⟨value, hvalue, hr⟩ := Option.map_eq_some_iff.mp h
  simp only [Prod.mk.injEq] at hr
  obtain ⟨rfl, rfl⟩ := hr
  have hdigits : ∀ c ∈ input.takeWhile isDigit, isDigit c = true :=
    fun c hc => List.mem_takeWhile_imp hc
  refine ⟨fromChars_lt hvalue, input.takeWhile isDigit, List.takeWhile_append_dropWhile.symm,
    closed_digits hdigits, fun rest' hrest => ?_⟩
  obtain ⟨htake, hdrop⟩ := takeWhile_digits (List.all_eq_true.mpr hdigits) hrest
  rw [readUnsigned, Config.parseUnsigned, htake, hdrop, hvalue]
  rfl

theorem extractLoop_reads {s : ObjectScan} {input object rest : Bytes} (hs : s.Within)
    (h : extractLoop s input = some (object, rest)) :
    input = object ++ rest ∧ object.foldlM ObjectScan.inside s = some {} ∧
      ∀ rest', extractLoop s (object ++ rest') = some (object, rest') := by
  induction input generalizing s object with
  | nil => cases h
  | cons c input ih =>
    rw [extractLoop] at h
    cases hstep : s.step c with
    | none =>
      simp only [hstep, Option.some.injEq, Prod.mk.injEq] at h
      obtain ⟨rfl, rfl⟩ := h
      refine ⟨rfl, ?_, fun rest' => ?_⟩
      · rw [List.foldlM_cons, ObjectScan.inside_close hs hstep]
        rfl
      · rw [List.singleton_append, extractLoop, hstep]
    | some s' =>
      simp only [hstep] at h
      obtain ⟨⟨more, behind⟩, hloop, hr⟩ := Option.map_eq_some_iff.mp h
      simp only [Prod.mk.injEq] at hr
      obtain ⟨rfl, rfl⟩ := hr
      obtain ⟨hinside, hs'⟩ := ObjectScan.inside_step hs hstep
      obtain ⟨rfl, hclosed, hread⟩ := ih hs' hloop
      refine ⟨rfl, ?_, fun rest' => ?_⟩
      · rw [List.foldlM_cons, hinside]
        exact hclosed
      · rw [List.cons_append, extractLoop, hstep]
        dsimp only
        rw [hread]
        rfl

theorem extractObject_reads {input object rest : Bytes}
    (h : extractObject input = some (object, rest)) :
    ∃ used, input = used ++ rest ∧ Closed used ∧
      ∀ rest', extractObject (used ++ rest') = some (object, rest') := by
  rw [extractObject, Option.ite_none_right_eq_some] at h
  obtain ⟨gap, hgap, hinput⟩ := Config.skipSpace_gap input
  cases hstart : skipSpace input with
  | nil => rw [hstart] at h; cases h.1
  | cons c more =>
    rw [hstart, List.head?_cons, Option.some.injEq] at h
    obtain ⟨rfl, h⟩ := h
    obtain ⟨⟨object', rest'⟩, hloop, hr⟩ := Option.map_eq_some_iff.mp h
    simp only [Prod.mk.injEq] at hr
    obtain ⟨rfl, rfl⟩ := hr
    have hwithin : ObjectScan.Within { depth := 1 } := ⟨Nat.le_refl 1, by simp⟩
    obtain ⟨rfl, hclosed, hread⟩ := extractLoop_reads hwithin hloop
    have hobject : Closed ('{'.toUInt8 :: object') := by
      rw [Closed, List.foldlM_cons]
      exact hclosed
    rw [hstart] at hinput
    refine ⟨gap ++ '{'.toUInt8 :: object', by rw [hinput, List.append_assoc, List.cons_append],
      (closed_blank hgap).append hobject, fun rest' => ?_⟩
    have hskip : skipSpace (gap ++ '{'.toUInt8 :: object' ++ rest') =
        '{'.toUInt8 :: (object' ++ rest') := by
      rw [List.append_assoc, hgap.skipSpace]
      exact Config.skipSpace_of_not (by decide) _
    rw [extractObject, hskip, List.head?_cons, if_pos rfl]
    show (extractLoop { depth := 1 } (object' ++ rest')).map _ = _
    rw [hread]
    rfl

theorem readConfig_reads {input rest : Bytes} {config : NetworkConfig}
    (h : readConfig input = some (config, rest)) :
    (validate config).valid = true ∧ ∃ used, input = used ++ rest ∧ Closed used ∧
      ∀ rest', readConfig (used ++ rest') = some (config, rest') := by
  obtain ⟨⟨object, behind⟩, hobject, h⟩ := Option.bind_eq_some_iff.mp h
  obtain ⟨config', hparsed, hr⟩ := Option.map_eq_some_iff.mp h
  simp only [Prod.mk.injEq] at hr
  obtain ⟨rfl, rfl⟩ := hr
  obtain ⟨used, hinput, hclosed, hread⟩ := extractObject_reads hobject
  refine ⟨(parseFlatJson_ordered hparsed).valid, used, hinput, hclosed, fun rest' => ?_⟩
  rw [readConfig, hread, Option.bind_some]
  dsimp only
  rw [hparsed]
  rfl

theorem readValue_reads {input rest : Bytes} {key : JournalKey} {e : Entry}
    (h : readValue input key = some (e, rest)) :
    e.Sized ∧ ∃ used, input = used ++ rest ∧ Closed used ∧
      ∀ rest', NoDigit rest' → readValue (used ++ rest') key = some (e, rest') := by
  cases key with
  | version | id | stagedBoottimeNs | deadlineBoottimeNs =>
    obtain ⟨⟨value, behind⟩, hvalue, hr⟩ := Option.map_eq_some_iff.mp h
    cases hr
    obtain ⟨hlt, used, hinput, hclosed, hread⟩ := readUnsigned_reads hvalue
    refine ⟨hlt, used, hinput, hclosed, fun rest' hrest => ?_⟩
    rw [readValue, hread rest' hrest]
    rfl
  | bootId | state =>
    obtain ⟨⟨text, behind⟩, htext, hr⟩ := Option.map_eq_some_iff.mp h
    cases hr
    obtain ⟨used, hinput, hclosed, hread⟩ := readString_reads htext
    refine ⟨trivial, '"'.toUInt8 :: used, hinput, hclosed, fun rest' _ => ?_⟩
    rw [readValue, List.cons_append, hread rest']
    rfl
  | previous | candidate =>
    obtain ⟨⟨config, behind⟩, hconfig, hr⟩ := Option.map_eq_some_iff.mp h
    cases hr
    obtain ⟨hvalid, used, hinput, hclosed, hread⟩ := readConfig_reads hconfig
    refine ⟨hvalid, used, hinput, hclosed, fun rest' _ => ?_⟩
    rw [readValue, hread rest']
    rfl

theorem Separated.noDigit {rest : Bytes} (h : Separated rest) : NoDigit rest := by
  obtain ⟨c, more, rfl, rfl | rfl⟩ := h <;> exact noDigit_cons (by decide) more

theorem Separated.skipSpace {rest : Bytes} (h : Separated rest) : skipSpace rest = rest := by
  obtain ⟨c, more, rfl, rfl | rfl⟩ := h <;> exact Config.skipSpace_of_not (by decide) more

theorem noDigit_blank {gap rest : Bytes} (hgap : Config.Blank gap) (hrest : NoDigit rest) :
    NoDigit (gap ++ rest) := by
  cases gap with
  | nil => exact hrest
  | cons c gap =>
    refine noDigit_cons ?_ _
    have hspace := hgap c List.mem_cons_self
    simp only [Config.isSpace, Bool.or_eq_true, decide_eq_true_eq] at hspace
    rcases hspace with ((rfl | rfl) | rfl) | rfl <;> decide

/-- A member is read from its text alone, whatever stands behind the separator. -/
theorem readEntry_reads {input rest : Bytes} {e : Entry} (h : readEntry input = some (e, rest)) :
    e.Sized ∧ ∃ used, input = used ++ rest ∧ Closed used ∧
      ∀ rest', Separated rest' → readEntry (used ++ rest') = some (e, rest') := by
  obtain ⟨⟨name, behind⟩, hname, h⟩ := Option.bind_eq_some_iff.mp h
  obtain ⟨colon, hcolon, h⟩ := Option.bind_eq_some_iff.mp h
  obtain ⟨key, hkey, h⟩ := Option.bind_eq_some_iff.mp h
  obtain ⟨⟨e', field⟩, hvalue, hr⟩ := Option.map_eq_some_iff.mp h
  simp only [Prod.mk.injEq] at hr
  obtain ⟨rfl, rfl⟩ := hr
  rw [Config.consume_eq_some] at hcolon
  obtain ⟨lead, hlead, hinput⟩ := Config.skipSpace_gap input
  obtain ⟨gap, hgap, hbehind⟩ := Config.skipSpace_gap behind
  obtain ⟨tail, htail, hfield⟩ := Config.skipSpace_gap field
  obtain ⟨text, hstart, htext, hreadName⟩ := readString_reads hname
  obtain ⟨hsized, value, hvalueText, hclosed, hreadValue⟩ := readValue_reads hvalue
  have hmember : Closed (lead ++ ('"'.toUInt8 :: text ++ (gap ++ ([':'.toUInt8] ++
      (value ++ tail))))) :=
    (closed_blank hlead).append (htext.append ((closed_blank hgap).append (closed_colon.append
      (hclosed.append (closed_blank htail)))))
  refine ⟨hsized, _, ?_, hmember, fun rest' hrest => ?_⟩
  · rw [hinput, hstart, hbehind, hcolon, hvalueText]
    nth_rewrite 1 [hfield]
    simp only [List.append_assoc, List.cons_append, List.nil_append]
  · have hskipName : skipSpace (lead ++ ('"'.toUInt8 :: text ++ (gap ++ ([':'.toUInt8] ++
        (value ++ tail)))) ++ rest') = '"'.toUInt8 :: (text ++ (gap ++ (':'.toUInt8 ::
          (value ++ (tail ++ rest'))))) := by
      simp only [List.append_assoc, List.cons_append, List.nil_append]
      rw [hlead.skipSpace]
      exact Config.skipSpace_of_not (by decide) _
    have hskipColon : skipSpace (gap ++ (':'.toUInt8 :: (value ++ (tail ++ rest')))) =
        ':'.toUInt8 :: (value ++ (tail ++ rest')) := by
      rw [hgap.skipSpace]
      exact Config.skipSpace_of_not (by decide) _
    have hbehindValue : NoDigit (tail ++ rest') := noDigit_blank htail hrest.noDigit
    rw [readEntry, hskipName, hreadName, Option.bind_some]
    dsimp only
    rw [hskipColon, consume, if_pos rfl, Option.bind_some, hkey, Option.bind_some,
      hreadValue _ hbehindValue, Option.map_some]
    dsimp only
    rw [htail.skipSpace, hrest.skipSpace]

/-! ### Documents -/

/-- What the text of a member says, if it is a member. -/
def memberEntry (text : Bytes) : Option Entry :=
  (readEntry (text ++ ascii ",")).bind fun (e, rest) => if rest = ascii "," then some e else none

theorem separated_comma (rest : Bytes) : Separated (ascii "," ++ rest) :=
  ⟨_, rest, rfl, .inl rfl⟩

theorem readEntry_of_member {text : Bytes} {e : Entry} (h : memberEntry text = some e) :
    e.Sized ∧ ∀ rest, Separated rest → readEntry (text ++ rest) = some (e, rest) := by
  obtain ⟨⟨e', rest⟩, hread, hr⟩ := Option.bind_eq_some_iff.mp h
  rw [Option.ite_none_right_eq_some] at hr
  obtain ⟨hrest, he⟩ := hr
  cases he
  subst hrest
  obtain ⟨hsized, used, heq, -, hreads⟩ := readEntry_reads hread
  rw [List.append_cancel_right_eq] at heq
  exact ⟨hsized, heq ▸ hreads⟩

/-- The reader stops at the separator behind the member, or it does not stop at one at all. -/
theorem member_of_readEntry {text rest left : Bytes} {e : Entry} (hclosed : Closed text)
    (hrest : Separated rest) (hread : readEntry (text ++ rest) = some (e, left))
    (hleft : Separated left) : memberEntry text = some e ∧ left = rest := by
  obtain ⟨-, used, heq, hused, hreads⟩ := readEntry_reads hread
  obtain ⟨rfl, rfl⟩ := hclosed.unique hused hrest hleft heq
  have hcomma := hreads (ascii ",") (separated_comma [])
  refine ⟨?_, rfl⟩
  rw [memberEntry, hcomma, Option.bind_some]
  exact if_pos rfl

def takeMember (p : TransactionParser) (text : Bytes) : Option TransactionParser :=
  (memberEntry text).bind (take p)

/-- What the loop does behind a member. -/
def parseBehind (p : TransactionParser) (rest : Bytes) : Option Transaction :=
  match consume '}'.toUInt8 rest with
  | some behind => p.finish behind
  | none => (consume ','.toUInt8 rest).bind p.parseMembers

theorem parseMembers_eq (p : TransactionParser) (input : Bytes) :
    p.parseMembers input = (p.parseMember input).bind fun (p, rest) => parseBehind p rest := by
  fun_cases TransactionParser.parseMembers p input with
  | case1 hmember => simp only [hmember, Option.bind_none]
  | case2 p' rest hmember behind hbrace =>
    simp only [hmember, Option.bind_some, parseBehind, hbrace]
  | case3 p' rest hmember hbrace hcomma =>
    simp only [hmember, Option.bind_some, parseBehind, hbrace, hcomma, Option.bind_none]
  | case4 p' rest hmember hbrace more hcomma =>
    simp only [hmember, Option.bind_some, parseBehind, hbrace, hcomma]

theorem separated_of_behind {p : TransactionParser} {rest : Bytes} {t : Transaction}
    (h : parseBehind p rest = some t) : Separated rest := by
  rw [parseBehind] at h
  split at h
  · next behind hbrace =>
    rw [Config.consume_eq_some] at hbrace
    exact ⟨_, behind, hbrace, .inr rfl⟩
  · obtain ⟨more, hcomma, -⟩ := Option.bind_eq_some_iff.mp h
    rw [Config.consume_eq_some] at hcomma
    exact ⟨_, more, hcomma, .inl rfl⟩

theorem parseMembers_member (p : TransactionParser) {text rest : Bytes} (hclosed : Closed text)
    (hrest : Separated rest) :
    p.parseMembers (text ++ rest) = (takeMember p text).bind (parseBehind · rest) := by
  rw [parseMembers_eq, parseMember_eq, takeMember]
  cases hmember : memberEntry text with
  | some e =>
    rw [(readEntry_of_member hmember).2 rest hrest, Option.bind_some, Option.bind_some,
      Option.bind_map]
    rfl
  | none =>
    -- Whatever has been read, neither a comma nor a brace stands behind it.
    rw [Option.bind_none, Option.bind_none, Option.eq_none_iff_forall_ne_some]
    intro t h
    obtain ⟨⟨p', left⟩, htaken, h⟩ := Option.bind_eq_some_iff.mp h
    obtain ⟨⟨e, left'⟩, hread, hr⟩ := Option.bind_eq_some_iff.mp htaken
    obtain ⟨p'', -, hr⟩ := Option.map_eq_some_iff.mp hr
    cases hr
    rw [(member_of_readEntry hclosed hrest hread (separated_of_behind h)).1] at hmember
    cases hmember

/-- A journal as the texts of its members and the spaces around its braces. -/
structure Document where
  lead : Bytes
  members : List Bytes
  tail : Bytes
  lead_blank : Config.Blank lead
  members_ne : members ≠ []
  closed : ∀ m ∈ members, Closed m
  tail_blank : Config.Blank tail

namespace Document

def text (d : Document) : Bytes :=
  d.lead ++ '{'.toUInt8 :: ((ascii ",").intercalate d.members ++ '}'.toUInt8 :: d.tail)

/-- The same members in another order. -/
structure Rearranged (d d' : Document) : Prop where
  lead : d'.lead = d.lead
  members : d'.members.Perm d.members
  tail : d'.tail = d.tail

end Document

theorem parseMembers_members {members : List Bytes} (hne : members ≠ [])
    (hclosed : ∀ m ∈ members, Closed m) (p : TransactionParser) (tail : Bytes) :
    p.parseMembers ((ascii ",").intercalate members ++ '}'.toUInt8 :: tail) =
      (members.foldlM takeMember p).bind (·.finish tail) := by
  induction members generalizing p with
  | nil => exact absurd rfl hne
  | cons m members ih =>
    obtain ⟨hm, hmembers⟩ := List.forall_mem_cons.mp hclosed
    cases members with
    | nil =>
      have hconsume : consume '}'.toUInt8 ('}'.toUInt8 :: tail) = some tail := rfl
      rw [List.intercalate_singleton, parseMembers_member p hm ⟨_, tail, rfl, .inr rfl⟩,
        List.foldlM_cons]
      simp only [parseBehind, hconsume, List.foldlM_nil, Option.bind_eq_bind, Option.pure_def,
        Option.bind_fun_some]
    | cons next members =>
      have hnoBrace : ∀ more : Bytes, consume '}'.toUInt8 (ascii "," ++ more) = none :=
        fun _ => rfl
      have hconsume : ∀ more : Bytes, consume ','.toUInt8 (ascii "," ++ more) = some more :=
        fun _ => rfl
      rw [List.intercalate_cons_cons, List.append_assoc, List.append_assoc,
        parseMembers_member p hm (separated_comma _), List.foldlM_cons]
      simp only [parseBehind, hnoBrace, hconsume, Option.bind_some, Option.bind_eq_bind,
        Option.bind_assoc]
      exact Option.bind_congr fun p' _ => ih (by simp) hmembers p'

theorem parseTransaction_text (d : Document) :
    parseTransaction d.text = (d.members.foldlM takeMember {}).bind (·.finish d.tail) := by
  have hskip : skipSpace d.text =
      '{'.toUInt8 :: ((ascii ",").intercalate d.members ++ '}'.toUInt8 :: d.tail) := by
    rw [Document.text, d.lead_blank.skipSpace]
    exact Config.skipSpace_of_not (by decide) _
  rw [parseTransaction, hskip, consume, if_pos rfl, Option.bind_some,
    parseMembers_members d.members_ne d.closed]

/-- What the loop accepts is a list of members. -/
theorem members_of_parseMembers {p : TransactionParser} {input : Bytes} {t : Transaction}
    (h : p.parseMembers input = some t) :
    ∃ members tail, members ≠ [] ∧ (∀ m ∈ members, Closed m) ∧ Config.Blank tail ∧
      input = (ascii ",").intercalate members ++ '}'.toUInt8 :: tail := by
  have hread : ∀ {p p' : TransactionParser} {input rest : Bytes},
      p.parseMember input = some (p', rest) → ∃ used, input = used ++ rest ∧ Closed used := by
    intro p p' input rest hmember
    rw [parseMember_eq] at hmember
    obtain ⟨⟨e, behind⟩, hread, hr⟩ := Option.bind_eq_some_iff.mp hmember
    obtain ⟨taken, -, hr⟩ := Option.map_eq_some_iff.mp hr
    cases hr
    obtain ⟨-, used, hinput, hused, -⟩ := readEntry_reads hread
    exact ⟨used, hinput, hused⟩
  fun_induction TransactionParser.parseMembers p input with
  | case1 => cases h
  | case2 p input p' rest hmember behind hbrace =>
    obtain ⟨used, rfl, hused⟩ := hread hmember
    rw [Config.consume_eq_some] at hbrace
    subst hbrace
    rw [TransactionParser.finish, Option.ite_none_right_eq_some] at h
    obtain ⟨gap, hgap, hbehind⟩ := Config.skipSpace_gap behind
    rw [h.1.1, List.append_nil] at hbehind
    exact ⟨[used], behind, by simp, by simpa using hused, hbehind ▸ hgap, by simp⟩
  | case3 => cases h
  | case4 p input p' rest hmember hbrace more hcomma ih =>
    obtain ⟨used, rfl, hused⟩ := hread hmember
    rw [Config.consume_eq_some] at hcomma
    subst hcomma
    obtain ⟨members, tail, hne, hclosed, htail, rfl⟩ := ih h
    refine ⟨used :: members, tail, by simp, List.forall_mem_cons.mpr ⟨hused, hclosed⟩, htail, ?_⟩
    cases members with
    | nil => exact absurd rfl hne
    | cons next members =>
      rw [List.intercalate_cons_cons, List.append_assoc, List.append_assoc]
      rfl

theorem document_of_parseTransaction {contents : Bytes} {t : Transaction}
    (h : parseTransaction contents = some t) : ∃ d : Document, d.text = contents := by
  obtain ⟨rest, hconsume, h⟩ := Option.bind_eq_some_iff.mp h
  rw [Config.consume_eq_some] at hconsume
  obtain ⟨lead, hlead, hcontents⟩ := Config.skipSpace_gap contents
  obtain ⟨members, tail, hne, hclosed, htail, rfl⟩ := members_of_parseMembers h
  refine ⟨⟨lead, members, tail, hlead, hne, hclosed, htail⟩, ?_⟩
  rw [hcontents, hconsume]
  rfl

/-! ### Orders -/

/-- No deadline before the time of staging is met, from the transaction as it has been read. -/
def NeverEarly : Transaction → List Entry → Prop
  | _, [] => True
  | t, e :: es => ¬ e.Early t ∧ NeverEarly (e.store t) es

/-- What is stored, whatever the checks say. -/
def stored (t : Transaction) (es : List Entry) : Transaction := es.foldl (fun t e => e.store t) t

/-- All members are there once, and each is in range. -/
structure Complete (es : List Entry) : Prop where
  keys : (es.map Entry.key).Perm JournalKey.all
  inRange : ∀ e ∈ es, e.InRange

theorem foldlM_take {p q : TransactionParser} {es : List Entry} :
    es.foldlM take p = some q ↔
      (es.map Entry.key).Nodup ∧ (∀ e ∈ es, e.key ∉ p.seen) ∧ (∀ e ∈ es, e.InRange) ∧
        NeverEarly p.transaction es ∧
        q = ⟨(es.map Entry.key).reverse ++ p.seen, stored p.transaction es⟩ := by
  induction es generalizing p with
  | nil => simp [NeverEarly, stored, eq_comm]
  | cons e es ih =>
    rw [List.foldlM_cons, List.map_cons, List.nodup_cons, List.forall_mem_cons,
      List.forall_mem_cons, take]
    split
    · next hbad =>
      constructor
      · intro h
        cases h
      · rintro ⟨-, ⟨hseen, -⟩, ⟨hrange, -⟩, ⟨hearly, -⟩, -⟩
        obtain hbad | hbad | hbad := hbad
        · exact absurd hbad hseen
        · exact absurd hrange hbad
        · exact absurd hbad hearly
    · next hgood =>
      rw [not_or, not_or, not_not] at hgood
      obtain ⟨hseen, hrange, hearly⟩ := hgood
      have hfresh : (∀ e' ∈ es, e'.key ∉ e.key :: p.seen) ↔
          e.key ∉ es.map Entry.key ∧ ∀ e' ∈ es, e'.key ∉ p.seen := by
        simp only [List.mem_cons, not_or, List.mem_map, not_exists, not_and]
        exact ⟨fun h => ⟨fun e' he' => (h e' he').1, fun e' he' => (h e' he').2⟩,
          fun h e' he' => ⟨h.1 e' he', h.2 e' he'⟩⟩
      refine ih.trans ?_
      rw [hfresh, List.reverse_cons, List.append_assoc, List.singleton_append]
      constructor
      · rintro ⟨hnodup, ⟨hkey, hnew⟩, hranges, hnever, rfl⟩
        exact ⟨⟨hkey, hnodup⟩, ⟨hseen, hnew⟩, ⟨hrange, hranges⟩, ⟨hearly, hnever⟩, rfl⟩
      · rintro ⟨⟨hkey, hnodup⟩, ⟨-, hnew⟩, ⟨-, hranges⟩, ⟨-, hnever⟩, rfl⟩
        exact ⟨hnodup, ⟨hkey, hnew⟩, hranges, hnever, rfl⟩

theorem Complete.nodup {es : List Entry} (h : Complete es) : (es.map Entry.key).Nodup :=
  h.keys.nodup_iff.mpr (by decide)

theorem Complete.perm {es es' : List Entry} (h : Complete es) (hperm : es'.Perm es) :
    Complete es' where
  keys := (hperm.map Entry.key).trans h.keys
  inRange e he := h.inRange e (hperm.mem_iff.mp he)

/-- All values are stored, in whatever order. -/
theorem Complete.stored_perm {es es' : List Entry} (h : Complete es) (hperm : es'.Perm es)
    (t : Transaction) : stored t es' = stored t es := by
  refine hperm.foldl_eq' (fun e he e' he' t => ?_) t
  by_cases hkey : e.key = e'.key
  · rw [List.inj_on_of_nodup_map (h.perm hperm).nodup he he' hkey]
  · exact Entry.store_comm hkey t

/-- A value that has been stored is there in the end. -/
theorem Complete.store_stored {es : List Entry} (h : Complete es) {e : Entry} (he : e ∈ es)
    (t : Transaction) : e.store (stored t es) = stored t es := by
  have hlast : es.Perm (es.erase e ++ [e]) :=
    (List.perm_cons_erase he).trans (List.perm_append_singleton e _).symm
  have htwice : ∀ t : Transaction, e.store (e.store t) = e.store t := by
    intro t
    cases e with
    | state name => cases hname : transactionStateOfName name <;> simp [Entry.store, hname]
    | version | id | bootId | stagedBoottimeNs | deadlineBoottimeNs | previous | candidate => rfl
  rw [← h.stored_perm hlast.symm, stored, List.foldl_append, List.foldl_cons, List.foldl_nil,
    htwice]

theorem Complete.exists_key {es : List Entry} (h : Complete es) (key : JournalKey) :
    ∃ e ∈ es, e.key = key := by
  have hkey : key ∈ es.map Entry.key := h.keys.mem_iff.mpr key.mem_all
  exact List.mem_map.mp hkey

theorem neverEarly_append {t : Transaction} {es es' : List Entry} :
    NeverEarly t (es ++ es') ↔ NeverEarly t es ∧ NeverEarly (stored t es) es' := by
  induction es generalizing t with
  | nil => exact (and_iff_right trivial).symm
  | cons e es ih =>
    rw [List.cons_append, NeverEarly, NeverEarly, ih, and_assoc]
    rfl

theorem neverEarly_of_le {t : Transaction} {es : List Entry}
    (hstart : ∀ deadline, .deadlineBoottimeNs deadline ∈ es →
      ¬ UInt64.ofNat deadline < t.stagedBoottimeNs)
    (hes : ∀ staged deadline, .stagedBoottimeNs staged ∈ es → .deadlineBoottimeNs deadline ∈ es →
      ¬ UInt64.ofNat deadline < UInt64.ofNat staged) : NeverEarly t es := by
  induction es generalizing t with
  | nil => trivial
  | cons e es ih =>
    have hrest := fun staged deadline hstaged hdeadline => hes staged deadline
      (List.mem_cons_of_mem e hstaged) (List.mem_cons_of_mem e hdeadline)
    refine ⟨?_, ih (fun deadline hdeadline => ?_) hrest⟩
    · cases e with
      | deadlineBoottimeNs deadline => exact hstart deadline List.mem_cons_self
      | version | id | bootId | stagedBoottimeNs | state | previous | candidate => exact id
    · have hdeadline := List.mem_cons_of_mem e hdeadline
      cases e with
      | stagedBoottimeNs staged => exact hes staged deadline List.mem_cons_self hdeadline
      | version | id | bootId | deadlineBoottimeNs | state | previous | candidate =>
        exact hstart deadline hdeadline

/-- Without another time of staging, each deadline is compared with the one that is known. -/
theorem NeverEarly.not_lt {t : Transaction} {es : List Entry} (h : NeverEarly t es)
    (hnone : ∀ staged, .stagedBoottimeNs staged ∉ es) {deadline : ℕ}
    (hdeadline : .deadlineBoottimeNs deadline ∈ es) :
    ¬ UInt64.ofNat deadline < t.stagedBoottimeNs := by
  induction es generalizing t with
  | nil => cases hdeadline
  | cons e es ih =>
    obtain ⟨hearly, hrest⟩ := h
    have hnoneRest : ∀ staged, .stagedBoottimeNs staged ∉ es := fun staged hstaged =>
      hnone staged (List.mem_cons_of_mem e hstaged)
    obtain rfl | hdeadline := List.mem_cons.mp hdeadline
    · exact hearly
    · have hlater := ih hrest hnoneRest hdeadline
      cases e with
      | stagedBoottimeNs staged => exact absurd List.mem_cons_self (hnone staged)
      | version | id | bootId | deadlineBoottimeNs | state | previous | candidate => exact hlater

/-! ### Loading -/

namespace Document

def Readable (d : Document) : Prop := ∀ m ∈ d.members, (memberEntry m).isSome = true

def entries (d : Document) : List Entry := d.members.filterMap memberEntry

end Document

theorem foldlM_takeMember {members : List Bytes} {p q : TransactionParser} :
    members.foldlM takeMember p = some q ↔
      (∀ m ∈ members, (memberEntry m).isSome = true) ∧
        (members.filterMap memberEntry).foldlM take p = some q := by
  induction members generalizing p with
  | nil => simp
  | cons m members ih =>
    rw [List.foldlM_cons, takeMember, List.forall_mem_cons]
    cases hmember : memberEntry m with
    | none => simp
    | some e =>
      rw [List.filterMap_cons_some hmember, List.foldlM_cons, Option.bind_some]
      cases htake : take p e with
      | none => simp
      | some p' => exact ih.trans (by simp)

theorem sized_of_mem {d : Document} {e : Entry} (he : e ∈ d.entries) : e.Sized := by
  obtain ⟨m, -, hm⟩ := List.mem_filterMap.mp he
  exact (readEntry_of_member hm).1

theorem Complete.id_eq {es : List Entry} (h : Complete es) {value : ℕ} (he : .id value ∈ es) :
    (stored {} es).id = UInt64.ofNat value :=
  (congrArg Transaction.id (h.store_stored he {})).symm

theorem Complete.bootId_eq {es : List Entry} (h : Complete es) {text : Bytes}
    (he : .bootId text ∈ es) : (stored {} es).bootId = text :=
  (congrArg Transaction.bootId (h.store_stored he {})).symm

theorem Complete.staged_eq {es : List Entry} (h : Complete es) {value : ℕ}
    (he : .stagedBoottimeNs value ∈ es) :
    (stored {} es).stagedBoottimeNs = UInt64.ofNat value :=
  (congrArg Transaction.stagedBoottimeNs (h.store_stored he {})).symm

theorem Complete.deadline_eq {es : List Entry} (h : Complete es) {value : ℕ}
    (he : .deadlineBoottimeNs value ∈ es) :
    (stored {} es).deadlineBoottimeNs = UInt64.ofNat value :=
  (congrArg Transaction.deadlineBoottimeNs (h.store_stored he {})).symm

theorem Complete.valid {es : List Entry} (h : Complete es) (hsized : ∀ e ∈ es, e.Sized) :
    (validate (stored {} es).previous).valid = true ∧
      (validate (stored {} es).candidate).valid = true := by
  constructor
  · obtain ⟨e, he, hkey⟩ := h.exists_key .previous
    cases e with
    | previous config =>
      have hstored := congrArg Transaction.previous (h.store_stored he {})
      rw [← hstored]
      exact hsized _ he
    | version | id | bootId | stagedBoottimeNs | deadlineBoottimeNs | state | candidate =>
      cases hkey
  · obtain ⟨e, he, hkey⟩ := h.exists_key .candidate
    cases e with
    | candidate config =>
      have hstored := congrArg Transaction.candidate (h.store_stored he {})
      rw [← hstored]
      exact hsized _ he
    | version | id | bootId | stagedBoottimeNs | deadlineBoottimeNs | state | previous =>
      cases hkey

theorem parseTransaction_eq_some {d : Document} {t : Transaction} :
    parseTransaction d.text = some t ↔
      d.Readable ∧ Complete d.entries ∧ NeverEarly {} d.entries ∧ t = stored {} d.entries := by
  have htail : skipSpace d.tail = [] := by
    have hskip := d.tail_blank.skipSpace []
    rwa [List.append_nil] at hskip
  have hall : JournalKey.all.Nodup := by decide
  rw [parseTransaction_text, Option.bind_eq_some_iff]
  constructor
  · rintro ⟨p, hfold, hfinish⟩
    rw [foldlM_takeMember] at hfold
    obtain ⟨hreadable, hfold⟩ := hfold
    obtain ⟨hnodup, -, hrange, hnever, rfl⟩ := foldlM_take.mp hfold
    rw [TransactionParser.finish, Option.ite_none_right_eq_some] at hfinish
    obtain ⟨⟨-, hseen, -⟩, ht⟩ := hfinish
    have hkeys : (d.entries.map Entry.key).Perm JournalKey.all := by
      refine (List.perm_ext_iff_of_nodup hnodup hall).mpr fun key => ?_
      refine iff_of_true ?_ key.mem_all
      have hkey := hseen key key.mem_all
      rwa [List.append_nil, List.mem_reverse] at hkey
    cases ht
    exact ⟨hreadable, ⟨hkeys, hrange⟩, hnever, rfl⟩
  · rintro ⟨hreadable, hcomplete, hnever, rfl⟩
    have hfold := (foldlM_take (p := {})).mpr
      ⟨hcomplete.nodup, fun _ _ => List.not_mem_nil, hcomplete.inRange, hnever, rfl⟩
    refine ⟨_, foldlM_takeMember.mpr ⟨hreadable, hfold⟩, if_pos ⟨htail, fun key hkey => ?_, ?_⟩⟩
    · rw [List.append_nil, List.mem_reverse]
      exact hcomplete.keys.mem_iff.mpr hkey
    · exact hcomplete.valid fun e he => sized_of_mem he

/-- Nothing is asked of a journal but what is asked of each of its members and of their order. -/
theorem loadJournal_eq_valid {d : Document} {t : Transaction} :
    loadJournal (some d.text) = .valid t ↔ d.text.length ≤ kMaxTransactionBytes ∧
      d.Readable ∧ Complete d.entries ∧ NeverEarly {} d.entries ∧ t = stored {} d.entries := by
  rw [← parseTransaction_eq_some, loadJournal]
  by_cases hlong : kMaxTransactionBytes < d.text.length
  · have hshort : ¬ d.text.length ≤ kMaxTransactionBytes := Nat.not_le.mpr hlong
    simp [hlong, hshort]
  · have hshort : d.text.length ≤ kMaxTransactionBytes := Nat.not_lt.mp hlong
    cases hparse : parseTransaction d.text <;> simp [hlong, hshort]

/-- A journal that is there is loaded or corrupt. -/
theorem loadJournal_cases (contents : Bytes) : loadJournal (some contents) = .corrupt ∨
    ∃ t, loadJournal (some contents) = .valid t := by
  rw [loadJournal]
  split
  · exact .inl rfl
  · cases parseTransaction contents with
    | none => exact .inl rfl
    | some t => exact .inr ⟨t, rfl⟩

theorem loadJournal_congr {contents contents' : Bytes}
    (h : ∀ t, loadJournal (some contents) = .valid t ↔ loadJournal (some contents') = .valid t) :
    loadJournal (some contents) = loadJournal (some contents') := by
  obtain hcorrupt | ⟨t, ht⟩ := loadJournal_cases contents
  · obtain hcorrupt' | ⟨t, ht⟩ := loadJournal_cases contents'
    · rw [hcorrupt, hcorrupt']
    · exact ((h t).mpr ht).trans ht.symm
  · exact ht.trans ((h t).mp ht).symm

theorem length_intercalate_comma {parts : List Bytes} (hne : parts ≠ []) :
    ((ascii ",").intercalate parts).length + 1 = (parts.map fun part => part.length + 1).sum := by
  induction parts with
  | nil => exact absurd rfl hne
  | cons part parts ih =>
    cases parts with
    | nil => simp
    | cons next parts =>
      have hrest := ih (by simp)
      have hcomma : (ascii ",").length = 1 := rfl
      rw [List.intercalate_cons_cons, List.map_cons, List.sum_cons, List.length_append,
        List.length_append, hcomma, ← hrest]
      omega

namespace Document

variable {d d' : Document}

theorem length_text (d : Document) : d.text.length =
    d.lead.length + 1 + (d.members.map fun part => part.length + 1).sum + d.tail.length := by
  have hmembers := length_intercalate_comma d.members_ne
  rw [text, List.length_append, List.length_cons, List.length_append, List.length_cons, ← hmembers]
  omega

theorem Rearranged.length (h : d.Rearranged d') : d'.text.length = d.text.length := by
  have hsum := (h.members.map fun part => part.length + 1).sum_nat
  rw [length_text, length_text, h.lead, h.tail, hsum]

theorem Rearranged.entries (h : d.Rearranged d') : d'.entries.Perm d.entries :=
  h.members.filterMap memberEntry

theorem Rearranged.readable (h : d.Rearranged d') : d'.Readable ↔ d.Readable :=
  ⟨fun hread m hm => hread m (h.members.mem_iff.mpr hm),
    fun hread m hm => hread m (h.members.mem_iff.mp hm)⟩

/-- Whatever the order of the members, the same is loaded. -/
def Insensitive (d : Document) : Prop :=
  ∀ d' : Document, d.Rearranged d' → loadJournal (some d'.text) = loadJournal (some d.text)

/-- Nothing is wrong in any of the members, and the deadline is before the time of staging. -/
structure Misordered (d : Document) : Prop where
  length : d.text.length ≤ kMaxTransactionBytes
  readable : d.Readable
  complete : Complete d.entries
  early : ∃ staged deadline, .stagedBoottimeNs staged ∈ d.entries ∧
    .deadlineBoottimeNs deadline ∈ d.entries ∧ deadline < staged

/-- The members in another order. -/
def rearrange (d : Document) (members : List Bytes) (h : members.Perm d.members) : Document where
  lead := d.lead
  members := members
  tail := d.tail
  lead_blank := d.lead_blank
  members_ne hnil := d.members_ne (List.perm_nil.mp (hnil ▸ h.symm))
  closed m hm := d.closed m (h.mem_iff.mp hm)
  tail_blank := d.tail_blank

theorem rearranged_rearrange (d : Document) {members : List Bytes} (h : members.Perm d.members) :
    d.Rearranged (d.rearrange members h) := ⟨rfl, h, rfl⟩

end Document

/-- A transaction that has been loaded is one that could have been staged. -/
def Sound (contents : Bytes) : Prop :=
  ∀ t, loadJournal (some contents) = .valid t → t.stagedBoottimeNs ≤ t.deadlineBoottimeNs ∧
    1 ≤ t.id ∧ t.bootId ≠ [] ∧ (validate t.previous).valid = true ∧
    (validate t.candidate).valid = true

theorem Complete.exists_staged {es : List Entry} (h : Complete es) :
    ∃ staged, .stagedBoottimeNs staged ∈ es := by
  obtain ⟨e, he, hkey⟩ := h.exists_key .stagedBoottimeNs
  cases e with
  | stagedBoottimeNs staged => exact ⟨staged, he⟩
  | version | id | bootId | deadlineBoottimeNs | state | previous | candidate => cases hkey

theorem Complete.exists_deadline {es : List Entry} (h : Complete es) :
    ∃ deadline, .deadlineBoottimeNs deadline ∈ es := by
  obtain ⟨e, he, hkey⟩ := h.exists_key .deadlineBoottimeNs
  cases e with
  | deadlineBoottimeNs deadline => exact ⟨deadline, he⟩
  | version | id | bootId | stagedBoottimeNs | state | previous | candidate => cases hkey

theorem Complete.id_bootId {es : List Entry} (h : Complete es) (hsized : ∀ e ∈ es, e.Sized) :
    1 ≤ (stored {} es).id ∧ (stored {} es).bootId ≠ [] := by
  constructor
  · obtain ⟨e, he, hkey⟩ := h.exists_key .id
    cases e with
    | id value =>
      have hvalue : value ≠ 0 := h.inRange _ he
      have hlt : value < 18446744073709551616 := hsized _ he
      rw [h.id_eq he, UInt64.le_iff_toNat_le, UInt64.toNat_ofNat', Nat.mod_eq_of_lt hlt]
      exact Nat.one_le_iff_ne_zero.mpr hvalue
    | version | bootId | stagedBoottimeNs | deadlineBoottimeNs | state | previous | candidate =>
      cases hkey
  · obtain ⟨e, he, hkey⟩ := h.exists_key .bootId
    cases e with
    | bootId text =>
      rw [h.bootId_eq he]
      exact h.inRange _ he
    | version | id | stagedBoottimeNs | deadlineBoottimeNs | state | previous | candidate =>
      cases hkey

theorem ofNat_lt {first second : ℕ} (hfirst : first < 18446744073709551616)
    (hsecond : second < 18446744073709551616) :
    UInt64.ofNat first < UInt64.ofNat second ↔ first < second :=
  UInt64.ofNat_lt_iff_lt hfirst hsecond

/-- The time of staging is known once. -/
theorem Complete.eq_staged {es : List Entry} (h : Complete es) {first second : ℕ}
    (hfirst : .stagedBoottimeNs first ∈ es) (hsecond : .stagedBoottimeNs second ∈ es) :
    first = second :=
  Entry.stagedBoottimeNs.inj (List.inj_on_of_nodup_map h.nodup hfirst hsecond rfl)

namespace Document

variable {d : Document}

/-- If the deadline is not before the time of staging, no order of the members brings it up. -/
theorem neverEarly (hd : ∀ staged deadline, .stagedBoottimeNs staged ∈ d.entries →
    .deadlineBoottimeNs deadline ∈ d.entries → staged ≤ deadline) : NeverEarly {} d.entries := by
  refine neverEarly_of_le (fun deadline _ => ?_) fun staged deadline hstaged hdeadline => ?_
  · exact UInt64.not_lt.mpr (UInt64.zero_le)
  · rw [ofNat_lt (sized_of_mem hdeadline) (sized_of_mem hstaged)]
    exact Nat.not_lt.mpr (hd staged deadline hstaged hdeadline)

/-- With the time of staging first, a deadline before it is noticed; with it last, it is not. -/
theorem Misordered.two_orders (h : d.Misordered) : ∃ first last : Document,
    d.Rearranged first ∧ d.Rearranged last ∧ loadJournal (some first.text) = .corrupt ∧
      loadJournal (some last.text) = .valid (stored {} d.entries) := by
  obtain ⟨staged, deadline, hstaged, hdeadline, hlt⟩ := h.early
  have hearly := (ofNat_lt (sized_of_mem hdeadline) (sized_of_mem hstaged)).mpr hlt
  obtain ⟨m, hm, hentry⟩ := List.mem_filterMap.mp hstaged
  have hperm := List.perm_cons_erase hm
  have hlastPerm := (List.perm_append_singleton m (d.members.erase m)).trans hperm.symm
  let rest := (d.members.erase m).filterMap memberEntry
  have hfirst := d.rearranged_rearrange hperm.symm
  have hlast := d.rearranged_rearrange hlastPerm
  have hfirstEntries : (d.rearrange _ hperm.symm).entries = .stagedBoottimeNs staged :: rest :=
    List.filterMap_cons_some hentry
  have hlastEntries : (d.rearrange _ hlastPerm).entries = rest ++ [.stagedBoottimeNs staged] := by
    rw [entries, rearrange, List.filterMap_append]
    simp only [List.filterMap_cons_some hentry, List.filterMap_nil]
    rfl
  have hcomplete := h.complete.perm hfirst.entries
  have hnone : ∀ other, .stagedBoottimeNs other ∉ rest := by
    intro other hother
    have hnodup := hcomplete.nodup
    rw [hfirstEntries, List.map_cons, List.nodup_cons] at hnodup
    exact hnodup.1 (List.mem_map.mpr ⟨_, hother, rfl⟩)
  have hlater : .deadlineBoottimeNs deadline ∈ rest := by
    have hmem := hfirst.entries.mem_iff.mpr hdeadline
    rw [hfirstEntries] at hmem
    obtain heq | hmem := List.mem_cons.mp hmem
    · cases heq
    · exact hmem
  refine ⟨_, _, hfirst, hlast, ?_, ?_⟩
  · refine (loadJournal_cases _).resolve_right ?_
    rintro ⟨t, ht⟩
    obtain ⟨-, -, -, hnever, -⟩ := loadJournal_eq_valid.mp ht
    rw [hfirstEntries] at hnever
    exact hnever.2.not_lt hnone hlater hearly
  · refine loadJournal_eq_valid.mpr ⟨hlast.length ▸ h.length, hlast.readable.mpr h.readable,
      h.complete.perm hlast.entries, ?_, (h.complete.stored_perm hlast.entries {}).symm⟩
    rw [hlastEntries, neverEarly_append]
    refine ⟨neverEarly_of_le (fun _ _ => UInt64.not_lt.mpr UInt64.zero_le) ?_, id, trivial⟩
    intro other deadline' hother
    exact absurd hother (hnone other)

/-- Otherwise the order does not come into it. -/
theorem loads_iff {d' : Document} (hd : ¬ d.Misordered) (h : d.Rearranged d') {t : Transaction} :
    loadJournal (some d'.text) = .valid t ↔ d.text.length ≤ kMaxTransactionBytes ∧
      d.Readable ∧ Complete d.entries ∧ t = stored {} d.entries := by
  rw [loadJournal_eq_valid, h.length, h.readable]
  constructor
  · rintro ⟨hlength, hreadable, hcomplete, -, rfl⟩
    have hcomplete' := hcomplete.perm h.entries.symm
    exact ⟨hlength, hreadable, hcomplete', hcomplete'.stored_perm h.entries {}⟩
  · rintro ⟨hlength, hreadable, hcomplete, rfl⟩
    refine ⟨hlength, hreadable, hcomplete.perm h.entries, neverEarly ?_,
      (hcomplete.stored_perm h.entries {}).symm⟩
    intro staged deadline hstaged hdeadline
    by_contra hlt
    exact hd ⟨hlength, hreadable, hcomplete, staged, deadline, h.entries.mem_iff.mp hstaged,
      h.entries.mem_iff.mp hdeadline, Nat.not_le.mp hlt⟩

theorem Rearranged.refl (d : Document) : d.Rearranged d := ⟨rfl, .refl _, rfl⟩

theorem sound_of_not_misordered (hd : ¬ d.Misordered) : Sound d.text := by
  intro t ht
  obtain ⟨hlength, hreadable, hcomplete, rfl⟩ := (loads_iff hd (.refl d)).mp ht
  obtain ⟨staged, hstaged⟩ := hcomplete.exists_staged
  obtain ⟨deadline, hdeadline⟩ := hcomplete.exists_deadline
  have hsized : ∀ e ∈ d.entries, e.Sized := fun e he => sized_of_mem he
  obtain ⟨hid, hbootId⟩ := hcomplete.id_bootId hsized
  refine ⟨?_, hid, hbootId, hcomplete.valid hsized⟩
  rw [hcomplete.staged_eq hstaged, hcomplete.deadline_eq hdeadline, ← UInt64.not_lt,
    ofNat_lt (hsized _ hdeadline) (hsized _ hstaged)]
  intro hlt
  exact hd ⟨hlength, hreadable, hcomplete, staged, deadline, hstaged, hdeadline, hlt⟩

end Document

/-- What is loaded is a transaction that could have been staged, and the order of the members makes
no difference, unless the only thing wrong is a deadline before the time of staging. -/
theorem journal_document_iff (contents : Bytes) (d : Document) :
    (∀ t, loadJournal (some contents) = .valid t → ∃ d' : Document, d'.text = contents) ∧
      ((Sound d.text ∧ d.Insensitive) ↔ ¬ d.Misordered) := by
  constructor
  · intro t h
    rw [loadJournal] at h
    split at h
    · cases h
    · cases hparse : parseTransaction contents with
      | none =>
        rw [hparse] at h
        cases h
      | some t' => exact document_of_parseTransaction hparse
  · constructor
    · rintro ⟨-, hsame⟩ hmisordered
      obtain ⟨first, last, hfirst, hlast, hcorrupt, hvalid⟩ := hmisordered.two_orders
      have heq := (hsame first hfirst).trans (hsame last hlast).symm
      rw [hcorrupt, hvalid] at heq
      cases heq
    · intro hd
      refine ⟨Document.sound_of_not_misordered hd, fun d' h => loadJournal_congr fun t => ?_⟩
      exact (Document.loads_iff hd h).trans (Document.loads_iff hd (.refl d)).symm

/-! ### A deadline that comes first -/

theorem memberEntry_written {t : Transaction} (h : t.Persistable) (key : JournalKey) :
    Closed (key.member t) ∧ ∃ e, memberEntry (key.member t) = some e ∧ e.key = key ∧ e.InRange ∧
      e.store t = t := by
  let fresh : TransactionParser := { transaction := t }
  have hread := TransactionParser.parseMember_written (p := fresh) h key.mem_all
    List.not_mem_nil (fun _ => rfl) (separated_comma []).noDigit
  rw [parseMember_eq] at hread
  obtain ⟨⟨e, rest⟩, hentry, hr⟩ := Option.bind_eq_some_iff.mp hread
  obtain ⟨taken, htaken, hr⟩ := Option.map_eq_some_iff.mp hr
  simp only [Prod.mk.injEq, (separated_comma []).skipSpace] at hr
  obtain ⟨rfl, rfl⟩ := hr
  rw [take, Option.ite_none_left_eq_some, not_or, not_or, not_not, Option.some.injEq] at htaken
  obtain ⟨⟨-, hrange, -⟩, htaken⟩ := htaken
  simp only [TransactionParser.taken, TransactionParser.mk.injEq, List.cons.injEq] at htaken
  obtain ⟨⟨hkey, -⟩, hstored⟩ := htaken
  have hcopy : key.copy t t = t := by cases key <;> rfl
  obtain ⟨-, used, heq, hclosed, -⟩ := readEntry_reads hentry
  rw [List.append_cancel_right_eq] at heq
  refine ⟨heq ▸ hclosed, e, ?_, hkey, hrange, hstored.trans hcopy⟩
  rw [memberEntry]
  rw [List.append_nil] at hentry
  rw [hentry, Option.bind_some]
  exact if_pos rfl

/-- The keys of a journal but the deadline. -/
def otherKeys : List JournalKey :=
  [.version, .id, .bootId, .stagedBoottimeNs, .state, .previous, .candidate]

theorem entries_written {t : Transaction} (h : t.Persistable) (keys : List JournalKey) :
    (∀ m ∈ keys.map (JournalKey.member t), Closed m ∧ (memberEntry m).isSome = true) ∧
      (((keys.map (JournalKey.member t)).filterMap memberEntry).map Entry.key = keys ∧
        ∀ e ∈ (keys.map (JournalKey.member t)).filterMap memberEntry,
          e.InRange ∧ e.store t = t) := by
  induction keys with
  | nil => simp
  | cons key keys ih =>
    obtain ⟨hclosed, e, hentry, hkey, hrange, hstore⟩ := memberEntry_written h key
    obtain ⟨hmembers, hkeys, hentries⟩ := ih
    rw [List.map_cons, List.filterMap_cons_some hentry, List.map_cons, hkey, hkeys]
    have hhead : Closed (key.member t) ∧ (memberEntry (key.member t)).isSome = true :=
      ⟨hclosed, by rw [hentry, Option.isSome_some]⟩
    exact ⟨List.forall_mem_cons.mpr ⟨hhead, hmembers⟩, rfl,
      List.forall_mem_cons.mpr ⟨⟨hrange, hstore⟩, hentries⟩⟩

/-- A transaction of the built-in configuration. -/
def plainTransaction (staged deadline : UInt64) : Transaction where
  id := 1
  bootId := ascii "6d1f"
  stagedBoottimeNs := staged
  deadlineBoottimeNs := deadline

theorem plainTransaction_persistable {staged deadline : UInt64} (h : staged ≤ deadline) :
    (plainTransaction staged deadline).Persistable := by
  have hlegible : ({} : NetworkConfig).Legible := by
    intro port
    cases port <;> exact ⟨by decide, by decide, by decide, by decide⟩
  have hbootId : ascii "6d1f" ≠ [] ∧ (ascii "6d1f").length ≤ 256 ∧
      Config.Printable (ascii "6d1f") := by
    decide
  exact
    { id := UInt64.le_refl 1
      bootId := hbootId
      deadline := h
      previous := ⟨.builtIn, hlegible⟩
      candidate := ⟨.builtIn, hlegible⟩ }

theorem nineNine : (plainTransaction 9 9).Persistable := plainTransaction_persistable (by decide)

theorem zeroFive : (plainTransaction 0 5).Persistable := plainTransaction_persistable (by decide)

/-- The deadline is 5 and comes first; the time of staging is 9. -/
def deadlineFirst : Document where
  lead := []
  members := JournalKey.deadlineBoottimeNs.member (plainTransaction 0 5) ::
    otherKeys.map (JournalKey.member (plainTransaction 9 9))
  tail := ascii "\n"
  lead_blank _ hc := absurd hc List.not_mem_nil
  members_ne := by simp
  closed := List.forall_mem_cons.mpr ⟨(memberEntry_written zeroFive _).1,
    fun m hm => ((entries_written nineNine otherKeys).1 m hm).1⟩
  tail_blank := List.forall_mem_singleton.mpr rfl

theorem length_deadlineFirst : deadlineFirst.text.length ≤ kMaxTransactionBytes := by
  have hwhole := length_transactionJson_le nineNine
  have hparts : JournalKey.all.map (JournalKey.member (plainTransaction 9 9)) ≠ [] := by
    simp [JournalKey.all]
  have hall := length_intercalate_comma hparts
  have hdigit : (decimal ((plainTransaction 0 5).deadlineBoottimeNs.toNat : Int)).length ≤ 1 :=
    length_decimal_le Nat.one_pos (by decide)
  have hdigit' := List.length_pos_of_ne_nil
    (decimal_ne_nil (plainTransaction 9 9).deadlineBoottimeNs.toNat)
  have hfive : (JournalKey.deadlineBoottimeNs.member (plainTransaction 0 5)).length ≤
      (JournalKey.deadlineBoottimeNs.member (plainTransaction 9 9)).length := by
    rw [JournalKey.member, JournalKey.member, List.length_append, List.length_append]
    exact Nat.add_le_add_left (Nat.le_trans hdigit hdigit') _
  have hperm : JournalKey.all.Perm (.deadlineBoottimeNs :: otherKeys) := by decide
  have hkeys := ((hperm.map (JournalKey.member (plainTransaction 9 9))).map
    fun part => part.length + 1).sum_nat
  rw [List.map_cons, List.map_cons, List.sum_cons] at hkeys
  have hsum : (deadlineFirst.members.map fun part => part.length + 1).sum ≤
      ((JournalKey.all.map (JournalKey.member (plainTransaction 9 9))).map
        fun part => part.length + 1).sum := by
    rw [deadlineFirst, List.map_cons, List.sum_cons, hkeys, Nat.add_le_add_iff_right,
      Nat.add_le_add_iff_right]
    exact hfive
  have hend : (ascii "\x7d\n").length = 2 := rfl
  have hsides : deadlineFirst.lead.length + 1 + deadlineFirst.tail.length = 2 := rfl
  rw [transactionJson_eq, List.length_cons, List.length_append, hend] at hwhole
  rw [Document.length_text]
  refine Nat.le_trans ?_ hwhole
  omega

theorem deadlineFirst_entries : deadlineFirst.Readable ∧ Complete deadlineFirst.entries ∧
    ∃ deadline es, deadlineFirst.entries = .deadlineBoottimeNs deadline :: es ∧
      UInt64.ofNat deadline = 5 ∧
      ∀ staged, .stagedBoottimeNs staged ∈ es → UInt64.ofNat staged = 9 := by
  obtain ⟨-, e, hentry, hkey, hrange, hstore⟩ := memberEntry_written zeroFive .deadlineBoottimeNs
  obtain ⟨hmembers, hkeys, hentries⟩ := entries_written nineNine otherKeys
  have hcons : deadlineFirst.entries =
      e :: (otherKeys.map (JournalKey.member (plainTransaction 9 9))).filterMap memberEntry := by
    rw [Document.entries, deadlineFirst, List.filterMap_cons_some hentry]
  have hcomplete : Complete deadlineFirst.entries := by
    constructor
    · rw [hcons, List.map_cons, hkey, hkeys]
      decide
    · rw [hcons]
      exact List.forall_mem_cons.mpr ⟨hrange, fun e' he' => (hentries e' he').1⟩
  refine ⟨?_, hcomplete, ?_⟩
  · rw [Document.Readable, deadlineFirst, List.forall_mem_cons, hentry, Option.isSome_some]
    exact ⟨rfl, fun m hm => (hmembers m hm).2⟩
  · cases e with
    | deadlineBoottimeNs deadline =>
      have hfive : UInt64.ofNat deadline = (plainTransaction 0 5).deadlineBoottimeNs :=
        congrArg Transaction.deadlineBoottimeNs hstore
      refine ⟨deadline, _, hcons, hfive, fun staged hstaged => ?_⟩
      have hnine : UInt64.ofNat staged = (plainTransaction 9 9).stagedBoottimeNs :=
        congrArg Transaction.stagedBoottimeNs (hentries _ hstaged).2
      exact hnine
    | version | id | bootId | stagedBoottimeNs | state | previous | candidate => cases hkey

/-- No time of staging is known when a deadline is read first. -/
theorem Document.loads_deadline_first {d : Document} {deadline : ℕ} {es : List Entry}
    (hlength : d.text.length ≤ kMaxTransactionBytes) (hreadable : d.Readable)
    (hcomplete : Complete d.entries) (hentries : d.entries = .deadlineBoottimeNs deadline :: es) :
    loadJournal (some d.text) = .valid (stored {} d.entries) := by
  have hnone : ∀ other, .deadlineBoottimeNs other ∉ es := by
    intro other hother
    have hnodup := hcomplete.nodup
    rw [hentries, List.map_cons, List.nodup_cons] at hnodup
    exact hnodup.1 (List.mem_map.mpr ⟨_, hother, rfl⟩)
  refine loadJournal_eq_valid.mpr ⟨hlength, hreadable, hcomplete, ?_, rfl⟩
  rw [hentries]
  refine ⟨UInt64.not_lt.mpr UInt64.zero_le, neverEarly_of_le ?_ ?_⟩
  · intro other hother
    exact absurd hother (hnone other)
  · intro _ other _ hother
    exact absurd hother (hnone other)

/-- The deadline is before the time of staging, and nobody notices until they change places. -/
theorem deadlineFirst_accepted : ¬ Sound deadlineFirst.text ∧ ¬ deadlineFirst.Insensitive := by
  obtain ⟨hreadable, hcomplete, deadline, es, hentries, hdeadline, hes⟩ :=
    deadlineFirst_entries
  obtain ⟨staged, hstaged⟩ := hcomplete.exists_staged
  have hdeadlineMem : .deadlineBoottimeNs deadline ∈ deadlineFirst.entries := by
    rw [hentries]
    exact List.mem_cons_self
  have hnine : UInt64.ofNat staged = 9 := by
    rw [hentries] at hstaged
    obtain heq | hstaged := List.mem_cons.mp hstaged
    · cases heq
    · exact hes staged hstaged
  have hlt : UInt64.ofNat deadline < UInt64.ofNat staged := by
    rw [hdeadline, hnine]
    decide
  constructor
  · intro hsound
    have hloaded := Document.loads_deadline_first length_deadlineFirst hreadable hcomplete hentries
    have hle := (hsound _ hloaded).1
    rw [hcomplete.staged_eq hstaged, hcomplete.deadline_eq hdeadlineMem] at hle
    exact UInt64.not_lt.mpr hle hlt
  · have hmisordered : deadlineFirst.Misordered :=
      ⟨length_deadlineFirst, hreadable, hcomplete, staged, deadline, hstaged, hdeadlineMem,
        (ofNat_lt (sized_of_mem hdeadlineMem) (sized_of_mem hstaged)).mp hlt⟩
    obtain ⟨first, last, hfirst, hlast, hcorrupt, hvalid⟩ := hmisordered.two_orders
    intro hsame
    have heq := (hsame first hfirst).trans (hsame last hlast).symm
    rw [hcorrupt, hvalid] at heq
    cases heq

end Journal

end Uhf.Network
