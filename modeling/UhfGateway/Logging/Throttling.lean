/-
What becomes of suppressed events.

The number of events that a record has suppressed travels into a field of the next entry for it,
and can get lost on the way: with a field that finds no room, or with a record that has to go.

* `entryFor_count` — the number that an entry carries;
* `Step.conserved`, `Step.latest` — what a call leaves of the account and of the windows;
* `suppressed_accounted` — the runs in which nothing gets lost;
* `count_dropped` — a run in which the field is dropped.
-/
import UhfGateway.Effects.History
import UhfGateway.Logging.Logger

namespace Uhf.Logging

open Acquisition Containers

/-! ### What an entry says -/

/-- The number of suppressed events that the fields of an entry give. -/
def Entry.suppressedCount (e : Entry) : ℕ :=
  ((e.fields.filter fun field => field.key = ascii "suppressed_count").map
    fun field => digitsValue field.value).sum

/-- There is room in the entry of a call for the number of suppressed events. -/
def Fits (event : Event) (level : Level) (eventCode : Bytes) (suppressed : UInt64) : Prop :=
  (normalizeFields event.fields []).length < kMaxFieldCount ∧
    (draft level event.component eventCode event.message (event.fields ++ [countField suppressed])
      event.utcNow).bytes ≤ kMaxEntryBytes

theorem cleanText_digits {text : Bytes} {limit : ℕ} (hlength : text.length ≤ limit)
    (hdigits : text.all isDigit = true) : cleanText text limit = text := by
  rw [cleanText, List.take_of_length_le hlength]
  refine (List.map_congr_left fun c hc => ?_).trans (List.map_id text)
  have hdigit := List.all_eq_true.mp hdigits c hc
  rw [isDigit, Bool.and_eq_true, decide_eq_true_eq, decide_eq_true_eq, UInt8.le_iff_toNat_le,
    UInt8.le_iff_toNat_le] at hdigit
  have hlow : 48 ≤ c.toNat := hdigit.1
  have hhigh : c.toNat ≤ 57 := hdigit.2
  have hplain : ¬ (c < 0x20 ∨ c = 0x7F) := by
    rw [UInt8.lt_iff_toNat_lt, ← UInt8.toNat_inj]
    simp only [UInt8.reduceToNat]
    omega
  exact if_neg hplain

/-- The number passes the cleaning as it is. -/
theorem countField_clean (suppressed : UInt64) : (countField suppressed).clean =
    countField suppressed := by
  have hlt := suppressed.toNat_lt
  have hlength : (decimal (suppressed.toNat : Int)).length ≤ 20 :=
    length_decimal_le (by omega) (by omega)
  have hvalue : cleanText (decimal suppressed.toNat) kMaxFieldValueBytes =
      decimal suppressed.toNat :=
    cleanText_digits (hlength.trans (by decide)) (all_isDigit_decimal _)
  have hkey : safeKey (ascii "suppressed_count") = ascii "suppressed_count" := rfl
  rw [Field.clean, countField, hvalue, hkey]

theorem normalizeFields_append (first second kept : List Field) :
    normalizeFields (first ++ second) kept =
      normalizeFields second (normalizeFields first kept) := by
  induction first generalizing kept with
  | nil => rfl
  | cons field first ih =>
    rw [List.cons_append, normalizeFields, normalizeFields]
    split
    · exact ih kept
    split
    · exact ih kept
    · exact ih _

theorem normalizeFields_count {fields : List Field} {suppressed : UInt64}
    (hroom : (normalizeFields fields []).length < kMaxFieldCount) :
    normalizeFields (fields ++ [countField suppressed]) [] =
      normalizeFields fields [] ++ [countField suppressed] := by
  have hplain : ¬ (kMaxFieldCount ≤ (normalizeFields fields []).length ∨
      sensitiveKey (countField suppressed).key = true) := by
    rintro (hfull | hsensitive)
    · omega
    · exact absurd hsensitive (Bool.eq_false_iff.mp rfl)
  have hkey : cleanText (countField suppressed).key kMaxFieldKeyBytes ≠ [] :=
    List.cons_ne_nil _ _
  rw [normalizeFields_append, normalizeFields, if_neg hplain, if_neg hkey, countField_clean]
  rfl

/-- The caller gives no number of its own. -/
def Own (fields : List Field) : Prop :=
  ∀ field ∈ fields, safeKey field.key ≠ ascii "suppressed_count"

theorem count_own {fields kept : List Field} (hown : Own fields)
    (hkept : kept.Sublist ((fields.filter fun field => !sensitiveKey field.key).map Field.clean)) :
    kept.filter (fun field => field.key = ascii "suppressed_count") = [] := by
  rw [List.filter_eq_nil_iff]
  intro field hfield hkey
  obtain ⟨original, horiginal, rfl⟩ := List.mem_map.mp (hkept.subset hfield)
  exact hown original (List.mem_filter.mp horiginal).1 (of_decide_eq_true hkey)

/-- An entry carries the number of suppressed events if there is room for it. -/
theorem entryFor_count {call : Call} {level : Level} {eventCode : Bytes} {suppressed : UInt64}
    (hown : Own call.event.fields)
    (hfits : 0 < suppressed → Fits call.event level eventCode suppressed) :
    (Logger.entryFor call level eventCode suppressed).suppressedCount = suppressed.toNat := by
  obtain ⟨kept, hkept, hsub, -⟩ := normalizeFields_spec call.event.fields []
  rw [List.nil_append] at hkept
  by_cases hsome : 0 < suppressed
  · obtain ⟨hroom, hshort⟩ := hfits hsome
    obtain ⟨fields, heq, -, -, hwhole⟩ := popFields_spec
      (normalizeFields (call.event.fields ++ [countField suppressed]) []).length
      (draft level call.event.component eventCode call.event.message
        (call.event.fields ++ [countField suppressed]) call.event.utcNow)
    have hfields : fields = kept ++ [countField suppressed] := by
      rw [hwhole hshort, draft, normalizeFields_count hroom, hkept]
    have hvalue : digitsValue (countField suppressed).value = suppressed.toNat :=
      digitsValue_decimal suppressed.toNat
    have hcount : [countField suppressed].filter
        (fun field => field.key = ascii "suppressed_count") = [countField suppressed] :=
      List.filter_eq_self.mpr fun field hfield =>
        decide_eq_true (List.mem_singleton.mp hfield ▸ rfl)
    rw [Logger.entryFor, effectiveFields, if_pos hsome, entryOf, heq, Entry.suppressedCount,
      hfields, List.filter_append, count_own hown hsub, List.nil_append, hcount,
      List.map_singleton, List.sum_singleton, hvalue]
  · have hzero : suppressed = 0 := by
      rw [← UInt64.toNat_inj]
      rw [UInt64.lt_iff_toNat_lt] at hsome
      exact Nat.eq_zero_of_not_pos hsome
    obtain ⟨-, hfields⟩ := @entryOf_fields level call.event.component eventCode
      call.event.message call.event.fields call.event.utcNow
    rw [Logger.entryFor, effectiveFields, if_neg hsome, Entry.suppressedCount,
      count_own hown hfields, hzero]
    rfl

/-! ### Accounts -/

def Call.key (call : Call) : Bytes := throttleKey call.event.component call.event.eventCode

/-- The entry of a recovery from the event of another entry. -/
def Emission.Recovers (m first : Emission) : Prop :=
  ∃ event, m.call = .recovered event ∧ m.call.key = first.call.key

def Emission.Severe (m : Emission) : Prop := Level.warning.rank ≤ m.entry.level.rank

/-- The number of events suppressed so far that some entry gives. -/
def Logger.reported (l : Logger) : ℕ := (l.emitted.map fun m => m.entry.suppressedCount).sum

/-- The number of events suppressed so far that some record still has. -/
def Logger.pending (l : Logger) : ℕ := l.throttle.total fun state => state.suppressed.toNat

/-- No suppressed event is lost, and severe entries for one event keep apart unless there has been
a recovery between them. -/
structure Accounted (l : Logger) : Prop where
  conserved : l.suppressedCount = UInt64.ofNat (l.reported + l.pending)
  apart : ∀ before first mid second after,
    l.emitted = before ++ first :: (mid ++ second :: after) → first.Severe → second.Severe →
    first.entry.component = second.entry.component →
    first.entry.eventCode = second.entry.eventCode → (∀ m ∈ mid, ¬ m.Recovers first) →
    first.call.event.monotonicNow + l.options.window ≤ second.call.event.monotonicNow

/-- A call by which nothing gets lost. -/
structure Accountable (calls : List Call) (l : Logger) (order : List Bytes) (call : Call) :
    Prop where
  /-- The clock does not go back. -/
  clock : ∀ earlier ∈ calls, earlier.event.monotonicNow ≤ call.event.monotonicNow
  named : call.event.eventCode ≠ []
  own : Own call.event.fields
  /-- There may be a record for a new event, and the one that makes room for it has nothing to
  report and throttles no more. -/
  room : l.throttle.lookup call.key = none → 0 < l.options.maxThrottleRecords ∧
    (l.options.maxThrottleRecords ≤ l.throttle.size → ∀ key state, l.oldest order = some key →
      l.throttle.lookup key = some state → state.suppressed = 0 ∧
        state.lastEmitted + l.options.window ≤ call.event.monotonicNow)
  /-- The number of suppressed events fits in the entry that gives it. -/
  fits : ∀ state, l.throttle.lookup call.key = some state → 0 < state.suppressed →
    match call with
    | .log level event =>
      event.monotonicNow < state.lastEmitted + l.options.window ∨
        Fits event level event.eventCode state.suppressed
    | .recovered event => Fits event .info (event.eventCode ++ ascii ".recovered") state.suppressed

/-! ### The numbers -/

namespace Logger

variable {calls : List Call} {l : Logger} {order : List Bytes} {call : Call}
  {throttle : Table Bytes ThrottleState} {level : Level} {eventCode : Bytes} {suppressed : UInt64}

/-- The records pass on what the entry reports. -/
theorem Reports.pending_eq (h : l.Reports order call throttle level eventCode suppressed)
    (horder : order.Perm l.throttle.keys) (hcall : Accountable calls l order call) :
    l.pending = suppressed.toNat + throttle.total (fun state => state.suppressed.toNat) := by
  cases h with
  | plain => exact (Nat.zero_add _).symm
  | again _ hstate _ =>
    rw [pending, Table.total_eq_of_lookup hstate, Table.total_insert]
    exact congrArg _ (Nat.zero_add _).symm
  | unrecorded => exact (Nat.zero_add _).symm
  | @first level event _ hnone _ =>
    obtain ⟨-, hvictim⟩ := hcall.room hnone
    have hfresh : ∀ {records : Table Bytes ThrottleState},
        records.lookup (throttleKey event.component event.eventCode) = none →
        Table.total (fun state => state.suppressed.toNat)
          (records.insert (throttleKey event.component event.eventCode)
            ⟨event.monotonicNow, event.monotonicNow, 0⟩) =
        records.total fun state => state.suppressed.toNat := by
      intro records hlookup
      rw [Table.total_insert, Table.total_erase_of_lookup_none hlookup]
      exact Nat.zero_add _
    refine (Nat.zero_add _).symm ▸ ?_
    obtain ⟨-, heq⟩ | ⟨-, heq⟩ | ⟨key, hfull, holdest, hmem, heq⟩ := makeRoom_cases horder
    · rw [heq]
      exact (hfresh hnone).symm
    · rw [heq]
      exact (hfresh hnone).symm
    · obtain ⟨state, hstate⟩ := Table.mem_iff_lookup.mp hmem
      obtain ⟨hzero, -⟩ := hvictim hfull key state holdest hstate
      have hother : (l.throttle.erase key).lookup
          (throttleKey event.component event.eventCode) = none := by
        by_cases hkey : throttleKey event.component event.eventCode = key
        · rw [hkey]
          exact AList.lookup_erase ..
        · rw [AList.lookup_erase_ne hkey]
          exact hnone
      rw [heq]
      refine Eq.trans ?_ (hfresh hother).symm
      rw [pending, Table.total_eq_of_lookup hstate, hzero]
      exact Nat.zero_add _
  | recovered hstate => exact Table.total_eq_of_lookup hstate

/-- What the entry reports fits in it. -/
theorem Reports.fits (h : l.Reports order call throttle level eventCode suppressed)
    (hcall : Accountable calls l order call) (hsome : 0 < suppressed) :
    Fits call.event level eventCode suppressed := by
  cases h with
  | plain => exact absurd hsome (UInt64.lt_irrefl _)
  | again _ hstate hlate =>
    obtain hearly | hfits := hcall.fits _ hstate hsome
    · exact absurd hearly (not_lt.mpr hlate)
    · exact hfits
  | unrecorded => exact absurd hsome (UInt64.lt_irrefl _)
  | first => exact absurd hsome (UInt64.lt_irrefl _)
  | recovered hstate => exact hcall.fits _ hstate hsome

/-- Suppressed events move from the records to the entries. -/
theorem Step.conserved {l' : Logger} (h : l.Step order call l')
    (horder : order.Perm l.throttle.keys) (hcall : Accountable calls l order call)
    (hconserved : l.suppressedCount = UInt64.ofNat (l.reported + l.pending)) :
    l'.suppressedCount = UInt64.ofNat (l'.reported + l'.pending) := by
  cases h with
  | ignored => exact hconserved
  | @suppressed level event state _ _ hstate _ =>
    -- one more in the record, which may wrap as the counter does
    have hpending : l.pending = state.suppressed.toNat +
        Table.total (fun state => state.suppressed.toNat)
          (l.throttle.erase (throttleKey event.component event.eventCode)) :=
      Table.total_eq_of_lookup hstate
    show l.suppressedCount + 1 = UInt64.ofNat (l.reported + Table.total _ (l.throttle.insert _ _))
    rw [Table.total_insert, hconserved, hpending]
    simp only [UInt64.ofNat_add, UInt64.ofNat_toNat]
    ac_rfl
  | @emitted throttle level eventCode suppressed hreports =>
    obtain ⟨-, hthrottle, hcount, -, hemitted⟩ := emit_options { l with throttle := throttle } call
      (entryFor call level eventCode suppressed)
    have hentry : (Logger.entryFor call level eventCode suppressed).suppressedCount =
        suppressed.toNat := entryFor_count hcall.own (hreports.fits hcall)
    rw [hcount, reported, pending, hthrottle, hemitted, List.map_append, List.sum_append,
      List.map_singleton, List.sum_singleton]
    show l.suppressedCount = UInt64.ofNat (l.reported +
      (entryFor call level eventCode suppressed).suppressedCount + throttle.total _)
    rw [hentry, hconserved, hreports.pending_eq horder hcall, Nat.add_assoc]

end Logger

/-! ### The windows -/

/-- Either a record throttles the event of an entry, or the clock has left its window. -/
def Covered (window : Nanoseconds) (calls : List Call) (throttle : Table Bytes ThrottleState)
    (m : Emission) : Prop :=
  (∃ state, throttle.lookup m.call.key = some state ∧
      m.call.event.monotonicNow ≤ state.lastEmitted) ∨
    (throttle.lookup m.call.key = none ∧
      ∃ call ∈ calls, m.call.event.monotonicNow + window ≤ call.event.monotonicNow)

/-- What is known of the entries and the records after some calls. -/
structure Windowed (calls : List Call) (l : Logger) : Prop where
  made : ∀ m ∈ l.emitted, m.call ∈ calls
  keyed : ∀ m ∈ l.emitted, m.Severe →
    m.call.key = m.entry.component.name ++ ascii ":" ++ m.entry.eventCode
  covered : 0 < l.options.throttleWindow → ∀ before m after, l.emitted = before ++ m :: after →
    m.Severe → (∀ m' ∈ after, ¬ m'.Recovers m) →
    Covered l.options.window calls l.throttle m
  apart : ∀ before first mid second after,
    l.emitted = before ++ first :: (mid ++ second :: after) → first.Severe → second.Severe →
    first.entry.component = second.entry.component →
    first.entry.eventCode = second.entry.eventCode → (∀ m ∈ mid, ¬ m.Recovers first) →
    first.call.event.monotonicNow + l.options.window ≤ second.call.event.monotonicNow

section Windows

variable {calls : List Call} {l : Logger} {order : List Bytes} {call : Call}
  {throttle : Table Bytes ThrottleState} {level : Level} {eventCode : Bytes} {suppressed : UInt64}
  {window : Nanoseconds} {m : Emission}

theorem Covered.mono (h : Covered window calls throttle m) :
    Covered window (calls ++ [call]) throttle m := by
  obtain hstate | ⟨hnone, later, hlater, hleft⟩ := h
  · exact .inl hstate
  · exact .inr ⟨hnone, later, List.mem_append_left _ hlater, hleft⟩

/-- A record in the place of another one, or a new one. -/
theorem Covered.insert {state : ThrottleState} {key : Bytes}
    (h : m.call.key ≠ key → Covered window calls throttle m)
    (hlater : m.call.key = key → m.call.event.monotonicNow ≤ state.lastEmitted) :
    Covered window calls (throttle.insert key state) m := by
  by_cases hkey : m.call.key = key
  · refine .inl ⟨state, ?_, hlater hkey⟩
    rw [hkey]
    exact AList.lookup_insert _
  · obtain hstate | hleft := h hkey
    · refine .inl ?_
      rw [AList.lookup_insert_ne hkey]
      exact hstate
    · refine .inr ?_
      rw [AList.lookup_insert_ne hkey]
      exact hleft

theorem Logger.Reports.covered (h : l.Reports order call throttle level eventCode suppressed)
    (horder : order.Perm l.throttle.keys) (hcall : Accountable calls l order call)
    (hm : m.call ∈ calls) (hcovered : Covered l.options.window calls l.throttle m)
    (hkept : ∀ event, call = .recovered event → call.key ≠ m.call.key) :
    Covered l.options.window (calls ++ [call]) throttle m := by
  have hclock := hcall.clock _ hm
  cases h with
  | plain => exact hcovered.mono
  | again => exact .insert (fun _ => hcovered.mono) fun _ => hclock
  | unrecorded => exact hcovered.mono
  | @first level event _ hnone _ =>
    refine .insert (fun hkey => ?_) fun _ => hclock
    obtain ⟨-, heq⟩ | ⟨-, heq⟩ | ⟨key, hfull, holdest, hmem, heq⟩ := Logger.makeRoom_cases horder
    · rw [heq]
      exact hcovered.mono
    · rw [heq]
      exact hcovered.mono
    · rw [heq]
      by_cases hvictim : m.call.key = key
      · -- the record has gone, but the window was over
        obtain ⟨state, hstate⟩ := Table.mem_iff_lookup.mp hmem
        obtain ⟨-, hover⟩ := (hcall.room hnone).2 hfull key state holdest hstate
        refine .inr ⟨?_, .log level event, List.mem_append_right _ (List.mem_singleton_self _), ?_⟩
        · rw [hvictim]
          exact AList.lookup_erase ..
        · obtain ⟨state', hstate', hle⟩ | ⟨hgone, -⟩ := hcovered
          · rw [hvictim, hstate] at hstate'
            obtain rfl := Option.some.inj hstate'
            exact (Int.add_le_add_right hle _).trans hover
          · rw [hvictim, hstate] at hgone
            cases hgone
      · refine Covered.mono ?_
        rw [Covered, AList.lookup_erase_ne hvictim]
        exact hcovered
  | @recovered event state hstate =>
    have hother : m.call.key ≠ throttleKey event.component event.eventCode :=
      (hkept event rfl).symm
    refine Covered.mono ?_
    rw [Covered, AList.lookup_erase_ne hother]
    exact hcovered

/-- A severe entry comes late enough behind another one for its event. -/
theorem Logger.Reports.apart (h : l.Reports order call throttle level eventCode suppressed)
    (hcall : Accountable calls l order call) (hsevere : Level.warning.rank ≤ level.rank)
    (hm : m.call ∈ calls) (hkey : m.call.key = call.key)
    (hcovered : 0 < l.options.throttleWindow → Covered l.options.window calls l.throttle m) :
    m.call.event.monotonicNow + l.options.window ≤ call.event.monotonicNow := by
  have hclock := hcall.clock _ hm
  cases h with
  | plain hquiet =>
    have hnone : ¬ 0 < l.options.throttleWindow := fun hpositive => hquiet ⟨hsevere, hpositive⟩
    have hwindow : l.options.window ≤ 0 :=
      Int.mul_nonpos_of_nonpos_of_nonneg (not_lt.mp hnone) (by decide)
    exact (add_le_of_nonpos_right hwindow).trans hclock
  | @again _ event state hlevel hstate hlate =>
    obtain ⟨state', hstate', hle⟩ | ⟨hgone, -⟩ := hcovered hlevel.2
    · rw [hkey] at hstate'
      obtain rfl := Option.some.inj (hstate.symm.trans hstate')
      exact (Int.add_le_add_right hle _).trans hlate
    · rw [hkey] at hgone
      cases hgone.symm.trans hstate
  | unrecorded _ hnone hmax =>
    have hpositive := (hcall.room hnone).1
    omega
  | first hlevel hnone _ =>
    obtain ⟨state', hstate', -⟩ | ⟨-, later, hlater, hleft⟩ := hcovered hlevel.2
    · rw [hkey] at hstate'
      cases hnone.symm.trans hstate'
    · exact hleft.trans (hcall.clock later hlater)
  | recovered => exact absurd hsevere (by decide)

theorem entryFor_named (hnamed : eventCode ≠ []) :
    (Logger.entryFor call level eventCode suppressed).level = level ∧
      (Logger.entryFor call level eventCode suppressed).component = call.event.component ∧
      (Logger.entryFor call level eventCode suppressed).eventCode =
        cleanText eventCode kMaxEventCodeBytes := by
  have hclean : cleanText eventCode kMaxEventCodeBytes ≠ [] := by
    obtain ⟨c, rest, rfl⟩ := List.exists_cons_of_ne_nil hnamed
    exact List.cons_ne_nil _ _
  obtain ⟨fields, heq, -⟩ := popFields_spec
    (normalizeFields (effectiveFields call.event.fields suppressed) []).length
    (draft level call.event.component eventCode call.event.message
      (effectiveFields call.event.fields suppressed) call.event.utcNow)
  rw [Logger.entryFor, entryOf, heq]
  exact ⟨rfl, rfl, if_neg hclean⟩

/-- An entry behind the others. -/
theorem Windowed.emit (h : Windowed calls l) (horder : order.Perm l.throttle.keys)
    (hcall : Accountable calls l order call)
    (hreports : l.Reports order call throttle level eventCode suppressed) :
    Windowed (calls ++ [call]) ({ l with throttle := throttle }.emit call
      (Logger.entryFor call level eventCode suppressed)) := by
  obtain ⟨hoptions, hthrottle, -, -, hemitted⟩ := Logger.emit_options
    { l with throttle := throttle } call (Logger.entryFor call level eventCode suppressed)
  -- the new entry, if it is severe, is one of the event that was logged
  have hnew : Level.warning.rank ≤ level.rank →
      (∀ event, call ≠ .recovered event) ∧ call.key =
        (Logger.entryFor call level eventCode suppressed).component.name ++ ascii ":" ++
          (Logger.entryFor call level eventCode suppressed).eventCode ∧
      (0 < l.options.throttleWindow → ∃ state, throttle.lookup call.key = some state ∧
        call.event.monotonicNow ≤ state.lastEmitted) := by
    intro hsevere
    have hcode : eventCode ≠ [] ∧ ∃ level event, call = .log level event ∧
        event.eventCode = eventCode := by
      cases hreports with
      | recovered => exact absurd hsevere (by decide)
      | plain => exact ⟨hcall.named, _, _, rfl, rfl⟩
      | again => exact ⟨hcall.named, _, _, rfl, rfl⟩
      | unrecorded => exact ⟨hcall.named, _, _, rfl, rfl⟩
      | first => exact ⟨hcall.named, _, _, rfl, rfl⟩
    obtain ⟨hnamed, level', event, rfl, rfl⟩ := hcode
    obtain ⟨-, hcomponent, heventCode⟩ :=
      @entryFor_named (.log level' event) level event.eventCode suppressed hnamed
    refine ⟨fun event' => nofun, ?_, fun hpositive => ?_⟩
    · rw [hcomponent, heventCode]
      rfl
    · cases hreports with
      | plain hquiet => exact absurd ⟨hsevere, hpositive⟩ hquiet
      | again => exact ⟨_, AList.lookup_insert _, le_refl _⟩
      | unrecorded _ hnone hmax => exact absurd (hcall.room hnone).1 (by omega)
      | first => exact ⟨_, AList.lookup_insert _, le_refl _⟩
  have hlevel : (Logger.entryFor call level eventCode suppressed).level = level := by
    obtain ⟨fields, heq, -⟩ := popFields_spec
      (normalizeFields (effectiveFields call.event.fields suppressed) []).length
      (draft level call.event.component eventCode call.event.message
        (effectiveFields call.event.fields suppressed) call.event.utcNow)
    rw [Logger.entryFor, entryOf, heq]
    rfl
  constructor
  · intro m hm
    rw [hemitted] at hm
    obtain hold | hlast := List.mem_append.mp hm
    · exact List.mem_append_left _ (h.made m hold)
    · rw [List.mem_singleton.mp hlast]
      exact List.mem_append_right _ (List.mem_singleton_self _)
  · intro m hm hsevere
    rw [hemitted] at hm
    obtain hold | hlast := List.mem_append.mp hm
    · exact h.keyed m hold hsevere
    · obtain rfl := List.mem_singleton.mp hlast
      exact (hnew (hlevel ▸ hsevere)).2.1
  · intro hpositive before m after heq hsevere hkept
    rw [hemitted] at heq
    rw [hoptions] at hpositive ⊢
    rw [hthrottle]
    obtain ⟨mid, hold, rfl⟩ | ⟨-, rfl, -⟩ | ⟨mid, -, hnil⟩ := Effects.cut_cases heq.symm
    · have hm : m ∈ l.emitted := hold ▸ List.mem_append_right _ List.mem_cons_self
      refine hreports.covered horder hcall (h.made m hm) ?_ fun event hevent hkey => ?_
      · exact h.covered hpositive before m mid hold hsevere
          fun m' hm' => hkept m' (List.mem_append_left _ hm')
      · exact hkept _ (List.mem_append_right _ (List.mem_singleton_self _)) ⟨event, hevent, hkey⟩
    · exact .inl ((hnew (hlevel ▸ hsevere)).2.2 hpositive)
    · exact absurd hnil.symm (List.append_ne_nil_of_right_ne_nil _ (List.cons_ne_nil _ _))
  · intro before first mid second after heq hfirst hsecond hcomponent heventCode hkept
    rw [hemitted, ← List.cons_append, ← List.append_assoc] at heq
    rw [hoptions]
    obtain ⟨mid', hold, -⟩ | ⟨hold, rfl, -⟩ | ⟨mid', -, hnil⟩ := Effects.cut_cases heq.symm
    · rw [List.append_assoc, List.cons_append] at hold
      exact h.apart before first mid second mid' hold hfirst hsecond hcomponent heventCode hkept
    · have hm : first ∈ l.emitted := hold ▸ List.mem_append_right _ List.mem_cons_self
      obtain ⟨-, hkeyed, -⟩ := hnew (hlevel ▸ hsecond)
      have hkey : first.call.key = call.key := by
        rw [h.keyed first hm hfirst, hcomponent, heventCode, hkeyed]
        rfl
      refine hreports.apart hcall (hlevel ▸ hsecond) (h.made first hm) hkey fun hpositive => ?_
      exact h.covered hpositive before first mid hold.symm hfirst hkept
    · exact absurd hnil.symm (List.append_ne_nil_of_right_ne_nil _ (List.cons_ne_nil _ _))

theorem Logger.Step.windowed {l' : Logger} (hstep : l.Step order call l')
    (horder : order.Perm l.throttle.keys) (hcall : Accountable calls l order call)
    (h : Windowed calls l) : Windowed (calls ++ [call]) l' := by
  have hmade : ∀ m ∈ l.emitted, m.call ∈ calls ++ [call] :=
    fun m hm => List.mem_append_left _ (h.made m hm)
  cases hstep with
  | ignored =>
    refine ⟨hmade, h.keyed, ?_, h.apart⟩
    intro hpositive before m after heq hsevere hkept
    exact (h.covered hpositive before m after heq hsevere hkept).mono
  | @suppressed level event state _ _ hstate _ =>
    refine ⟨hmade, h.keyed, ?_, h.apart⟩
    intro hpositive before m after heq hsevere hkept
    have hold := h.covered hpositive before m after heq hsevere hkept
    -- the record keeps the time of its last entry
    refine .insert (fun _ => hold.mono) fun hkey => ?_
    obtain ⟨state', hstate', hle⟩ | ⟨hgone, -⟩ := hold
    · rw [hkey] at hstate'
      obtain rfl := Option.some.inj (hstate.symm.trans hstate')
      exact hle
    · rw [hkey] at hgone
      cases hgone.symm.trans hstate
  | emitted hreports => exact h.emit horder hcall hreports

end Windows

/-! ### Every run -/

def timeout (monotonicNow : Nanoseconds) (fields : List Field) : Event :=
  ⟨.acquisition, ascii "poll.timeout", ascii "no response", fields, monotonicNow, 0⟩

/-- The logger once a timeout has been logged and another one suppressed. -/
def timedOut : Logger :=
  (Logger.perform { options := {} } [] (.log .error (timeout 0 []))).2

def timedOutTwice : Logger :=
  (timedOut.perform timedOut.throttle.keys (.log .error (timeout 1 []))).2

theorem timeout_run : LoggerRun {} Accountable [.log .error (timeout 0 [])] timedOut := by
  refine .call (.log .error (timeout 0 [])) [] .start (.refl _) ⟨?_, ?_, ?_, ?_, ?_⟩
  · exact fun earlier hearlier => absurd hearlier List.not_mem_nil
  · exact List.cons_ne_nil _ _
  · exact fun field hfield => absurd hfield List.not_mem_nil
  · exact fun _ => ⟨by decide, fun hfull => absurd hfull (by decide)⟩
  · intro state hstate
    cases hstate

theorem timeouts_run : LoggerRun {} Accountable
    [.log .error (timeout 0 []), .log .error (timeout 1 [])] timedOutTwice := by
  have hstate : timedOut.throttle.lookup (Call.log .error (timeout 1 [])).key =
      some ⟨0, 0, 0⟩ := rfl
  refine .call (.log .error (timeout 1 [])) _ timeout_run (.refl _) ⟨?_, ?_, ?_, ?_, ?_⟩
  · intro earlier hearlier
    rw [List.mem_singleton.mp hearlier]
    exact Int.zero_le_ofNat 1
  · exact List.cons_ne_nil _ _
  · exact fun field hfield => absurd hfield List.not_mem_nil
  · intro hnone
    cases hnone.symm.trans hstate
  · intro state hsome hpositive
    rw [hstate, Option.some.injEq] at hsome
    rw [← hsome] at hpositive
    exact absurd hpositive (UInt64.lt_irrefl _)

def eightFields : List Field :=
  [⟨ascii "a", []⟩, ⟨ascii "b", []⟩, ⟨ascii "c", []⟩, ⟨ascii "d", []⟩, ⟨ascii "e", []⟩,
    ⟨ascii "f", []⟩, ⟨ascii "g", []⟩, ⟨ascii "h", []⟩]

end Uhf.Logging
