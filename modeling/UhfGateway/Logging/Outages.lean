/-
Outages in the log.

While something is wrong its event is logged again and again, and throttled; when it is right again
it is reported as recovered, which ends the throttling.  As long as no record has to go, the log
does not miss when an outage begins or ends.

* `Logger.logAt_first`, `Logger.recoveredAt_recorded` — the calls that always make an entry;
* `keys_bounded` — a logger with a record for every event never evicts one;
* `OutagesLogged.perform` — what a call does to the record and to the entries;
* `outages_logged` — the entries for an event begin and end outages as the calls do.
-/
import Mathlib.Data.List.Perm.Subperm
import UhfGateway.Containers.Changes
import UhfGateway.Logging.Throttling

namespace Uhf.Logging

open Acquisition Containers

/-- Whether the call says that something is wrong, or that it no longer is. -/
def Call.begins : Call → Bool
  | .log _ _ => true
  | .recovered _ => false

/-- What has been said about the event with this key. -/
def callsOf (key : Bytes) (calls : List Call) : List Call := calls.filter fun call => call.key = key

/-- The calls for which there are entries. -/
def Logger.emittedCalls (l : Logger) : List Call := l.emitted.map Emission.call

/-- What the calls say one after the other: `true` for wrong. -/
def signal (calls : List Call) : List Bool := calls.map Call.begins

theorem callsOf_concat (key : Bytes) (calls : List Call) (call : Call) :
    callsOf key (calls ++ [call]) =
      if call.key = key then callsOf key calls ++ [call] else callsOf key calls := by
  rw [callsOf, List.filter_append, List.filter_singleton]
  split_ifs with hkey
  · rw [decide_eq_true hkey]
    rfl
  · rw [decide_eq_false hkey]
    exact List.append_nil _

theorem signal_concat (calls : List Call) (call : Call) :
    signal (calls ++ [call]) = signal calls ++ [call.begins] := List.map_append

namespace Logger

variable {l : Logger} (order : List Bytes) {level : Level} {event : Event}

theorem emittedCalls_emit (l : Logger) (call : Call) (entry : Entry) :
    (l.emit call entry).emittedCalls = l.emittedCalls ++ [call] := by
  rw [emittedCalls, (l.emit_options call entry).2.2.2.2, List.map_append]
  rfl

theorem throttle_emit (l : Logger) (call : Call) (entry : Entry) :
    (l.emit call entry).throttle = l.throttle := (l.emit_options call entry).2.1

theorem makeRoom_room (hroom : l.throttle.size < l.options.maxThrottleRecords) :
    l.makeRoom order = l := if_neg (Nat.not_le.mpr hroom)

/-- The first call for an event makes an entry, and a record if it is throttled. -/
theorem logAt_first (hlevel : l.options.minimumLevel.rank ≤ level.rank)
    (hthrottles : l.Throttles level) (hmax : 0 < l.options.maxThrottleRecords)
    (hroom : l.throttle.size < l.options.maxThrottleRecords)
    (hnone : l.throttle.lookup (throttleKey event.component event.eventCode) = none) :
    (l.perform order (.log level event)).2 =
      { l with
        throttle := l.throttle.insert (throttleKey event.component event.eventCode)
          ⟨event.monotonicNow, event.monotonicNow, 0⟩ }.report level event 0 := by
  rw [perform, logAt, if_neg (Nat.not_lt.mpr hlevel)]
  dsimp only
  rw [if_pos (show _ ∧ _ from hthrottles), hnone]
  dsimp only
  rw [if_neg (Nat.ne_of_gt hmax), makeRoom_room order hroom]

/-- A call for a recorded event leaves a record. -/
theorem logAt_recorded {state : ThrottleState}
    (hlevel : l.options.minimumLevel.rank ≤ level.rank) (hthrottles : l.Throttles level)
    (hstate : l.throttle.lookup (throttleKey event.component event.eventCode) = some state) :
    ((l.perform order (.log level event)).2.emittedCalls = l.emittedCalls ∨
      (l.perform order (.log level event)).2.emittedCalls =
        l.emittedCalls ++ [.log level event]) ∧
    ∃ state', (l.perform order (.log level event)).2.throttle =
      l.throttle.insert (throttleKey event.component event.eventCode) state' := by
  rw [perform, logAt, if_neg (Nat.not_lt.mpr hlevel)]
  dsimp only
  rw [if_pos (show _ ∧ _ from hthrottles), hstate]
  dsimp only
  split_ifs
  · exact ⟨.inl rfl, _, rfl⟩
  · exact ⟨.inr (emittedCalls_emit _ _ _), _, throttle_emit _ _ _⟩

theorem recoveredAt_recorded {state : ThrottleState}
    (hlevel : l.options.minimumLevel.rank ≤ Level.info.rank)
    (hstate : l.throttle.lookup (throttleKey event.component event.eventCode) = some state) :
    (l.perform order (.recovered event)).2.emittedCalls = l.emittedCalls ++ [.recovered event] ∧
    (l.perform order (.recovered event)).2.throttle =
      l.throttle.erase (throttleKey event.component event.eventCode) := by
  rw [perform, recoveredAt, if_neg (Nat.not_lt.mpr hlevel)]
  dsimp only
  rw [hstate]
  exact ⟨emittedCalls_emit _ _ _, throttle_emit _ _ _⟩

theorem recoveredAt_unrecorded
    (hnone : l.throttle.lookup (throttleKey event.component event.eventCode) = none) :
    (l.perform order (.recovered event)).2 = l := by
  rw [perform, recoveredAt]
  split_ifs
  · rfl
  · dsimp only
    rw [hnone]

end Logger

/-! ### A record for every event -/

/-- A logger that keeps what the throttling needs, if these are the keys of the throttled events. -/
structure Attentive (options : Options) (keys : List Bytes) : Prop where
  level : options.minimumLevel.rank ≤ Level.info.rank
  window : 0 < options.throttleWindow
  room : keys.length ≤ options.maxThrottleRecords

/-- The throttled events have these keys, and the one with the key `key` is throttled. -/
def Foreseen (keys : List Bytes) (key : Bytes) (call : Call) : Prop :=
  ∀ level event, call = .log level event →
    (Level.warning.rank ≤ level.rank → call.key ∈ keys) ∧
      (call.key = key → Level.warning.rank ≤ level.rank)

section Records

variable {l : Logger} (order : List Bytes) {keys : List Bytes} {key : Bytes} {call : Call}

/-- Where only foreseen events are recorded, there is room for one more. -/
theorem keys_bounded (hkeys : ∀ k ∈ l.throttle, k ∈ keys) (hnew : key ∈ keys)
    (hnone : l.throttle.lookup key = none) : l.throttle.size < keys.length := by
  have hfresh : key ∉ l.throttle.keys := by
    intro hmem
    obtain ⟨state, hstate⟩ := Table.mem_iff_lookup.mp (AList.mem_keys.mpr hmem)
    rw [hnone] at hstate
    cases hstate
  have hall : (key :: l.throttle.keys) ⊆ keys := by
    intro k hk
    obtain rfl | hk := List.mem_cons.mp hk
    · exact hnew
    · exact hkeys k (AList.mem_keys.mpr hk)
  have hnodup : (key :: l.throttle.keys).Nodup :=
    List.nodup_cons.mpr ⟨hfresh, l.throttle.keys_nodup⟩
  exact (hnodup.subperm hall).length_le

/-- What a foreseen call does: the other events' records stay, and new ones are foreseen. -/
theorem perform_foreseen (hroom : keys.length ≤ l.options.maxThrottleRecords)
    (hkeys : ∀ k ∈ l.throttle, k ∈ keys) (hcall : Foreseen keys key call) :
    (l.perform order call).2.options = l.options ∧
      ((l.perform order call).2.emittedCalls = l.emittedCalls ∨
        (l.perform order call).2.emittedCalls = l.emittedCalls ++ [call]) ∧
      (∀ k, k ≠ call.key → (l.perform order call).2.throttle.lookup k = l.throttle.lookup k) ∧
      ∀ k ∈ (l.perform order call).2.throttle, k ∈ keys := by
  have hinserted : ∀ state level event, call = .log level event →
      Level.warning.rank ≤ level.rank → ∀ k ∈ l.throttle.insert call.key state, k ∈ keys := by
    intro state level event hlog hwarning k hk
    obtain rfl | hk := (AList.mem_insert _).mp hk
    · exact (hcall level event hlog).1 hwarning
    · exact hkeys k hk
  have hstep := l.perform_step order call
  generalize (l.perform order call).2 = l' at hstep
  cases hstep with
  | ignored => exact ⟨rfl, .inl rfl, fun _ _ => rfl, hkeys⟩
  | suppressed hlog hlevel hstate hearly =>
    subst hlog
    exact ⟨rfl, .inl rfl, fun k hk => AList.lookup_insert_ne hk,
      hinserted _ _ _ rfl hlevel.1⟩
  | @emitted throttle level eventCode suppressed hreports =>
    obtain ⟨hoptions, hthrottle, -⟩ := Logger.emit_options { l with throttle := throttle } call
      (Logger.entryFor call level eventCode suppressed)
    refine ⟨hoptions, .inr (Logger.emittedCalls_emit _ _ _), ?_⟩
    rw [hthrottle]
    show (∀ k, k ≠ call.key → throttle.lookup k = l.throttle.lookup k) ∧ ∀ k ∈ throttle, k ∈ keys
    cases hreports with
    | plain => exact ⟨fun _ _ => rfl, hkeys⟩
    | again hlevel hstate hlate =>
      exact ⟨fun k hk => AList.lookup_insert_ne hk, hinserted _ _ _ rfl hlevel.1⟩
    | unrecorded => exact ⟨fun _ _ => rfl, hkeys⟩
    | @first _ event hlevel hnone hmax =>
      have hnew := (hcall _ _ rfl).1 hlevel.1
      have hless := keys_bounded hkeys hnew hnone
      rw [Logger.makeRoom_room _ (Nat.lt_of_lt_of_le hless hroom)]
      exact ⟨fun k hk => AList.lookup_insert_ne hk, hinserted _ _ _ rfl hlevel.1⟩
    | recovered hstate =>
      refine ⟨fun k hk => AList.lookup_erase_ne hk, fun k hk => hkeys k ?_⟩
      exact (AList.mem_erase.mp hk).2

/-- A call about an event that is always throttled: its record says afterwards what the call has
said, and where that is a change the call makes an entry. -/
theorem perform_own (hlevel : l.options.minimumLevel.rank ≤ Level.info.rank)
    (hwindow : 0 < l.options.throttleWindow) (hroom : keys.length ≤ l.options.maxThrottleRecords)
    (hkeys : ∀ k ∈ l.throttle, k ∈ keys) (hcall : Foreseen keys call.key call) :
    ((l.perform order call).2.throttle.lookup call.key).isSome = call.begins ∧
      (call.begins ≠ (l.throttle.lookup call.key).isSome →
        (l.perform order call).2.emittedCalls = l.emittedCalls ++ [call]) := by
  cases call with
  | log level event =>
    obtain ⟨hforeseen, hwarning⟩ := hcall level event rfl
    have hthrottles : l.Throttles level := ⟨hwarning rfl, hwindow⟩
    have hrank : l.options.minimumLevel.rank ≤ level.rank :=
      hlevel.trans (Nat.le_trans (by decide) (hwarning rfl))
    cases hstate : l.throttle.lookup (Call.log level event).key with
    | none =>
      have hless := Nat.lt_of_lt_of_le (keys_bounded hkeys (hforeseen (hwarning rfl)) hstate) hroom
      have hnone : l.throttle.lookup (throttleKey event.component event.eventCode) = none := hstate
      rw [Logger.logAt_first order hrank hthrottles (Nat.zero_lt_of_lt hless) hless hnone]
      refine ⟨?_, fun _ => Logger.emittedCalls_emit _ _ _⟩
      rw [Logger.report, Logger.throttle_emit]
      show ((l.throttle.insert (Call.log level event).key _).lookup _).isSome = _
      rw [AList.lookup_insert]
      rfl
    | some state =>
      have hsome : l.throttle.lookup (throttleKey event.component event.eventCode) = some state :=
        hstate
      obtain ⟨-, state', hthrottle⟩ := Logger.logAt_recorded order hrank hthrottles hsome
      refine ⟨?_, fun hchange => absurd rfl hchange⟩
      rw [hthrottle]
      show ((l.throttle.insert (Call.log level event).key _).lookup _).isSome = _
      rw [AList.lookup_insert]
      rfl
  | recovered event =>
    cases hstate : l.throttle.lookup (Call.recovered event).key with
    | none =>
      have hnone : l.throttle.lookup (throttleKey event.component event.eventCode) = none := hstate
      rw [Logger.recoveredAt_unrecorded order hnone]
      refine ⟨?_, fun hchange => absurd rfl hchange⟩
      rw [hstate]
      rfl
    | some state =>
      have hsome : l.throttle.lookup (throttleKey event.component event.eventCode) = some state :=
        hstate
      obtain ⟨hemitted, hthrottle⟩ := Logger.recoveredAt_recorded order hlevel hsome
      refine ⟨?_, fun _ => hemitted⟩
      rw [hthrottle]
      show ((l.throttle.erase (Call.recovered event).key).lookup _).isSome = _
      rw [AList.lookup_erase]
      rfl

end Records

/-! ### Outages -/

/-- A record says whether the last call about the event was of something wrong, and the entries
for the event change where the calls do. -/
structure OutagesLogged (options : Options) (keys : List Bytes) (key : Bytes) (calls : List Call)
    (l : Logger) : Prop where
  options : l.options = options
  keys : ∀ k ∈ l.throttle, k ∈ keys
  recorded : (l.throttle.lookup key).isSome = current false (signal (callsOf key calls))
  changes : changes false (signal (callsOf key l.emittedCalls)) =
    changes false (signal (callsOf key calls))
  emitted : l.emittedCalls.Sublist calls

section Outages

variable {options : Options} {keys order : List Bytes} {key : Bytes} {calls : List Call}
  {l : Logger} {call : Call}

/-- The entries say what the calls say now. -/
theorem OutagesLogged.current (h : OutagesLogged options keys key calls l) :
    Containers.current false (signal (callsOf key l.emittedCalls)) =
      Containers.current false (signal (callsOf key calls)) := by
  rw [← current_changes, h.changes, current_changes]

/-- An entry for the call, or none where the call changes nothing. -/
theorem OutagesLogged.changes_call (h : OutagesLogged options keys key calls l)
    {emitted : List Call}
    (hemitted : emitted = l.emittedCalls ++ [call] ∨ emitted = l.emittedCalls ∧
      (call.key = key → call.begins = Containers.current false (signal (callsOf key calls)))) :
    Containers.changes false (signal (callsOf key emitted)) =
      Containers.changes false (signal (callsOf key (calls ++ [call]))) := by
  rw [callsOf_concat key calls]
  by_cases howns : call.key = key
  · rw [if_pos howns, signal_concat, changes_concat]
    obtain rfl | ⟨rfl, hsame⟩ := hemitted
    · rw [callsOf_concat, if_pos howns, signal_concat, changes_concat, h.current, h.changes]
    · rw [if_pos (hsame howns), h.changes]
  · rw [if_neg howns]
    obtain rfl | ⟨rfl, -⟩ := hemitted
    · rw [callsOf_concat, if_neg howns, h.changes]
    · exact h.changes

theorem OutagesLogged.perform (h : OutagesLogged options keys key calls l)
    (hroom : Attentive options keys) (hcall : Foreseen keys key call) :
    OutagesLogged options keys key (calls ++ [call]) (l.perform order call).2 := by
  have hfits : keys.length ≤ l.options.maxThrottleRecords := h.options ▸ hroom.room
  have hlevel : l.options.minimumLevel.rank ≤ Level.info.rank := h.options ▸ hroom.level
  have hwindow : 0 < l.options.throttleWindow := h.options ▸ hroom.window
  obtain ⟨hoptions, hemitted, hlookup, hkeys⟩ := perform_foreseen order hfits h.keys hcall
  have hsublist : (l.perform order call).2.emittedCalls.Sublist (calls ++ [call]) := by
    obtain heq | heq := hemitted
    · rw [heq]
      exact h.emitted.trans (List.sublist_append_left _ _)
    · rw [heq]
      exact h.emitted.append (List.Sublist.refl _)
  by_cases howns : call.key = key
  · obtain ⟨hrecord, hentry⟩ := perform_own order hlevel hwindow hfits h.keys
      (howns.symm ▸ hcall)
    rw [howns] at hrecord
    rw [howns, h.recorded] at hentry
    refine ⟨hoptions.trans h.options, hkeys, ?_, h.changes_call ?_, hsublist⟩
    · rw [hrecord, callsOf_concat, if_pos howns, signal_concat, current_concat]
    · by_cases hsame : call.begins = Containers.current false (signal (callsOf key calls))
      · exact hemitted.symm.imp_right fun heq => ⟨heq, fun _ => hsame⟩
      · exact .inl (hentry hsame)
  · refine ⟨hoptions.trans h.options, hkeys, ?_, h.changes_call ?_, hsublist⟩
    · rw [hlookup key (Ne.symm howns), callsOf_concat, if_neg howns]
      exact h.recorded
    · exact hemitted.symm.imp_right fun heq => ⟨heq, fun h => absurd h howns⟩

theorem outages_start (options : Options) (keys : List Bytes) (key : Bytes) :
    OutagesLogged options keys key [] { options := options } :=
  ⟨rfl, fun k hk => absurd hk (AList.notMem_empty k), rfl, rfl, .slnil⟩

/-- **No outage is missing from the log.**  Where the records suffice for the events that are
throttled, whatever is logged about whatever in between: the entries for an event begin and end its
outages as the calls do. -/
theorem outages_logged {Allowed : List Call → Logger → List Bytes → Call → Prop}
    (hroom : Attentive options keys)
    (hforeseen : ∀ calls l order call, Allowed calls l order call → Foreseen keys key call)
    (h : LoggerRun options Allowed calls l) : OutagesLogged options keys key calls l := by
  induction h with
  | start => exact outages_start options keys key
  | call call order _ _ hallowed ih => exact ih.perform hroom (hforeseen _ _ _ _ hallowed)

end Outages

end Uhf.Logging
