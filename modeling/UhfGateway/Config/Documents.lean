/-
Configuration documents, member for member.

`readMembers` is the parser's loop up to the closing brace, and keeps what it has read: the keys,
and keys and values as they are written.

* `parseMembers_eq` — what the parser checks behind the closing brace;
* `documentMembers` — the members of a document;
* `accepted_members` — their keys are different settings, or the version.
-/
import Mathlib.Data.List.Nodup
import UhfGateway.Config.FlatJsonParser

namespace Uhf.Config

/-! ### Reading -/

/-- A member as it stands in the text; `name` is the key with its quotes. -/
structure WrittenMember where
  name : Bytes
  key : Bytes
  value : Bytes
  deriving DecidableEq, Repr

/-- The part of the input in front of the rest. -/
def taken (input rest : Bytes) : Bytes := input.take (input.length - rest.length)

theorem taken_append (text rest : Bytes) : taken (text ++ rest) rest = text := by
  rw [taken, List.length_append, Nat.add_sub_cancel, List.take_left]

/-- The member that `parse_member` reads. -/
def readMember (keys : List Bytes) (values : Values) (input : Bytes) :
    Option (WrittenMember × Values × Bytes) :=
  (parseString input).bind fun (key, behind) =>
    (consume ':'.toUInt8 (skipSpace behind)).bind fun colon =>
      if key ∈ keys then none
      else
        (parseField key values (skipSpace colon)).map fun (values, rest) =>
          (⟨taken input behind, key, taken (skipSpace colon) rest⟩, values, skipSpace rest)

theorem parseMember_eq (keys : List Bytes) (values : Values) (input : Bytes) :
    parseMember keys values input = (readMember keys values input).map fun (w, values, rest) =>
      (w.key, values, rest) := by
  rw [parseMember, readMember]
  cases parseString input with
  | none => rfl
  | some read =>
    obtain ⟨key, behind⟩ := read
    rw [Option.bind_some, Option.bind_some]
    dsimp only
    cases consume ':'.toUInt8 (skipSpace behind) with
    | none => rfl
    | some colon =>
      rw [Option.bind_some, Option.bind_some]
      split
      · rfl
      · rw [Option.map_map]
        rfl

theorem readMember_eq_some {keys : List Bytes} {values values' : Values} {input rest : Bytes}
    {w : WrittenMember} (h : readMember keys values input = some (w, values', rest)) :
    w.key ∉ keys ∧ ∃ behind colon field, parseString input = some (w.key, behind) ∧
      consume ':'.toUInt8 (skipSpace behind) = some colon ∧
      parseField w.key values (skipSpace colon) = some (values', field) ∧ rest = skipSpace field ∧
      w.name = taken input behind ∧ w.value = taken (skipSpace colon) field := by
  obtain ⟨⟨key', behind⟩, hkey, h⟩ := Option.bind_eq_some_iff.mp h
  obtain ⟨colon, hcolon, h⟩ := Option.bind_eq_some_iff.mp h
  rw [Option.ite_none_left_eq_some] at h
  obtain ⟨hnew, h⟩ := h
  obtain ⟨⟨values'', field⟩, hfield, h⟩ := Option.map_eq_some_iff.mp h
  simp only [Prod.mk.injEq] at h
  obtain ⟨rfl, rfl, rfl⟩ := h
  exact ⟨hnew, behind, colon, field, hkey, hcolon, hfield, rfl, rfl, rfl⟩

theorem readMember_length {keys : List Bytes} {values values' : Values} {input rest : Bytes}
    {w : WrittenMember} (h : readMember keys values input = some (w, values', rest)) :
    rest.length < input.length := by
  have hparse : parseMember keys values input = some (w.key, values', rest) := by
    rw [parseMember_eq, h, Option.map_some]
  exact parseMember_length hparse

/-- The loop of `parse` up to the closing brace; `keys` are the keys met so far. -/
def readMembers (keys : List Bytes) (values : Values) (input : Bytes) :
    Option (List WrittenMember × Values) :=
  match _h : readMember keys values input with
  | none => none
  | some (w, values, rest) =>
    match consume '}'.toUInt8 rest with
    | some behind => if skipSpace behind = [] then some ([w], values) else none
    | none =>
      match _hcomma : consume ','.toUInt8 rest with
      | none => none
      | some more =>
        (readMembers (w.key :: keys) values (skipSpace more)).map fun (ws, values) =>
          (w :: ws, values)
termination_by input.length
decreasing_by
  have hrest := readMember_length _h
  have hskipped := skipSpace_length more
  rw [consume_eq_some] at _hcomma
  rw [_hcomma, List.length_cons] at hrest
  omega

theorem readMembers_eq (keys : List Bytes) (values : Values) (input : Bytes) :
    readMembers keys values input = match readMember keys values input with
      | none => none
      | some (w, values, rest) =>
        match consume '}'.toUInt8 rest with
        | some behind => if skipSpace behind = [] then some ([w], values) else none
        | none =>
          match consume ','.toUInt8 rest with
          | none => none
          | some more =>
            (readMembers (w.key :: keys) values (skipSpace more)).map fun (ws, values) =>
              (w :: ws, values) := by
  fun_cases readMembers keys values input with
  | case1 hmember => simp only [hmember]
  | case2 w values' rest hmember behind hbrace hlast => simp only [hmember, hbrace, if_pos hlast]
  | case3 w values' rest hmember behind hbrace hlast => simp only [hmember, hbrace, if_neg hlast]
  | case4 w values' rest hmember hbrace hcomma => simp only [hmember, hbrace, hcomma]
  | case5 w values' rest hmember hbrace more hcomma => simp only [hmember, hbrace, hcomma]

theorem parseMembers_step (keys : List Bytes) (values : Values) (input : Bytes) :
    parseMembers keys values input = match parseMember keys values input with
      | none => none
      | some (key, values, rest) =>
        match consume '}'.toUInt8 rest with
        | some behind =>
          if skipSpace behind = [] ∧ keys.length + 1 ∈ allowedCounts then some values else none
        | none =>
          match consume ','.toUInt8 rest with
          | none => none
          | some more => parseMembers (key :: keys) values (skipSpace more) := by
  fun_cases parseMembers keys values input with
  | case1 hmember => simp only [hmember]
  | case2 key values' rest hmember behind hbrace hlast =>
    simp only [hmember, hbrace, if_pos hlast]
  | case3 key values' rest hmember behind hbrace hlast =>
    simp only [hmember, hbrace, if_neg hlast]
  | case4 key values' rest hmember hbrace hcomma => simp only [hmember, hbrace, hcomma]
  | case5 key values' rest hmember hbrace more hcomma => simp only [hmember, hbrace, hcomma]

/-- What is checked when an object has been read. -/
theorem parseMembers_eq (keys : List Bytes) (values : Values) (input : Bytes) :
    parseMembers keys values input = (readMembers keys values input).bind fun (ws, values) =>
      if keys.length + ws.length ∈ allowedCounts then some values else none := by
  fun_induction readMembers keys values input with
  | case1 keys values input hmember =>
    simp only [parseMembers_step keys values input, parseMember_eq, hmember, Option.map_none,
      Option.bind_none]
  | case2 keys values input w values' rest hmember behind hbrace hlast =>
    simp only [parseMembers_step keys values input, parseMember_eq, hmember, Option.map_some, hbrace,
      hlast, true_and, Option.bind_some, List.length_singleton]
  | case3 keys values input w values' rest hmember behind hbrace hlast =>
    simp only [parseMembers_step keys values input, parseMember_eq, hmember, Option.map_some, hbrace,
      hlast, false_and, if_false, Option.bind_none]
  | case4 keys values input w values' rest hmember hbrace hcomma =>
    simp only [parseMembers_step keys values input, parseMember_eq, hmember, Option.map_some, hbrace,
      hcomma, Option.bind_none]
  | case5 keys values input w values' rest hmember hbrace more hcomma ih =>
    simp only [parseMembers_step keys values input, parseMember_eq, hmember, Option.map_some, hbrace,
      hcomma, ih]
    cases readMembers (w.key :: keys) values' (skipSpace more) with
    | none => rfl
    | some read =>
      have hlength : (w.key :: keys).length + read.1.length = keys.length + (w :: read.1).length := by
        rw [List.length_cons, List.length_cons]
        omega
      rw [Option.map_some, Option.bind_some, Option.bind_some, hlength]

/-! ### Documents -/

/-- The members of the object, and the values behind the last one. -/
def readObject (values : Values) (input : Bytes) : Option (List WrittenMember × Values) :=
  (consume '{'.toUInt8 (skipSpace input)).bind fun rest =>
    if (consume '}'.toUInt8 (skipSpace rest)).isSome then none
    else readMembers [] values (skipSpace rest)

def documentMembers (json : Bytes) : List WrittenMember := (readObject {} json).elim [] Prod.fst

def documentKeys (json : Bytes) : List Bytes := (documentMembers json).map WrittenMember.key

/-- The keys that the parser knows. -/
def knownKeys : List Bytes := ascii "version" :: members.map Member.key

theorem parseField_known {key : Bytes} {values values' : Values} {input rest : Bytes}
    (h : parseField key values input = some (values', rest)) : key ∈ knownKeys := by
  rw [parseField] at h
  split at h
  · next heq => exact List.mem_cons.mpr (.inl heq)
  · obtain ⟨m, hfound, -⟩ := Option.bind_eq_some_iff.mp h
    have hkey : m.key = key := by simpa using List.find?_some hfound
    exact List.mem_cons.mpr (.inr (hkey ▸ List.mem_map_of_mem (List.mem_of_find?_eq_some hfound)))

theorem readMembers_keys {keys : List Bytes} {values values' : Values} {input : Bytes}
    {ws : List WrittenMember} (h : readMembers keys values input = some (ws, values')) :
    (ws.map WrittenMember.key).Nodup ∧ ∀ w ∈ ws, w.key ∈ knownKeys ∧ w.key ∉ keys := by
  fun_induction readMembers keys values input generalizing ws values' with
  | case1 => cases h
  | case2 keys values input w values'' rest hmember behind hbrace hlast =>
    cases h
    obtain ⟨hnew, behind, colon, field, -, -, hfield, -⟩ := readMember_eq_some hmember
    refine ⟨List.nodup_singleton _, fun w' hw => ?_⟩
    rw [List.mem_singleton.mp hw]
    exact ⟨parseField_known hfield, hnew⟩
  | case3 => cases h
  | case4 => cases h
  | case5 keys values input w values'' rest hmember hbrace more hcomma ih =>
    obtain ⟨⟨ws', later⟩, hread, hr⟩ := Option.map_eq_some_iff.mp h
    cases hr
    obtain ⟨hnew, behind, colon, field, -, -, hfield, -⟩ := readMember_eq_some hmember
    obtain ⟨hnodup, hlater⟩ := ih hread
    refine ⟨List.nodup_cons.mpr ⟨fun hmem => ?_, hnodup⟩, fun w' hw => ?_⟩
    · obtain ⟨w', hw', heq⟩ := List.mem_map.mp hmem
      exact (hlater w' hw').2 (heq ▸ List.mem_cons_self)
    · obtain rfl | hw := List.mem_cons.mp hw
      · exact ⟨parseField_known hfield, hnew⟩
      · exact ⟨(hlater w' hw).1, fun hold => (hlater w' hw).2 (List.mem_cons_of_mem _ hold)⟩

theorem parseValues_eq_some {json : Bytes} {values : Values} (h : parseValues json = some values) :
    readObject {} json = some (documentMembers json, values) ∧
      (documentMembers json).length ∈ allowedCounts := by
  rw [parseValues, Option.ite_none_left_eq_some] at h
  obtain ⟨rest, hbrace, h⟩ := Option.bind_eq_some_iff.mp h.2
  rw [Option.ite_none_left_eq_some, parseMembers_eq] at h
  obtain ⟨hmore, h⟩ := h
  obtain ⟨⟨ws, values'⟩, hread, h⟩ := Option.bind_eq_some_iff.mp h
  rw [Option.ite_none_right_eq_some, List.length_nil, Nat.zero_add, Option.some.injEq] at h
  obtain ⟨hcount, rfl⟩ := h
  have hobject : readObject {} json = some (ws, values') := by
    rw [readObject, hbrace, Option.bind_some, if_neg hmore, hread]
  have hmembers : documentMembers json = ws := by
    rw [documentMembers, hobject, Option.elim_some]
  rw [hmembers]
  exact ⟨hobject, hcount⟩

theorem accepted_members {json : Bytes} {values : Values} (h : parseValues json = some values) :
    (documentKeys json).Nodup ∧ (∀ key ∈ documentKeys json, key ∈ knownKeys) ∧
      (documentKeys json).length ∈ allowedCounts := by
  obtain ⟨hobject, hcount⟩ := parseValues_eq_some h
  obtain ⟨rest, -, hread⟩ := Option.bind_eq_some_iff.mp hobject
  rw [Option.ite_none_left_eq_some] at hread
  obtain ⟨hnodup, hknown⟩ := readMembers_keys hread.2
  refine ⟨hnodup, List.forall_mem_map.mpr fun w hw => (hknown w hw).1, ?_⟩
  rw [documentKeys, List.length_map]
  exact hcount

end Uhf.Config
