/-
What a network candidate gives of the two interfaces.

The parser knows eighteen keys and counts them: sixteen keys or eighteen are enough, however they
are spread over the interfaces.

* `Candidate.keys` — the keys of a document;
* `Candidate.keys_length` — the number of keys, interface for interface;
* `candidate_complete_iff` — when an accepted document gives every setting of both interfaces.
-/
import UhfGateway.Containers.Selection
import UhfGateway.Network.ConfigText

namespace Uhf.Network

open Config (skipSpace consume)
open Containers

/-! ### Settings -/

/-- The settings that an interface has beside its prefix. -/
def settings : List FlatField :=
  [.string .mode, .string .address, .string .gateway, .string .dns1, .string .dns2,
    .string .hostname, .number .dhcpTimeoutSeconds]

/-- The two settings that give the prefix. -/
def prefixSettings : List FlatField := [.number .prefixLength, .string .netmask]

def keysOf (port : Port) (fields : List FlatField) : List Bytes :=
  fields.map fun field => flatKey port field.suffix

def candidateKeys : List Bytes :=
  keysOf .eth0 settings ++ keysOf .eth0 prefixSettings ++
    (keysOf .eth1 settings ++ keysOf .eth1 prefixSettings)

theorem flatFields_perm : flatFields.Perm (settings ++ prefixSettings) := by decide

theorem candidateKeys_perm :
    (flatMembers.map fun m => flatKey m.1 m.2.suffix).Perm candidateKeys := by
  have hport : ∀ port : Port, (keysOf port flatFields).Perm
      (keysOf port settings ++ keysOf port prefixSettings) := by
    intro port
    have hperm := flatFields_perm.map fun field => flatKey port field.suffix
    rwa [List.map_append] at hperm
  have hmembers : flatMembers.map (fun m => flatKey m.1 m.2.suffix) =
      keysOf .eth0 flatFields ++ keysOf .eth1 flatFields := by
    rw [flatMembers, List.map_append, List.map_map, List.map_map]
    rfl
  rw [hmembers]
  exact (hport .eth0).append (hport .eth1)

theorem candidateKeys_nodup : candidateKeys.Nodup := candidateKeys_perm.nodup_iff.mp keys_nodup

theorem FlatField.mem_all (field : FlatField) : field ∈ flatFields := by
  cases field with
  | string field => cases field <;> decide
  | number field => cases field <;> decide

theorem flatKey_mem (port : Port) (field : FlatField) :
    flatKey port field.suffix ∈ candidateKeys := by
  have hmember : (port, field) ∈ flatMembers := by
    cases port with
    | eth0 => exact List.mem_append_left _ (List.mem_map_of_mem field.mem_all)
    | eth1 => exact List.mem_append_right _ (List.mem_map_of_mem field.mem_all)
  exact candidateKeys_perm.mem_iff.mp (List.mem_map_of_mem (f := fun m => flatKey m.1 m.2.suffix)
    hmember)

theorem interfaceFor_eq_some {key suffix : Bytes} {port : Port}
    (h : interfaceFor key suffix = some port) : key = flatKey port suffix := by
  unfold interfaceFor at h
  split at h
  · next heq =>
    cases h
    exact heq
  · split at h
    · next heq =>
      cases h
      exact heq
    · cases h

theorem stringField_mem {key : Bytes} {m : Port × StringField} (h : stringField key = some m) :
    key ∈ candidateKeys := by
  obtain ⟨field, -, hfield⟩ := List.exists_of_findSome?_eq_some h
  obtain ⟨port, hport, -⟩ := Option.map_eq_some_iff.mp hfield
  rw [interfaceFor_eq_some hport]
  exact flatKey_mem port (.string field)

theorem numberField_mem {key : Bytes} {m : Port × NumberField} (h : numberField key = some m) :
    key ∈ candidateKeys := by
  obtain ⟨field, -, hfield⟩ := List.exists_of_findSome?_eq_some h
  obtain ⟨port, hport, -⟩ := Option.map_eq_some_iff.mp hfield
  rw [interfaceFor_eq_some hport]
  exact flatKey_mem port (.number field)

namespace FlatJsonParser

/-! ### The keys that have been met -/

/-- Different keys, and each of them a setting's. -/
structure Known (p : FlatJsonParser) : Prop where
  nodup : p.seen.Nodup
  known : ∀ key ∈ p.seen, key ∈ candidateKeys

theorem Known.keep {p : FlatJsonParser} (h : p.Known) {key : Bytes} (hnew : key ∉ p.seen)
    (hkey : key ∈ candidateKeys) (port : Port) (fields : PortFields) :
    (p.keep key port fields).Known where
  nodup := List.nodup_cons.mpr ⟨hnew, h.nodup⟩
  known := List.forall_mem_cons.mpr ⟨hkey, h.known⟩

theorem Known.parseField {p p' : FlatJsonParser} {key input rest : Bytes} (h : p.Known)
    (hfield : p.parseField key input = some (p', rest)) : p'.Known := by
  rw [FlatJsonParser.parseField, Option.ite_none_left_eq_some] at hfield
  obtain ⟨hnew, hfield⟩ := hfield
  split at hfield
  · next port field hstring =>
    obtain ⟨⟨text, behind⟩, -, hr⟩ := Option.map_eq_some_iff.mp hfield
    cases hr
    exact h.keep hnew (stringField_mem hstring) port _
  · obtain ⟨⟨value, behind⟩, -, hfield⟩ := Option.bind_eq_some_iff.mp hfield
    obtain ⟨⟨port, field⟩, hnumber, hfield⟩ := Option.bind_eq_some_iff.mp hfield
    obtain ⟨fields, -, hr⟩ := Option.map_eq_some_iff.mp hfield
    cases hr
    exact h.keep hnew (numberField_mem hnumber) port _

theorem Known.readMembers {p q : FlatJsonParser} {input : Bytes} (h : p.Known)
    (hread : p.readMembers input = some q) : q.Known := by
  refine readMembers_induction ?_ h hread
  intro p p' input rest hmember hp
  obtain ⟨key, behind, colon, field, -, -, hfield, -⟩ := parseMember_eq_some hmember
  exact hp.parseField hfield

/-- The parser at the end of the document. -/
def readObject (input : Bytes) : Option FlatJsonParser :=
  (consume '{'.toUInt8 (skipSpace input)).bind fun rest =>
    if (consume '}'.toUInt8 (skipSpace rest)).isSome then none
    else readMembers {} (skipSpace rest)

theorem parse_eq (input : Bytes) : parse input = (readObject input).bind fun p =>
    if p.seen.length ∈ fieldCounts then p.applyStringValues else none := by
  rw [parse, readObject, Option.bind_assoc]
  congr 1
  funext rest
  split
  · rfl
  · exact parseMembers_eq {} (skipSpace rest)

theorem known_readObject {input : Bytes} {q : FlatJsonParser} (h : readObject input = some q) :
    q.Known := by
  obtain ⟨rest, -, h⟩ := Option.bind_eq_some_iff.mp h
  rw [Option.ite_none_left_eq_some] at h
  exact Known.readMembers ⟨List.nodup_nil, List.forall_mem_nil _⟩ h.2

end FlatJsonParser

namespace Candidate

/-! ### Documents -/

/-- The keys of the document, the last one first. -/
def keys (json : Bytes) : List Bytes :=
  (FlatJsonParser.readObject json).elim [] FlatJsonParser.seen

def Gives (json : Bytes) (port : Port) (field : FlatField) : Prop :=
  flatKey port field.suffix ∈ keys json

/-- Every setting of the interface is given, and its prefix in one form at least. -/
structure Describes (json : Bytes) (port : Port) : Prop where
  settings : ∀ field ∈ settings, Gives json port field
  prefixLength : Gives json port (.number .prefixLength) ∨ Gives json port (.string .netmask)

def Complete (json : Bytes) : Prop := ∀ port, Describes json port

def GivesBothPrefixes (json : Bytes) (port : Port) : Prop :=
  Gives json port (.number .prefixLength) ∧ Gives json port (.string .netmask)

theorem keys_of_accepted {json : Bytes} {config : NetworkConfig}
    (h : parseFlatJson json = some config) :
    (keys json).Nodup ∧ (∀ key ∈ keys json, key ∈ candidateKeys) ∧
      ((keys json).length = 16 ∨ (keys json).length = 18) := by
  rw [parseFlatJson, Option.ite_none_left_eq_some, FlatJsonParser.parse_eq] at h
  obtain ⟨p, hp, h⟩ := Option.bind_eq_some_iff.mp h.2
  have hknown := FlatJsonParser.known_readObject hp
  have hkeys : keys json = p.seen := by rw [keys, hp, Option.elim_some]
  have hcount : p.seen.length ∈ FlatJsonParser.fieldCounts := by
    by_contra hcount
    rw [if_neg hcount] at h
    cases h
  rw [hkeys]
  exact ⟨hknown.nodup, hknown.known, by simpa [FlatJsonParser.fieldCounts] using hcount⟩

/-- How many of the settings of the interface are given, without the prefix and for the prefix. -/
def settingCount (json : Bytes) (port : Port) : ℕ := selected (keys json) (keysOf port settings)

def prefixCount (json : Bytes) (port : Port) : ℕ := selected (keys json) (keysOf port prefixSettings)

theorem keys_length {json : Bytes} {config : NetworkConfig} (h : parseFlatJson json = some config) :
    (keys json).length = settingCount json .eth0 + prefixCount json .eth0 +
      (settingCount json .eth1 + prefixCount json .eth1) := by
  obtain ⟨hnodup, hknown, -⟩ := keys_of_accepted h
  rw [length_eq_selected hnodup candidateKeys_nodup hknown, candidateKeys, selected_append,
    selected_append, selected_append]
  rfl

theorem settingCount_le (json : Bytes) (port : Port) : settingCount json port ≤ 7 := selected_le

theorem prefixCount_le (json : Bytes) (port : Port) : prefixCount json port ≤ 2 := selected_le

theorem settingCount_eq {json : Bytes} {port : Port} :
    settingCount json port = 7 ↔ ∀ field ∈ settings, Gives json port field := by
  have hfull : settingCount json port = (keysOf port settings).length ↔
      ∀ key ∈ keysOf port settings, key ∈ keys json := selected_eq_length
  rw [keysOf, List.forall_mem_map] at hfull
  exact hfull

theorem prefixCount_eq {json : Bytes} {port : Port} :
    prefixCount json port = 2 ↔ GivesBothPrefixes json port := by
  have hfull : prefixCount json port = (keysOf port prefixSettings).length ↔
      ∀ key ∈ keysOf port prefixSettings, key ∈ keys json := selected_eq_length
  simp only [keysOf, prefixSettings, List.map_cons, List.map_nil, List.forall_mem_cons,
    List.not_mem_nil, false_imp_iff, implies_true, and_true] at hfull
  exact hfull

theorem prefixCount_pos {json : Bytes} {port : Port} :
    0 < prefixCount json port ↔
      Gives json port (.number .prefixLength) ∨ Gives json port (.string .netmask) := by
  have hsome : 0 < prefixCount json port ↔
      ∃ key ∈ keysOf port prefixSettings, key ∈ keys json := selected_pos
  simp only [keysOf, prefixSettings, List.map_cons, List.map_nil, List.mem_cons, List.not_mem_nil,
    or_false, exists_eq_or_imp, exists_eq_left] at hsome
  exact hsome

theorem describes_iff {json : Bytes} {port : Port} :
    Describes json port ↔ settingCount json port = 7 ∧ 0 < prefixCount json port := by
  rw [settingCount_eq, prefixCount_pos]
  exact ⟨fun h => ⟨h.settings, h.prefixLength⟩, fun h => ⟨h.1, h.2⟩⟩

end Candidate

open Candidate

theorem Port.forall {P : Port → Prop} : (∀ port, P port) ↔ P .eth0 ∧ P .eth1 :=
  ⟨fun h => ⟨h .eth0, h .eth1⟩, fun h port => by cases port <;> [exact h.1; exact h.2]⟩

/-- An accepted document is complete if it has all eighteen keys, or if it gives the prefix of
neither interface in both forms. -/
theorem candidate_complete_iff {json : Bytes} {config : NetworkConfig} (h : parseFlatJson json = some config) :
    Complete json ↔ (keys json).length = 18 ∨ ∀ port, ¬ GivesBothPrefixes json port := by
  have hlength := keys_length h
  have hcount := (keys_of_accepted h).2.2
  have hsettings0 := settingCount_le json .eth0
  have hsettings1 := settingCount_le json .eth1
  have hprefix0 := prefixCount_le json .eth0
  have hprefix1 := prefixCount_le json .eth1
  rw [Complete, Port.forall, Port.forall, describes_iff, describes_iff, ← prefixCount_eq,
    ← prefixCount_eq]
  omega

/-! ### A lopsided document -/

/-- Nine settings of the first interface and seven of the second. -/
def lopsidedMembers : List (Port × FlatField) :=
  flatFields.map (Port.eth0, ·) ++
    [.string .mode, .string .address, .number .prefixLength, .string .gateway, .string .dns1,
      .string .dns2, .string .hostname].map (Port.eth1, ·)

def lopsided : Bytes :=
  '{'.toUInt8 :: ((ascii ",").intercalate (lopsidedMembers.map (memberText {})) ++ ascii "\x7d")

theorem recorded_default (port : Port) : (({} : NetworkConfig).port port).Recorded := by
  refine ⟨?_, ?_, ?_, fun field => ?_⟩
  · cases port <;> decide
  · cases port <;> decide
  · cases port <;> decide
  · cases port <;> cases field <;> decide +kernel

theorem lopsidedMembers_known : ∀ m ∈ lopsidedMembers, m ∈ flatMembers := by
  simp [lopsidedMembers, flatMembers, flatFields]

theorem readObject_lopsided : FlatJsonParser.readObject lopsided =
    some (lopsidedMembers.foldl (FlatJsonParser.taken {}) {}) := by
  have hmembers := @FlatJsonParser.readMembers_written {} recorded_default lopsidedMembers {}
    (by decide) lopsidedMembers_known (by decide +kernel) fun _ _ => List.not_mem_nil
  obtain ⟨more, hmore⟩ : ∃ more, (ascii ",").intercalate (lopsidedMembers.map (memberText {})) ++
      ascii "\x7d" = '"'.toUInt8 :: more := ⟨_, rfl⟩
  have hbrace : skipSpace lopsided = '{'.toUInt8 :: '"'.toUInt8 :: more := by
    rw [lopsided, hmore]
    exact Config.skipSpace_of_not (by decide) _
  have hquote : skipSpace ('"'.toUInt8 :: more) = '"'.toUInt8 :: more :=
    Config.skipSpace_of_not (by decide) _
  have hnotEmpty : (consume '}'.toUInt8 ('"'.toUInt8 :: more)).isSome = false := rfl
  rw [hmore] at hmembers
  rw [FlatJsonParser.readObject, hbrace, consume, if_pos rfl, Option.bind_some, hquote, hnotEmpty,
    if_neg Bool.false_ne_true, hmembers]

theorem keys_lopsided : keys lopsided =
    (lopsidedMembers.map fun m => flatKey m.1 m.2.suffix).reverse := by
  rw [keys, readObject_lopsided, Option.elim_some, FlatJsonParser.seen_foldl_taken]
  exact List.append_nil _

/-- It is accepted, and the second interface has the default's DHCP timeout. -/
theorem parseFlatJson_lopsided : parseFlatJson lopsided = some {} := by
  have hlength : ¬ 16 * 1024 < lopsided.length := by decide +kernel
  have hcount : (lopsidedMembers.foldl (FlatJsonParser.taken {}) {}).seen.length ∈
      FlatJsonParser.fieldCounts := by
    rw [FlatJsonParser.seen_foldl_taken]
    decide
  have happly : (lopsidedMembers.foldl (FlatJsonParser.taken {}) {}).applyStringValues = some {} := by
    decide +kernel
  rw [parseFlatJson, if_neg hlength, FlatJsonParser.parse_eq, readObject_lopsided, Option.bind_some,
    if_pos hcount, happly]

theorem lopsided_candidate_complete_iff : Complete lopsided ↔
    (keys lopsided).length = 18 ∨ ∀ port, ¬ GivesBothPrefixes lopsided port :=
  candidate_complete_iff parseFlatJson_lopsided

theorem lopsided_incomplete : parseFlatJson lopsided = some {} ∧ ¬ Complete lopsided := by
  refine ⟨parseFlatJson_lopsided, fun h => ?_⟩
  have hgives : Gives lopsided .eth1 (.number .dhcpTimeoutSeconds) :=
    (h .eth1).settings _ (by simp [settings])
  rw [Gives, keys_lopsided] at hgives
  revert hgives
  decide +kernel

end Uhf.Network
