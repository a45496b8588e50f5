/-
Which settings a configuration document gives.

The parser judges a document by the number of its keys.  The settings came into being in four
groups, and a document of an older kind has fewer of them; but nothing asks of which group a key
is.

* `complete_iff_fitting` — when an accepted document gives every setting its size calls for;
* `omitted_default` — a setting that is left out has its default value.
-/
import UhfGateway.Config.Codec
import UhfGateway.Containers.Selection

namespace Uhf.Config

open Containers

/-! ### The groups of settings -/

def baseKeys : List Bytes :=
  [ascii "acquisition_device", ascii "acquisition_slave_id", ascii "acquisition_period_ms",
    ascii "acquisition_response_timeout_ms", ascii "acquisition_max_retries", ascii "rtu_device",
    ascii "rtu_unit_id", ascii "modbus_tcp_bind", ascii "modbus_tcp_unit_id",
    ascii "modbus_tcp_port", ascii "web_port", ascii "tls_enabled", ascii "iec_enabled",
    ascii "iec_port", ascii "iec_ied_name", ascii "storage_period_seconds",
    ascii "storage_retention_days", ascii "storage_min_free_bytes"]

def eventKeys : List Bytes :=
  [ascii "storage_event_threshold_dbm", ascii "storage_event_rearm_dbm",
    ascii "storage_event_delta_db", ascii "storage_event_merge_seconds"]

def overviewKeys : List Bytes :=
  [ascii "overview_title", ascii "overview_device", ascii "phase_start_degree",
    ascii "time_sync_enabled", ascii "sntp_server"]

def ftpKeys : List Bytes := [ascii "ftp_enabled", ascii "ftp_port"]

def groupedKeys : List Bytes := baseKeys ++ (eventKeys ++ (overviewKeys ++ ftpKeys))

/-- The settings for files and the overview stand in the middle of what is written. -/
theorem groupedKeys_perm : groupedKeys.Perm (members.map Member.key) := by
  have hgroups : ∀ first files overview storage events : List Bytes,
      ((first ++ storage) ++ (events ++ (overview ++ files))).Perm
        (first ++ (files ++ (overview ++ (storage ++ events)))) := by
    intro first files overview storage events
    rw [List.perm_iff_count]
    intro key
    simp only [List.count_append]
    omega
  have hgrouped : groupedKeys = (baseKeys.take 15 ++ baseKeys.drop 15) ++
      (eventKeys ++ (overviewKeys ++ ftpKeys)) := by
    rw [List.take_append_drop, groupedKeys]
  have hkeys : members.map Member.key = baseKeys.take 15 ++
      (ftpKeys ++ (overviewKeys ++ (baseKeys.drop 15 ++ eventKeys))) := by
    simp only [members, Member.key, baseKeys, ftpKeys, overviewKeys, eventKeys, List.map_cons,
      List.map_nil, List.take_succ_cons, List.take_zero, List.drop_succ_cons, List.drop_zero,
      List.cons_append, List.nil_append]
  rw [hkeys, hgrouped]
  exact hgroups _ _ _ _ _

theorem groupedKeys_nodup : groupedKeys.Nodup := groupedKeys_perm.nodup_iff.mpr nodup_keys

theorem knownKeys_grouped {key : Bytes} (h : key ∈ knownKeys) (hversion : key ≠ ascii "version") :
    key ∈ groupedKeys := by
  obtain heq | hkey := List.mem_cons.mp h
  · exact absurd heq hversion
  · exact groupedKeys_perm.mem_iff.mpr hkey

/-! ### Documents -/

/-- The settings that the document gives. -/
def settingKeys (json : Bytes) : List Bytes :=
  (documentKeys json).filter (· ≠ ascii "version")

/-- The document gives the settings of its kind, as its size tells it. -/
structure Complete (json : Bytes) : Prop where
  base : ∀ key ∈ baseKeys, key ∈ settingKeys json
  event : 22 ≤ (settingKeys json).length → ∀ key ∈ eventKeys, key ∈ settingKeys json
  overview : 27 ≤ (settingKeys json).length → ∀ key ∈ overviewKeys, key ∈ settingKeys json
  ftp : (settingKeys json).length = 29 → ∀ key ∈ ftpKeys, key ∈ settingKeys json

/-- The document brings no more of the later settings than its size leaves room for. -/
structure Fitting (json : Bytes) : Prop where
  base : selected (settingKeys json) (eventKeys ++ (overviewKeys ++ ftpKeys)) + 18 ≤
    (settingKeys json).length
  event : 22 ≤ (settingKeys json).length →
    selected (settingKeys json) (overviewKeys ++ ftpKeys) + 22 ≤ (settingKeys json).length
  overview : 27 ≤ (settingKeys json).length →
    selected (settingKeys json) ftpKeys + 27 ≤ (settingKeys json).length

theorem settingKeys_length {json : Bytes} {values : Values} (h : parseValues json = some values) :
    (settingKeys json).length = selected (settingKeys json) baseKeys +
      (selected (settingKeys json) eventKeys + (selected (settingKeys json) overviewKeys +
        selected (settingKeys json) ftpKeys)) := by
  obtain ⟨hnodup, hknown, -⟩ := accepted_members h
  have hgrouped : ∀ key ∈ settingKeys json, key ∈ groupedKeys := by
    intro key hkey
    obtain ⟨hkey, hversion⟩ := List.mem_filter.mp hkey
    exact knownKeys_grouped (hknown key hkey) (by simpa using hversion)
  have hsettings : (settingKeys json).Nodup := hnodup.filter _
  rw [length_eq_selected hsettings groupedKeys_nodup hgrouped, groupedKeys, selected_append,
    selected_append, selected_append]

/-- A group is given if its count is the size of the group. -/
theorem given_iff {json : Bytes} {group : List Bytes} {size : ℕ} (hsize : group.length = size) :
    (∀ key ∈ group, key ∈ settingKeys json) ↔ size ≤ selected (settingKeys json) group := by
  have hle : selected (settingKeys json) group ≤ group.length := selected_le
  rw [← selected_eq_length]
  omega

theorem complete_iff_counts {json : Bytes} : Complete json ↔
    18 ≤ selected (settingKeys json) baseKeys ∧
      (22 ≤ (settingKeys json).length → 4 ≤ selected (settingKeys json) eventKeys) ∧
      (27 ≤ (settingKeys json).length → 5 ≤ selected (settingKeys json) overviewKeys) ∧
      ((settingKeys json).length = 29 → 2 ≤ selected (settingKeys json) ftpKeys) := by
  have hbase := @given_iff json baseKeys 18 rfl
  have hevent := @given_iff json eventKeys 4 rfl
  have hoverview := @given_iff json overviewKeys 5 rfl
  have hftp := @given_iff json ftpKeys 2 rfl
  rw [← hbase, ← hevent, ← hoverview, ← hftp]
  exact ⟨fun h => ⟨h.base, h.event, h.overview, h.ftp⟩, fun h => ⟨h.1, h.2.1, h.2.2.1, h.2.2.2⟩⟩

theorem complete_iff_fitting {json : Bytes} {values : Values} (h : parseValues json = some values) :
    Complete json ↔ Fitting json := by
  have hlength := settingKeys_length h
  have hbase : selected (settingKeys json) baseKeys ≤ 18 := selected_le
  have hevent : selected (settingKeys json) eventKeys ≤ 4 := selected_le
  have hoverview : selected (settingKeys json) overviewKeys ≤ 5 := selected_le
  have hftp : selected (settingKeys json) ftpKeys ≤ 2 := selected_le
  rw [complete_iff_counts]
  constructor
  · rintro ⟨hbaseFull, heventFull, hoverviewFull, -⟩
    refine ⟨?_, ?_, ?_⟩
    · rw [selected_append, selected_append]
      omega
    · rw [selected_append]
      omega
    · omega
  · rintro ⟨hbaseFits, heventFits, hoverviewFits⟩
    rw [selected_append, selected_append] at hbaseFits
    rw [selected_append] at heventFits
    omega

theorem all_given_iff {json : Bytes} {values : Values} (h : parseValues json = some values) :
    (∀ m ∈ members, m.key ∈ settingKeys json) ↔ (settingKeys json).length = 29 := by
  have hlength := settingKeys_length h
  have hgiven := @given_iff json groupedKeys 29 rfl
  have hle : selected (settingKeys json) groupedKeys ≤ 29 := selected_le
  have hgroups : selected (settingKeys json) groupedKeys = (settingKeys json).length := by
    rw [hlength, groupedKeys, selected_append, selected_append, selected_append]
  have hmembers : (∀ m ∈ members, m.key ∈ settingKeys json) ↔
      ∀ key ∈ groupedKeys, key ∈ settingKeys json := by
    rw [← List.forall_mem_map (f := Member.key) (P := (· ∈ settingKeys json))]
    exact forall_congr' fun key => imp_congr_left groupedKeys_perm.mem_iff.symm
  rw [hmembers, hgiven]
  omega

/-! ### Settings that are left out -/

/-- Two configurations have the same value of the member. -/
def Member.Agrees (values values' : Values) : Member → Prop
  | text _ get _ => get values = get values'
  | boolean _ get _ => get values = get values'
  | unsigned _ _ _ get _ => get values = get values'
  | signed _ _ _ get _ => get values = get values'

theorem Member.Agrees.trans {m : Member} {values values' values'' : Values}
    (h : m.Agrees values values') (h' : m.Agrees values' values'') : m.Agrees values values'' := by
  cases m <;> exact Eq.trans h h'

theorem Member.agrees_refl (m : Member) (values : Values) : m.Agrees values values := by
  cases m <;> rfl

set_option maxRecDepth 2000 in
/-- A member is stored, and the others are what they were. -/
theorem Member.Stores.frame {values values' : Values} {stored : Member} (hm : stored ∈ members)
    (h : stored.Stores values values') :
    ∀ m ∈ members, m.key ≠ stored.key → m.Agrees values' values := by
  simp only [members, List.mem_cons, List.not_mem_nil, or_false] at hm
  rcases hm with rfl | rfl | rfl | rfl | rfl | rfl | rfl | rfl | rfl | rfl | rfl | rfl | rfl | rfl |
    rfl | rfl | rfl | rfl | rfl | rfl | rfl | rfl | rfl | rfl | rfl | rfl | rfl | rfl | rfl
  all_goals
    cases h
    simp only [members, List.forall_mem_cons, Member.Agrees, Member.key, ne_eq, not_true,
      implies_true, false_imp_iff, and_true, List.not_mem_nil]

theorem parseField_frame {key : Bytes} {values values' : Values} {input rest : Bytes}
    (h : parseField key values input = some (values', rest)) :
    ∀ m ∈ members, m.key ≠ key → m.Agrees values' values := by
  rw [parseField] at h
  split at h
  · obtain ⟨⟨version, rest'⟩, -, hr⟩ := Option.bind_eq_some_iff.mp h
    simp only [Option.ite_none_left_eq_some, Option.some.injEq, Prod.mk.injEq] at hr
    obtain ⟨-, rfl, -⟩ := hr
    exact fun m _ _ => m.agrees_refl values
  · obtain ⟨stored, hfound, hstored⟩ := Option.bind_eq_some_iff.mp h
    have hkey : stored.key = key := by simpa using List.find?_some hfound
    rw [← hkey]
    exact (stored.parse_stores hstored).frame (List.mem_of_find?_eq_some hfound)

theorem readMembers_frame {keys : List Bytes} {values values' : Values} {input : Bytes}
    {ws : List WrittenMember} (h : readMembers keys values input = some (ws, values')) :
    ∀ m ∈ members, m.key ∉ ws.map WrittenMember.key → m.Agrees values' values := by
  fun_induction readMembers keys values input generalizing ws values' with
  | case1 => cases h
  | case2 keys values input w values'' rest hmember behind hbrace hlast =>
    cases h
    obtain ⟨-, behind, colon, field, -, -, hfield, -⟩ := readMember_eq_some hmember
    intro m hm hkey
    exact parseField_frame hfield m hm fun heq => hkey (List.mem_singleton.mpr heq)
  | case3 => cases h
  | case4 => cases h
  | case5 keys values input w values'' rest hmember hbrace more hcomma ih =>
    obtain ⟨⟨ws', later⟩, hread, hr⟩ := Option.map_eq_some_iff.mp h
    cases hr
    obtain ⟨-, behind, colon, field, -, -, hfield, -⟩ := readMember_eq_some hmember
    intro m hm hkey
    rw [List.map_cons, List.mem_cons, not_or] at hkey
    exact (ih hread m hm hkey.2).trans (parseField_frame hfield m hm hkey.1)

/-- A setting that the document leaves out has its default value. -/
theorem omitted_default {json : Bytes} {values : Values} (h : parseValues json = some values) :
    ∀ m ∈ members, m.key ∉ settingKeys json → m.Agrees values {} := by
  obtain ⟨hobject, -⟩ := parseValues_eq_some h
  obtain ⟨rest, -, hread⟩ := Option.bind_eq_some_iff.mp hobject
  rw [Option.ite_none_left_eq_some] at hread
  intro m hm homitted
  refine readMembers_frame hread.2 m hm fun hkey => homitted (List.mem_filter.mpr ⟨hkey, ?_⟩)
  exact decide_eq_true (version_not_key m hm)

/-! ### Accepted documents -/

/-- An accepted document gives the settings of its kind exactly if it fits, it gives every setting
there is exactly if it has twenty-nine of them, and what it leaves out has the default value. -/
theorem document_complete_iff {json : Bytes} {values : Values} (h : parseValues json = some values) :
    (Complete json ↔ Fitting json) ∧
      ((∀ m ∈ members, m.key ∈ settingKeys json) ↔ (settingKeys json).length = 29) ∧
      ∀ m ∈ members, m.key ∉ settingKeys json → m.Agrees values {} :=
  ⟨complete_iff_fitting h, all_given_iff h, omitted_default h⟩

/-! ### A document of eighteen keys -/

/-- The first members as they are written: fifteen base settings and three later ones. -/
def cutMembers : List Member := members.take 18

def cutShort : Bytes :=
  ascii "\x7b\n  " ++ ((ascii ",\n  ").intercalate
    (cutMembers.map fun m => entry m.key (m.write {})) ++ fileEnd)

theorem cutMembers_mem : ∀ m ∈ cutMembers, m ∈ members := fun _ hm => List.mem_of_mem_take hm

theorem cutMembers_writable : ∀ m ∈ cutMembers, m.Writable {} :=
  fun m hm => validate_writable validate_defaults defaults_inRange m (cutMembers_mem m hm)

theorem cutMembers_admits : ∀ m ∈ cutMembers, m.Admits {} :=
  fun m hm => defaults_inRange m (cutMembers_mem m hm)

theorem readObject_cutShort : readObject {} cutShort =
    some (cutMembers.map (Member.written {}), {}) := by
  have hnodup : (cutMembers.map Member.key).Nodup :=
    nodup_keys.sublist ((List.take_sublist 18 members).map Member.key)
  have hne : cutMembers ≠ [] := List.cons_ne_nil _ _
  have hread := @readMembers_members {} {} cutMembers [] hne cutMembers_mem hnodup
    (fun _ _ => List.not_mem_nil) cutMembers_admits cutMembers_writable
  rw [foldl_copy_self cutMembers_mem] at hread
  obtain ⟨more, hmore⟩ := @members_head {} cutMembers hne fileEnd
  rw [cutShort, hmore, readObject_quote, ← hmore, hread]

theorem documentKeys_cutShort : documentKeys cutShort = cutMembers.map Member.key := by
  rw [documentKeys, documentMembers, readObject_cutShort, Option.elim_some, List.map_map]
  rfl

theorem length_cutShort_le : cutShort.length ≤ kMaxConfigBytes := by
  have hcut := length_members_le cutMembers_admits cutMembers_writable
  have hall : (cutMembers.map fun m => m.key.length + m.bound + 8).sum ≤
      (members.map fun m => m.key.length + m.bound + 8).sum :=
    ((List.take_sublist 18 members).map _).sum_le_sum fun _ _ => Nat.zero_le _
  have hsize := members_size
  have hfirst : (ascii "\x7b\n  ").length = 4 := rfl
  have hlast : fileEnd.length = 3 := rfl
  rw [cutShort, kMaxConfigBytes, List.length_append, List.length_append]
  omega

/-- It is accepted, with the defaults for the settings that it leaves out. -/
theorem parseValues_cutShort : parseValues cutShort = some {} := by
  obtain ⟨rest, hbrace, hread⟩ := Option.bind_eq_some_iff.mp readObject_cutShort
  rw [Option.ite_none_left_eq_some] at hread
  rw [parseValues, if_neg (Nat.not_lt.mpr length_cutShort_le), parseObject, hbrace,
    Option.bind_some, if_neg hread.1, parseMembers_eq, hread.2, Option.bind_some]
  exact if_pos (by decide)

theorem cutShort_document_complete_iff : Complete cutShort ↔ Fitting cutShort :=
  (document_complete_iff parseValues_cutShort).1

/-- The store accepts the document, and it is not complete. -/
theorem cutShort_incomplete : (parseValues cutShort = some {} ∧ validate {} = true) ∧
    ¬ Complete cutShort := by
  refine ⟨⟨parseValues_cutShort, validate_defaults⟩, fun h => ?_⟩
  have hgiven := h.base (ascii "storage_period_seconds") (by simp [baseKeys])
  have hlater : ascii "storage_period_seconds" ∈ (members.map Member.key).drop 18 :=
    List.mem_of_mem_drop (i := 4) List.mem_cons_self
  rw [settingKeys, documentKeys_cutShort, cutMembers, List.map_take] at hgiven
  exact List.disjoint_take_drop nodup_keys (Nat.le_refl 18) (List.mem_filter.mp hgiven).1 hlater

end Uhf.Config
