/-
Finite tables with distinct keys.

A `Table` is Mathlib's association list without dependent values, with the operations on
it that select and change entries.  Which entry of a table comes first is not part of it:
a program that removes "the first" one is given any key of the table.

* `Table.lookup_filter`, `Table.lookup_modify` — what the operations leave behind a key;
* `Table.size_erase_lt`, `Table.size_insert_le` — a table that makes room first stays
  within its limit;
* `Table.total_eq_of_lookup`, `Table.total_insert` — one entry apart from the others in a total.
-/
import Mathlib.Data.List.AList

namespace Containers

variable {K V : Type} [DecidableEq K]

abbrev Table (K V : Type) := AList fun _ : K => V

namespace Table

def size (t : Table K V) : ℕ := t.keys.length

/-- The entries that satisfy `p`. -/
def filter (p : K → V → Bool) (t : Table K V) : Table K V :=
  ⟨t.entries.filter fun entry => p entry.1 entry.2, t.nodupKeys.sublist List.filter_sublist⟩

/-- The value of a key changed in place, if the key is there. -/
def modify (k : K) (f : V → V) (t : Table K V) : Table K V :=
  match t.lookup k with
  | some v => AList.insert k (f v) t
  | none => t

variable {t : Table K V} {k k' : K} {v : V}

theorem lookup_filter (p : K → V → Bool) :
    (t.filter p).lookup k = (t.lookup k).filter (p k) := by
  cases hfound : t.lookup k with
  | none =>
    rw [AList.lookup_eq_none] at hfound
    refine AList.lookup_eq_none.mpr fun hmem => hfound ?_
    obtain ⟨entry, hentry, rfl⟩ := List.mem_map.mp hmem
    exact List.mem_map_of_mem (List.mem_of_mem_filter hentry)
  | some v =>
    have hentry : Sigma.mk k v ∈ t.entries := (List.mem_dlookup_iff t.nodupKeys).mp hfound
    by_cases hp : p k v = true
    · rw [Option.filter_some, if_pos hp]
      exact List.mem_dlookup (filter p t).nodupKeys (List.mem_filter.mpr ⟨hentry, hp⟩)
    · rw [Option.filter_some, if_neg hp]
      refine AList.lookup_eq_none.mpr fun hmem => hp ?_
      obtain ⟨⟨k', v'⟩, hentry', rfl⟩ := List.mem_map.mp hmem
      obtain ⟨hentry', hp'⟩ := List.mem_filter.mp hentry'
      obtain rfl := t.nodupKeys.eq_of_mk_mem hentry hentry'
      exact hp'

theorem lookup_modify (f : V → V) :
    (t.modify k f).lookup k' = if k' = k then (t.lookup k').map f else t.lookup k' := by
  rw [modify]
  split_ifs with hk
  · subst hk
    cases hfound : t.lookup k' with
    | none => exact hfound
    | some v => exact AList.lookup_insert t
  · split
    · exact AList.lookup_insert_ne hk
    · rfl

theorem mem_iff_lookup : k ∈ t ↔ ∃ v, t.lookup k = some v := by
  rw [← AList.lookup_isSome, Option.isSome_iff_exists]

theorem keys_erase_eq_filter : (t.erase k).keys = t.keys.filter (· ≠ k) := by
  rw [AList.keys_erase, t.keys_nodup.erase_eq_filter]
  refine List.filter_congr fun other _ => ?_
  rw [decide_not]
  rfl

theorem keys_insert_eq_filter : AList.keys (t.insert k v) = k :: t.keys.filter (· ≠ k) := by
  rw [AList.keys_insert, ← AList.keys_erase, keys_erase_eq_filter]

omit [DecidableEq K] in
theorem size_filter_le (p : K → V → Bool) : (t.filter p).size ≤ t.size := by
  have hsublist : (t.entries.filter fun entry => p entry.1 entry.2).Sublist t.entries :=
    List.filter_sublist
  exact (hsublist.map Sigma.fst).length_le

theorem size_erase_le : size (t.erase k) ≤ t.size := by
  rw [size, AList.keys_erase]
  exact List.length_erase_le

theorem size_erase_lt (hmem : k ∈ t) : size (t.erase k) < t.size := by
  rw [size, AList.keys_erase, List.length_erase_of_mem hmem]
  exact Nat.sub_lt (List.length_pos_of_mem hmem) Nat.one_pos

theorem size_insert_le : size (t.insert k v) ≤ t.size + 1 := by
  rw [size, AList.keys_insert, List.length_cons]
  exact Nat.succ_le_succ List.length_erase_le

theorem size_insert_of_mem (hmem : k ∈ t) : size (t.insert k v) = t.size := by
  have hpos := List.length_pos_of_mem (AList.mem_keys.mp hmem)
  rw [size, AList.keys_insert, List.length_cons, List.length_erase_of_mem hmem, size]
  omega

theorem size_modify (f : V → V) : (t.modify k f).size = t.size := by
  rw [modify]
  split
  · next hfound => exact size_insert_of_mem (mem_iff_lookup.mpr ⟨_, hfound⟩)
  · rfl

/-! ### Totals -/

/-- What the values add up to. -/
def total (f : V → ℕ) (t : Table K V) : ℕ := t.entries.foldr (fun entry sum => f entry.2 + sum) 0

variable {f : V → ℕ}

omit [DecidableEq K] in
/-- An entry is a summand of its own, wherever it stands. -/
theorem foldr_middle (entry : Sigma fun _ : K => V) (front back : List (Sigma fun _ : K => V)) :
    (front ++ entry :: back).foldr (fun entry sum => f entry.2 + sum) 0 =
      f entry.2 + (front ++ back).foldr (fun entry sum => f entry.2 + sum) 0 := by
  induction front with
  | nil => rfl
  | cons other front ih =>
    rw [List.cons_append, List.foldr_cons, ih, List.cons_append, List.foldr_cons]
    omega

theorem total_eq_of_lookup (h : t.lookup k = some v) : total f t = f v + total f (t.erase k) := by
  have hmem : k ∈ t.entries.keys := mem_iff_lookup.mpr ⟨v, h⟩
  obtain ⟨v', front, back, -, hentries, herase⟩ := List.exists_of_kerase hmem
  have hv : v' = v := by
    have hfound : Sigma.mk k v' ∈ t.entries := by
      rw [hentries]
      exact List.mem_append_right _ List.mem_cons_self
    exact Option.some.inj (((List.mem_dlookup_iff t.nodupKeys).mpr hfound).symm.trans h)
  have hrest : (t.erase k).entries = front ++ back := herase
  rw [total, hentries, foldr_middle, total, hrest, hv]

theorem total_insert : total f (t.insert k v) = f v + total f (t.erase k) := rfl

theorem total_erase_of_lookup_none (h : t.lookup k = none) : total f (t.erase k) = total f t := by
  have hmem : k ∉ t.entries.keys := AList.lookup_eq_none.mp h
  have herase : (t.erase k).entries = t.entries := List.kerase_of_notMem_keys hmem
  rw [total, herase, total]

end Table

end Containers
