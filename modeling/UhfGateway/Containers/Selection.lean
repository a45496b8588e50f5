/-
How many elements of a group a duplicate-free list selects.

A list without duplicates whose elements come from `all` is judged by counting: group for group,
`selected` says how many elements are there, and the counts add up to the length of the list.

* `length_eq_selected` — the length is the count over all groups;
* `selected_eq_length` — a count is full exactly if nothing of the group is missing.
-/
import Mathlib.Data.List.Nodup
import Mathlib.Data.List.Flatten

namespace Containers

variable {α : Type} [DecidableEq α] {keys group later all : List α}

/-- The number of elements of the group that are among the keys. -/
def selected (keys group : List α) : ℕ := group.countP (· ∈ keys)

theorem selected_append : selected keys (group ++ later) = selected keys group + selected keys later :=
  List.countP_append

theorem selected_le : selected keys group ≤ group.length := List.countP_le_length

theorem selected_eq_length : selected keys group = group.length ↔ ∀ key ∈ group, key ∈ keys := by
  rw [selected, List.countP_eq_length]
  simp only [decide_eq_true_eq]

theorem selected_pos : 0 < selected keys group ↔ ∃ key ∈ group, key ∈ keys := by
  rw [selected, List.countP_pos_iff]
  simp only [decide_eq_true_eq]

theorem length_eq_selected (hkeys : keys.Nodup) (hall : all.Nodup) (hsub : ∀ key ∈ keys, key ∈ all) :
    keys.length = selected keys all := by
  have hperm : keys.Perm (all.filter (· ∈ keys)) := by
    refine (List.perm_ext_iff_of_nodup hkeys (hall.filter _)).mpr fun key => ?_
    rw [List.mem_filter, decide_eq_true_eq]
    exact ⟨fun hkey => ⟨hsub key hkey, hkey⟩, fun hkey => hkey.2⟩
  rw [hperm.length_eq, selected, List.countP_eq_length_filter]

end Containers
