/-
Queues worked off until there is enough.

`Drains enough queue level done last`: items are taken off the front of `queue`, each of
them changing the level, until the level is enough or nothing is left.  `done` are the items
taken with the level after each of them, and `last` is the level in the end.

* `Drains.levels_not_enough`, `Drains.getLast_levels` — the levels on the way and the last one;
* `Drains.append` — a queue in two parts, where the first one was not enough;
* `Drains.items`, `Drains.last_eq` — how many items go is given by the levels alone
  (`firstEnough`), and with it the last level.
-/
import Mathlib.Data.List.Range

namespace Containers

variable {A L : Type} {enough : L → Bool}

inductive Drains (enough : L → Bool) : List A → L → List (A × L) → L → Prop
  | stop {queue : List A} {level : L} (h : enough level = true) : Drains enough queue level [] level
  | dry {level : L} : Drains enough [] level [] level
  | next {item : A} {queue : List A} {level after last : L} {done : List (A × L)}
      (h : enough level = false) (rest : Drains enough queue after done last) :
      Drains enough (item :: queue) level ((item, after) :: done) last

/-- The first of the levels `0, …, n - 1` that is enough, or `n` if none is. -/
def firstEnough (enough : L → Bool) (level : ℕ → L) (n : ℕ) : ℕ :=
  ((List.range n).find? fun k => enough (level k)).getD n

theorem firstEnough_of_enough {level : ℕ → L} (h : enough (level 0) = true) (n : ℕ) :
    firstEnough enough level n = 0 := by
  cases n with
  | zero => simp [firstEnough]
  | succ n => simp [firstEnough, List.range_succ_eq_map, h]

theorem firstEnough_succ {level : ℕ → L} (h : enough (level 0) = false) (n : ℕ) :
    firstEnough enough level (n + 1) = firstEnough enough (fun k => level (k + 1)) n + 1 := by
  rw [firstEnough, firstEnough, List.range_succ_eq_map, List.find?_cons, h, List.find?_map]
  cases hfind : (List.range n).find? fun k => enough (level (k + 1)) with
  | none => simp [Function.comp_def, hfind]
  | some k => simp [Function.comp_def, hfind]

/-- The count reaches `m` just if none of the first `m` levels is enough. -/
theorem le_firstEnough_iff {level : ℕ → L} {m n : ℕ} (hmn : m ≤ n) :
    m ≤ firstEnough enough level n ↔ ∀ k < m, enough (level k) = false := by
  induction m generalizing level n with
  | zero => simp
  | succ m ih =>
    obtain ⟨n, rfl⟩ : ∃ n', n = n' + 1 := ⟨n - 1, by omega⟩
    cases h : enough (level 0) with
    | true =>
      rw [firstEnough_of_enough h]
      constructor
      · intro hle
        omega
      · intro hall
        simpa [h] using hall 0 (Nat.succ_pos m)
    | false =>
      rw [firstEnough_succ h, Nat.add_le_add_iff_right, ih (by omega)]
      constructor
      · intro hall k hk
        cases k with
        | zero => exact h
        | succ k => exact hall k (by omega)
      · intro hall k hk
        exact hall (k + 1) (by omega)

namespace Drains

variable {queue first second : List A} {level middle last : L} {done more : List (A × L)}

theorem ends (h : Drains enough queue level done last) :
    enough last = true ∨ done.map Prod.fst = queue := by
  induction h with
  | stop h => exact .inl h
  | dry => exact .inr rfl
  | next _ _ ih =>
    obtain hlast | hitems := ih
    · exact .inl hlast
    · right
      rw [List.map_cons, hitems]

theorem items_of_not_enough (h : Drains enough queue level done last) (hlast : enough last = false) :
    done.map Prod.fst = queue := by
  obtain henough | hitems := h.ends
  · rw [hlast] at henough
    cases henough
  · exact hitems

/-- Where it ends without enough, no level on the way was enough. -/
theorem levels_not_enough (h : Drains enough queue level done last) (hlast : enough last = false) :
    enough level = false ∧ ∀ step ∈ done, enough step.2 = false := by
  induction h with
  | stop h =>
    rw [hlast] at h
    cases h
  | dry => exact ⟨hlast, by simp⟩
  | next h _ ih =>
    refine ⟨h, ?_⟩
    rw [List.forall_mem_cons]
    exact ih hlast

theorem getLast_levels (h : Drains enough queue level done last) :
    (level :: done.map Prod.snd).getLast? = some last := by
  induction h with
  | stop _ => rfl
  | dry => rfl
  | next _ _ ih => rw [List.map_cons, List.getLast?_cons_cons, ih]

theorem append (h : Drains enough first level done middle) (hmiddle : enough middle = false)
    (hsecond : Drains enough second middle more last) :
    Drains enough (first ++ second) level (done ++ more) last := by
  induction h with
  | stop h =>
    rw [hmiddle] at h
    cases h
  | dry => exact hsecond
  | next h _ ih => exact .next h (ih hmiddle hsecond)

/-- Where it stops with enough, it does so in a longer queue. -/
theorem extend (h : Drains enough first level done last) (hlast : enough last = true) :
    Drains enough (first ++ second) level done last := by
  induction h with
  | stop h => exact .stop h
  | dry => exact .stop hlast
  | next h _ ih => exact .next h (ih hlast)

/-- The items taken, for levels that come one after the other. -/
theorem items {levels : ℕ → L} (h : Drains enough queue (levels 0) done last)
    (hdone : ∀ i after, (done.map Prod.snd)[i]? = some after → after = levels (i + 1)) :
    done.map Prod.fst = queue.take (firstEnough enough levels queue.length) := by
  generalize hlevel : levels 0 = level at h
  induction h generalizing levels with
  | stop h =>
    subst hlevel
    simp [firstEnough_of_enough h]
  | dry => simp
  | @next item queue level after last done h _ ih =>
    subst hlevel
    obtain rfl : after = levels 1 := hdone 0 after (by simp)
    have hlater : ∀ i after, (done.map Prod.snd)[i]? = some after → after = levels (i + 1 + 1) :=
      fun i after hi => hdone (i + 1) after (by simpa using hi)
    have hrest := @ih (fun k => levels (k + 1)) hlater rfl
    rw [List.map_cons, hrest, List.length_cons, firstEnough_succ h, List.take_succ_cons]

theorem last_eq {levels : ℕ → L} (h : Drains enough queue (levels 0) done last)
    (hdone : ∀ i after, (done.map Prod.snd)[i]? = some after → after = levels (i + 1)) :
    last = levels done.length := by
  generalize hlevel : levels 0 = level at h
  induction h generalizing levels with
  | stop h => exact hlevel.symm
  | dry => exact hlevel.symm
  | @next item queue level after last done h _ ih =>
    obtain rfl : after = levels 1 := hdone 0 after (by simp)
    have hlater : ∀ i after, (done.map Prod.snd)[i]? = some after → after = levels (i + 1 + 1) :=
      fun i after hi => hdone (i + 1) after (by simpa using hi)
    exact @ih (fun k => levels (k + 1)) hlater rfl

end Drains

end Containers
