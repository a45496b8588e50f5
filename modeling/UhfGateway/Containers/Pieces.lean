/-
A buffer that is filled piece by piece.

`fill` appends pieces until the buffer has a given size; what comes out goes past that size by
less than a piece.

* `fill_fill` — filling in two stages;
* `length_fill_le` — how far the last piece can reach;
* `fill_singles`, `fill_burst` — the smallest and the largest outcome.
-/
import Mathlib.Algebra.Order.Ring.Nat

namespace Containers

variable {α : Type} {size size' most : ℕ} {buffer : List α} {pieces : List (List α)}

/-- The buffer once it has the size, with the pieces that are left over. -/
def fill (size : ℕ) (buffer : List α) : List (List α) → List α × List (List α)
  | [] => (buffer, [])
  | piece :: pieces =>
    if size ≤ buffer.length then (buffer, piece :: pieces) else fill size (buffer ++ piece) pieces

theorem fill_stop (h : size ≤ buffer.length) : fill size buffer pieces = (buffer, pieces) := by
  cases pieces with
  | nil => rfl
  | cons piece pieces => rw [fill, if_pos h]

theorem fill_next {piece : List α} (h : buffer.length < size) :
    fill size buffer (piece :: pieces) = fill size (buffer ++ piece) pieces := by
  rw [fill, if_neg (Nat.not_le.mpr h)]

/-- Nothing is lost. -/
theorem fill_content : (fill size buffer pieces).1 ++ (fill size buffer pieces).2.flatten =
    buffer ++ pieces.flatten := by
  induction pieces generalizing buffer with
  | nil => rfl
  | cons piece pieces ih =>
    rw [fill]
    split
    · rfl
    · rw [ih, List.flatten_cons, List.append_assoc]

theorem fill_isPrefix : (fill size buffer pieces).1 <+: buffer ++ pieces.flatten :=
  ⟨_, fill_content⟩

theorem buffer_isPrefix_fill : buffer <+: (fill size buffer pieces).1 := by
  induction pieces generalizing buffer with
  | nil => exact List.prefix_rfl
  | cons piece pieces ih =>
    rw [fill]
    split
    · exact List.prefix_rfl
    · exact (List.prefix_append buffer piece).trans ih

theorem fill_isSuffix : (fill size buffer pieces).2 <:+ pieces := by
  induction pieces generalizing buffer with
  | nil => exact List.suffix_rfl
  | cons piece pieces ih =>
    rw [fill]
    split
    · exact List.suffix_rfl
    · exact ih.trans (List.suffix_cons piece pieces)

/-- The buffer gets its size if there is enough for it. -/
theorem size_le_fill (h : size ≤ (buffer ++ pieces.flatten).length) :
    size ≤ (fill size buffer pieces).1.length := by
  induction pieces generalizing buffer with
  | nil => rwa [List.flatten_nil, List.append_nil] at h
  | cons piece pieces ih =>
    rw [fill]
    split
    · assumption
    · exact ih (by rwa [List.append_assoc])

/-- The last piece reaches past the size by less than its length. -/
theorem length_fill_le (hpieces : ∀ piece ∈ pieces, piece.length ≤ most) :
    (fill size buffer pieces).1 = buffer ∨ (fill size buffer pieces).1.length < size + most := by
  induction pieces generalizing buffer with
  | nil => exact .inl rfl
  | cons piece pieces ih =>
    obtain ⟨hpiece, hrest⟩ := List.forall_mem_cons.mp hpieces
    rw [fill]
    split
    · exact .inl rfl
    · next hsize =>
      right
      obtain heq | hlt := @ih (buffer ++ piece) hrest
      · rw [heq, List.length_append]
        omega
      · exact hlt

theorem fill_fill (h : size ≤ size') :
    fill size' (fill size buffer pieces).1 (fill size buffer pieces).2 = fill size' buffer pieces := by
  induction pieces generalizing buffer with
  | nil => rfl
  | cons piece pieces ih =>
    by_cases hfull : size ≤ buffer.length
    · rw [fill_stop hfull]
    · rw [fill_next (Nat.not_le.mp hfull), fill_next (Nat.lt_of_lt_of_le (Nat.not_le.mp hfull) h)]
      exact ih

theorem fill_append {later : List (List α)} (h : (buffer ++ pieces.flatten).length < size) :
    fill size buffer (pieces ++ later) = fill size (buffer ++ pieces.flatten) later := by
  induction pieces generalizing buffer with
  | nil => rw [List.flatten_nil, List.append_nil, List.nil_append]
  | cons piece pieces ih =>
    rw [List.flatten_cons, ← List.append_assoc] at h ⊢
    have hroom : buffer.length < size := by
      rw [List.length_append, List.length_append] at h
      omega
    rw [List.cons_append, fill_next hroom, ih h]

/-! ### Pieces of one, and one large piece -/

/-- One piece for each entry. -/
def singles (content : List α) : List (List α) := content.map fun a => [a]

theorem flatten_singles (content : List α) : (singles content).flatten = content := by
  induction content with
  | nil => rfl
  | cons a content ih => exact congrArg (a :: ·) ih

theorem mem_singles {content piece : List α} (h : piece ∈ singles content) : piece.length = 1 := by
  obtain ⟨a, -, rfl⟩ := List.mem_map.mp h
  rfl

/-- Pieces of one stop at the size. -/
theorem fill_singles {content : List α} (h : buffer.length + content.length ≥ size)
    (hbuffer : buffer.length ≤ size) :
    (fill size buffer (singles content)).1 = buffer ++ content.take (size - buffer.length) := by
  induction content generalizing buffer with
  | nil => rw [List.take_nil, List.append_nil]; rfl
  | cons a content ih =>
    rw [List.length_cons] at h
    obtain heq | hlt := Nat.eq_or_lt_of_le hbuffer
    · rw [fill_stop (Nat.le_of_eq heq.symm), heq, Nat.sub_self, List.take_zero, List.append_nil]
    · have hlength : (buffer ++ [a]).length = buffer.length + 1 := List.length_append
      rw [singles, List.map_cons, fill_next hlt]
      refine (ih (by omega) (by omega)).trans ?_
      rw [hlength, List.append_assoc, show size - buffer.length = size - (buffer.length + 1) + 1 by omega]
      rfl

theorem fill_singles_nil {content : List α} (h : size ≤ content.length) :
    (fill size [] (singles content)).1 = content.take size := by
  rw [fill_singles (by rw [List.length_nil]; omega) (Nat.zero_le size), List.length_nil,
    Nat.sub_zero, List.nil_append]

/-- Single entries, then one piece of up to `most`, then single entries again. -/
def burst (start most : ℕ) (content : List α) : List (List α) :=
  singles (content.take start) ++ (content.drop start).take most ::
    singles ((content.drop start).drop most)

theorem flatten_burst (start most : ℕ) (content : List α) :
    (burst start most content).flatten = content := by
  rw [burst, List.flatten_append, List.flatten_cons, flatten_singles, flatten_singles,
    List.take_append_drop, List.take_append_drop]

/-- A piece that begins just before the size reaches as far as it can. -/
theorem fill_burst {start most : ℕ} {content : List α} (hstart : start < content.length)
    (hmost : 0 < most) :
    (fill (start + 1) [] (burst start most content)).1 = content.take (start + most) := by
  have hbefore : ([] ++ (singles (content.take start)).flatten).length < start + 1 := by
    rw [flatten_singles, List.nil_append, List.length_take]
    omega
  rw [burst, fill_append hbefore, flatten_singles, List.nil_append, fill_next, fill_stop,
    ← List.take_add]
  · rw [← List.take_add, List.length_take]
    omega
  · rw [List.length_take]
    omega

end Containers
