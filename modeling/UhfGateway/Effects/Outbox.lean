/-
A buffer that holds one message and is sent in pieces.

`Drains Whole stream pending begun` relates what has been sent so far to what the buffer
still holds: the pending bytes are the rest of a whole message, and the stream ends with
the beginning of it.  `begun` is whether that beginning may be there.

* `Drains.send` — sending any part of the buffer;
* `Drains.assign` — a new message, if none has begun;
* `Drains.framed` — the stream is whole messages and a beginning of one more.
-/
import Mathlib.Data.List.Basic
import Mathlib.Tactic.Common

namespace Effects

variable {α : Type} {Whole : List α → Prop} {stream pending message : List α} {begun : Bool}

/-- Whole messages one after the other, and a beginning of one more. -/
def Framed (Whole : List α → Prop) (stream : List α) : Prop :=
  ∃ (messages : List (List α)) (part message : List α),
    (∀ m ∈ messages, Whole m) ∧ Whole message ∧ part <+: message ∧ stream = messages.flatten ++ part

def Drains (Whole : List α → Prop) (stream pending : List α) (begun : Bool) : Prop :=
  ∃ (messages : List (List α)) (part : List α),
    (∀ m ∈ messages, Whole m) ∧ stream = messages.flatten ++ part ∧
    (pending = [] → part = []) ∧ (pending ≠ [] → Whole (part ++ pending)) ∧
    (begun = false → part = [])

theorem Drains.empty : Drains Whole [] [] false :=
  ⟨[], [], by simp, rfl, fun _ => rfl, fun h => absurd rfl h, fun _ => rfl⟩

/-- A message takes the place of one that is not on its way. -/
theorem Drains.assign (h : Drains Whole stream pending begun) (hfree : begun = true → pending = [])
    (hmessage : Whole message) : Drains Whole stream message false := by
  obtain ⟨messages, part, hwhole, hstream, hdone, hrest, hbegun⟩ := h
  have hpart : part = [] := by
    cases begun with
    | false => exact hbegun rfl
    | true => exact hdone (hfree rfl)
  subst hpart
  refine ⟨messages, [], hwhole, hstream, fun _ => rfl, fun _ => ?_, fun _ => rfl⟩
  rw [List.nil_append]
  exact hmessage

theorem Drains.send (h : Drains Whole stream pending begun) (hpending : pending ≠ []) (n : ℕ) :
    Drains Whole (stream ++ pending.take n) (pending.drop n) (begun || decide (0 < n)) := by
  obtain ⟨messages, part, hwhole, rfl, -, hrest, hbegun⟩ := h
  have hsplit := List.take_append_drop n pending
  by_cases hdrop : pending.drop n = []
  · -- the message is complete
    rw [hdrop, List.append_nil] at hsplit
    refine ⟨messages ++ [part ++ pending], [], ?_, ?_, fun _ => rfl, fun hne => absurd hdrop hne,
      fun _ => rfl⟩
    · intro m hm
      rcases List.mem_append.mp hm with hm | hm
      · exact hwhole m hm
      · rw [List.mem_singleton.mp hm]
        exact hrest hpending
    · rw [hsplit, List.flatten_append, List.flatten_singleton, List.append_nil, List.append_assoc]
  · refine ⟨messages, part ++ pending.take n, hwhole, ?_, fun hnil => absurd hnil hdrop, ?_, ?_⟩
    · rw [List.append_assoc]
    · intro _
      rw [List.append_assoc, hsplit]
      exact hrest hpending
    · intro hnew
      rw [Bool.or_eq_false_iff, decide_eq_false_iff_not] at hnew
      have hzero : n = 0 := by omega
      rw [hbegun hnew.1, hzero, List.take_zero, List.append_nil]

theorem Drains.framed (h : Drains Whole stream pending begun) (hmessage : Whole message) :
    Framed Whole stream := by
  obtain ⟨messages, part, hwhole, hstream, hdone, hrest, -⟩ := h
  by_cases hpending : pending = []
  · refine ⟨messages, part, message, hwhole, hmessage, ?_, hstream⟩
    rw [hdone hpending]
    exact List.nil_prefix
  · exact ⟨messages, part, part ++ pending, hwhole, hrest hpending, List.prefix_append .., hstream⟩

end Effects
