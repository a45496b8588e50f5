/-
The changes of a signal.

A signal is a list of values, and what it was before; what is of interest is when it changes.

* `changes_append`, `changes_concat` — how a signal goes on;
* `changes_changes` — the changes of the changes are the changes;
* `changes_of_append`, `eq_of_sublist` — of a signal that changes at every value, the beginning
  does as well, and a part with the same changes is all of it.
-/
import Mathlib.Data.List.Induction
import Mathlib.Tactic.Common

namespace Containers

variable {A : Type*} {before : A} {signal part : List A}

/-- What the signal is now. -/
def current (before : A) (signal : List A) : A := signal.getLast?.getD before

theorem current_nil (before : A) : current before [] = before := rfl

theorem current_concat (before : A) (signal : List A) (value : A) :
    current before (signal ++ [value]) = value := by
  rw [current, List.getLast?_concat, Option.getD_some]

theorem current_cons (before value : A) (rest : List A) :
    current before (value :: rest) = current value rest := by
  cases rest with
  | nil => rfl
  | cons next rest => rw [current, current, List.getLast?_cons_cons, List.getLast?_cons]; rfl

variable [DecidableEq A]

/-- The values of a signal that differ from the ones right before them. -/
def changes : A → List A → List A
  | _, [] => []
  | before, value :: rest =>
    if value = before then changes before rest else value :: changes value rest

/-- A signal in two parts: the second one goes on from where the first has ended. -/
theorem changes_append (before : A) (first second : List A) :
    changes before (first ++ second) =
      changes before first ++ changes (current before first) second := by
  induction first generalizing before with
  | nil => rfl
  | cons value rest ih =>
    rw [List.cons_append, changes, changes, current_cons]
    by_cases hsame : value = before
    · rw [if_pos hsame, if_pos hsame, ih, hsame]
    · rw [if_neg hsame, if_neg hsame, ih, List.cons_append]

theorem changes_concat (before : A) (signal : List A) (value : A) :
    changes before (signal ++ [value]) =
      if value = current before signal then changes before signal
      else changes before signal ++ [value] := by
  rw [changes_append, changes, changes, changes]
  split_ifs
  · exact List.append_nil _
  · rfl

theorem current_changes (before : A) (signal : List A) :
    current before (changes before signal) = current before signal := by
  induction signal using List.reverseRecOn with
  | nil => rfl
  | append_singleton signal value ih =>
    rw [changes_concat, current_concat]
    by_cases hsame : value = current before signal
    · rw [if_pos hsame, ih, hsame]
    · rw [if_neg hsame, current_concat]

theorem changes_changes (before : A) (signal : List A) :
    changes before (changes before signal) = changes before signal := by
  induction signal using List.reverseRecOn with
  | nil => rfl
  | append_singleton signal value ih =>
    rw [changes_concat]
    by_cases hsame : value = current before signal
    · rw [if_pos hsame, ih]
    · rw [if_neg hsame, changes_concat, current_changes, if_neg hsame, ih]

theorem changes_sublist (before : A) (signal : List A) :
    (changes before signal).Sublist signal := by
  induction signal generalizing before with
  | nil => exact .slnil
  | cons value rest ih =>
    rw [changes]
    split_ifs
    · exact (ih before).cons value
    · exact (ih value).cons_cons value

/-- The beginning of a signal that changes at every value does so as well. -/
theorem changes_of_append {first second : List A}
    (h : changes before (first ++ second) = first ++ second) : changes before first = first := by
  rw [changes_append] at h
  have hfirst := (changes_sublist before first).length_le
  have hsecond := (changes_sublist (current before first) second).length_le
  have hlength := congrArg List.length h
  rw [List.length_append, List.length_append] at hlength
  exact (changes_sublist before first).eq_of_length (by omega)

/-- Of a signal that changes at every value nothing is missing where no change is. -/
theorem eq_of_sublist (hpart : part.Sublist signal) (hsignal : changes before signal = signal)
    (h : changes before part = changes before signal) : part = signal := by
  refine hpart.eq_of_length_le ?_
  rw [← hsignal, ← h]
  exact (changes_sublist before part).length_le

end Containers
