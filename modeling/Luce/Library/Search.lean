/-
This file is about where a pattern first occurs in a list.

The search looks at each position in turn whether the pattern begins there. What is
found lies inside the list, something is found if the pattern occurs at all, what
follows the first occurrence does not move it, and what stands in front of it moves it
by its length.
-/

import Mathlib.Data.List.Infix

namespace Library.Search

variable {Symbol : Type*}

/-- Whether a pattern that is not longer than a list begins it does not depend on what
follows the list. -/
theorem prefix_append_iff {pattern list : List Symbol} (fits : pattern.length ≤ list.length)
    (more : List Symbol) : pattern <+: list ++ more ↔ pattern <+: list :=
  ⟨fun starts => List.prefix_of_prefix_length_le starts (List.prefix_append list more) fits,
    fun starts => starts.trans (List.prefix_append list more)⟩

variable [DecidableEq Symbol]

/-- Where the pattern first occurs. -/
def find (pattern : List Symbol) : List Symbol → Option Nat
  | [] => if pattern <+: [] then some 0 else none
  | head :: tail =>
    if pattern <+: head :: tail then some 0 else (find pattern tail).map (· + 1)

variable {pattern : List Symbol}

/-- An occurrence lies inside the list. -/
theorem find_le {list : List Symbol} {position : Nat} (found : find pattern list = some position) :
    position + pattern.length ≤ list.length := by
  induction list generalizing position with
  | nil =>
    rw [find] at found
    split at found
    case isTrue empty =>
      cases found
      simpa using empty.length_le
    case isFalse => cases found
  | cons head tail inductionHypothesis =>
    rw [find] at found
    split at found
    case isTrue starts =>
      cases found
      simpa using starts.length_le
    case isFalse =>
      obtain ⟨earlier, before, rfl⟩ := Option.map_eq_some_iff.mp found
      have inside := inductionHypothesis before
      rw [List.length_cons]
      omega

/-- Whether there is an occurrence at all. -/
theorem find_eq_none_iff {list : List Symbol} : find pattern list = none ↔ ¬ pattern <:+: list := by
  induction list with
  | nil =>
    rw [find]
    split
    case isTrue empty => simp [List.prefix_nil.mp empty]
    case isFalse later => simpa using later
  | cons head tail inductionHypothesis =>
    rw [find, List.infix_cons_iff, not_or]
    split
    case isTrue starts => simp [starts]
    case isFalse later => simp [later, inductionHypothesis]

/-- What follows the first occurrence does not move it. -/
theorem find_append {list : List Symbol} {position : Nat}
    (found : find pattern list = some position) (more : List Symbol) :
    find pattern (list ++ more) = some position := by
  induction list generalizing position with
  | nil =>
    rw [find] at found
    split at found
    case isTrue empty =>
      cases found
      rw [List.prefix_nil.mp empty]
      cases more <;> simp [find]
    case isFalse => cases found
  | cons head tail inductionHypothesis =>
    have fits : pattern.length ≤ (head :: tail).length :=
      (Nat.le_add_left _ _).trans (find_le found)
    have same := prefix_append_iff fits more
    rw [find] at found
    rw [List.cons_append] at same
    rw [List.cons_append, find]
    split at found
    case isTrue starts => rw [if_pos (same.mpr starts), found]
    case isFalse later =>
      obtain ⟨earlier, before, rfl⟩ := Option.map_eq_some_iff.mp found
      rw [if_neg (same.not.mpr later), inductionHypothesis before, Option.map_some]

theorem find_self (pattern : List Symbol) : find pattern pattern = some 0 := by
  cases pattern with
  | nil => rfl
  | cons head tail => exact if_pos (List.prefix_refl _)

/-- What is found stands there, and it is found there without what follows it too. -/
theorem eq_of_find {list : List Symbol} {position : Nat}
    (found : find pattern list = some position) :
    ∃ front behind, list = front ++ pattern ++ behind ∧ front.length = position ∧
      find pattern (front ++ pattern) = some front.length := by
  induction list generalizing position with
  | nil =>
    rw [find] at found
    split at found
    case isTrue empty =>
      cases found
      rw [List.prefix_nil.mp empty]
      exact ⟨[], [], rfl, rfl, rfl⟩
    case isFalse => cases found
  | cons head tail inductionHypothesis =>
    rw [find] at found
    split at found
    case isTrue starts =>
      cases found
      obtain ⟨behind, whole⟩ := starts
      exact ⟨[], behind, whole.symm, rfl, find_self pattern⟩
    case isFalse later =>
      obtain ⟨earlier, before, rfl⟩ := Option.map_eq_some_iff.mp found
      obtain ⟨front, behind, rfl, rfl, closed⟩ := inductionHypothesis before
      have fits : pattern.length ≤ (head :: (front ++ pattern)).length := by
        simp only [List.length_cons, List.length_append]
        omega
      have apart : ¬ pattern <+: head :: (front ++ pattern) :=
        (prefix_append_iff fits behind).not.mp later
      refine ⟨head :: front, behind, rfl, rfl, ?_⟩
      rw [List.cons_append, find, if_neg apart, closed]
      rfl

/-- What does not have the first symbol of the pattern is passed over. -/
theorem find_append_of_not_mem {symbol : Symbol} (starts : pattern.head? = some symbol)
    {front : List Symbol} (absent : symbol ∉ front) (list : List Symbol) :
    find pattern (front ++ list) = (find pattern list).map (· + front.length) := by
  obtain ⟨others, rfl⟩ := List.head?_eq_some_iff.mp starts
  induction front with
  | nil => simp
  | cons head tail inductionHypothesis =>
    obtain ⟨apart, absent⟩ := not_or.mp (List.mem_cons.not.mp absent)
    have later : ¬ symbol :: others <+: head :: (tail ++ list) :=
      fun starts => apart (List.cons_prefix_cons.mp starts).1
    rw [List.cons_append, find, if_neg later, inductionHypothesis absent, Option.map_map]
    rfl

end Library.Search
