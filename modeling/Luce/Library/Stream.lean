/-
This file is a stream that is delivered in pieces: the symbols that are still to
come, and a schedule of what the next attempts to read will do. An attempt either
hands over a non-empty prefix of what was asked for, or fails and takes nothing.
A schedule that has run out hands over whatever is asked for, and a stream that
has run out hands over nothing.
-/

import Mathlib.Data.List.Basic

namespace Library.Stream

/-- What one attempt to read does. -/
inductive Delivery (Failure : Type) where
  | deliver (count : Nat) (positive : 0 < count)
  | fail (failure : Failure)
deriving DecidableEq, Repr

structure Source (Symbol Failure : Type) where
  pending : List Symbol
  events : List (Delivery Failure)
deriving DecidableEq, Repr

variable {Symbol Failure : Type}

/-- One attempt to read at most `len` symbols. -/
def Source.read (source : Source Symbol Failure) (len : Nat) :
    Except Failure (List Symbol) × Source Symbol Failure :=
  match source.events with
  | [] => (.ok (source.pending.take len), ⟨source.pending.drop len, []⟩)
  | .deliver count _ :: events =>
    (.ok (source.pending.take (min count len)), ⟨source.pending.drop (min count len), events⟩)
  | .fail failure :: events => (.error failure, ⟨source.pending, events⟩)

/-- How much the schedule lets an attempt to read `len` symbols have, when it
does not fail. -/
def allowance (len : Nat) : List (Delivery Failure) → Nat
  | .deliver count _ :: _ => min count len
  | _ => len

theorem allowance_le (len : Nat) (events : List (Delivery Failure)) :
    allowance len events ≤ len := by
  rcases events with _ | ⟨_ | _, _⟩
  · exact Nat.le_refl _
  · exact Nat.min_le_right _ _
  · exact Nat.le_refl _

theorem allowance_pos {len : Nat} (asked : 0 < len) (events : List (Delivery Failure)) :
    0 < allowance len events := by
  rcases events with _ | ⟨⟨count, positive⟩ | _, _⟩
  · exact asked
  · exact Nat.lt_min.mpr ⟨positive, asked⟩
  · exact asked

/-- An attempt that succeeds takes its allowance from the front of the stream. -/
theorem Source.read_ok {source next : Source Symbol Failure} {len : Nat} {got : List Symbol}
    (success : source.read len = (.ok got, next)) :
    got = source.pending.take (allowance len source.events) ∧
      next.pending = source.pending.drop (allowance len source.events) ∧
      next.events = source.events.tail := by
  obtain ⟨pending, events⟩ := source
  rcases events with _ | ⟨_ | _, _⟩ <;> cases success
  · exact ⟨rfl, rfl, rfl⟩
  · exact ⟨rfl, rfl, rfl⟩

/-- An attempt that fails uses up one event and nothing else. -/
theorem Source.read_error {source next : Source Symbol Failure} {len : Nat} {failure : Failure}
    (failed : source.read len = (.error failure, next)) :
    source.events = .fail failure :: next.events ∧ next.pending = source.pending := by
  obtain ⟨pending, events⟩ := source
  rcases events with _ | ⟨_ | _, _⟩ <;> cases failed
  exact ⟨rfl, rfl⟩

/-! ### Schedules -/

/-- What is left of a schedule once the failures at its front are used up. -/
def afterFailures : List (Delivery Failure) → List (Delivery Failure)
  | .fail _ :: events => afterFailures events
  | events => events

/-- What is left of a schedule once a loop that tries again after each failure has
read `size` symbols. -/
def spent : Nat → List (Delivery Failure) → List (Delivery Failure)
  | 0, events => events
  | _ + 1, [] => []
  | size + 1, .deliver count _ :: events => spent (size + 1 - min count (size + 1)) events
  | size + 1, .fail _ :: events => spent (size + 1) events

/-- An attempt that succeeds has no failure in front of it. -/
theorem Source.read_afterFailures {source next : Source Symbol Failure} {len : Nat}
    {got : List Symbol} (success : source.read len = (.ok got, next)) :
    afterFailures source.events = source.events := by
  obtain ⟨pending, events⟩ := source
  rcases events with _ | ⟨_ | _, _⟩ <;> cases success
  · rfl
  · rfl

/-- An attempt that succeeds leaves the rest of the loop's reading to do. -/
theorem Source.read_spent {source next : Source Symbol Failure} {len : Nat} {got : List Symbol}
    (asked : len ≠ 0) (success : source.read len = (.ok got, next)) :
    spent (len - allowance len source.events) next.events = spent len source.events := by
  obtain ⟨len, rfl⟩ := Nat.exists_eq_succ_of_ne_zero asked
  obtain ⟨pending, events⟩ := source
  rcases events with _ | ⟨_ | _, _⟩ <;> cases success
  · simp only [allowance, Nat.sub_self, spent]
  · rw [allowance, spent]

theorem afterFailures_suffix (events : List (Delivery Failure)) :
    afterFailures events <:+ events := by
  fun_induction afterFailures events with
  | case1 failure events inductionHypothesis =>
    exact inductionHypothesis.trans (List.suffix_cons _ _)
  | case2 => exact List.suffix_refl _

theorem spent_suffix (size : Nat) (events : List (Delivery Failure)) :
    spent size events <:+ events := by
  fun_induction spent size events with
  | case1 => exact List.suffix_refl _
  | case2 => exact List.suffix_refl _
  | case3 size count positive events inductionHypothesis =>
    exact inductionHypothesis.trans (List.suffix_cons _ _)
  | case4 size failure events inductionHypothesis =>
    exact inductionHypothesis.trans (List.suffix_cons _ _)

theorem spent_fail {size : Nat} (asked : size ≠ 0) (failure : Failure)
    (events : List (Delivery Failure)) : spent size (.fail failure :: events) = spent size events := by
  obtain ⟨size, rfl⟩ := Nat.exists_eq_succ_of_ne_zero asked
  rw [spent]

end Library.Stream
