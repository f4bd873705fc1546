/-
This file is a stream that is accepted in pieces: the symbols that have been accepted,
and a schedule of what the next attempts to write will do. An attempt either has a
prefix of what it offers accepted, which may be nothing, or fails. A schedule that has
run out accepts whatever is offered. Whether a loop has all of its symbols accepted,
when it goes on after some failures and gives up when nothing is accepted, depends on
the schedule only.
-/

import Mathlib.Data.List.Basic

namespace Library.Stream

/-- What one attempt to write does. -/
inductive Acceptance (Failure : Type) where
  | accept (count : Nat)
  | fail (failure : Failure)
deriving DecidableEq, Repr

structure Sink (Symbol Failure : Type) where
  accepted : List Symbol
  events : List (Acceptance Failure)
deriving DecidableEq, Repr

variable {Symbol Failure : Type}

/-- One attempt to write these symbols. -/
def Sink.write (sink : Sink Symbol Failure) (data : List Symbol) :
    Except Failure Nat × Sink Symbol Failure :=
  match sink.events with
  | [] => (.ok data.length, ⟨sink.accepted ++ data, []⟩)
  | .accept count :: events =>
    (.ok (min count data.length), ⟨sink.accepted ++ data.take count, events⟩)
  | .fail failure :: events => (.error failure, ⟨sink.accepted, events⟩)

/-- How many of `len` symbols the first attempt has accepted. -/
def taken (len : Nat) : List (Acceptance Failure) → Nat
  | [] => len
  | .accept count :: _ => min count len
  | .fail _ :: _ => 0

/-- The loop has all of its symbols accepted: nothing stops it before. -/
def accepts (goesOn : Failure → Bool) : Nat → List (Acceptance Failure) → Bool
  | 0, _ => true
  | _ + 1, [] => true
  | _ + 1, .accept 0 :: _ => false
  | size + 1, .accept (count + 1) :: events => accepts goesOn (size - count) events
  | size + 1, .fail failure :: events => goesOn failure && accepts goesOn (size + 1) events

theorem taken_le (len : Nat) (events : List (Acceptance Failure)) : taken len events ≤ len := by
  rcases events with _ | ⟨_ | _, _⟩
  · exact Nat.le_refl _
  · exact Nat.min_le_right _ _
  · exact Nat.zero_le _

@[simp] theorem accepts_zero (goesOn : Failure → Bool) (events : List (Acceptance Failure)) :
    accepts goesOn 0 events = true := by
  rw [accepts]

/-- What an attempt leaves behind. -/
theorem Sink.write_snd (sink : Sink Symbol Failure) (data : List Symbol) :
    (sink.write data).2 =
      ⟨sink.accepted ++ data.take (taken data.length sink.events), sink.events.tail⟩ := by
  obtain ⟨accepted, events⟩ := sink
  rcases events with _ | ⟨count | failure, events⟩
  · simp [Sink.write, taken]
  · simp [Sink.write, taken]
  · simp [Sink.write, taken]

theorem Sink.write_ok {sink next : Sink Symbol Failure} {data : List Symbol} {count : Nat}
    (success : sink.write data = (.ok count, next)) :
    count = taken data.length sink.events ∧
      next = ⟨sink.accepted ++ data.take count, sink.events.tail⟩ := by
  have left := sink.write_snd data
  have count_eq : count = taken data.length sink.events := by
    obtain ⟨accepted, events⟩ := sink
    rcases events with _ | ⟨_ | _, _⟩ <;> cases success <;> rfl
  rw [success, ← count_eq] at left
  exact ⟨count_eq, left⟩

theorem Sink.write_error {sink next : Sink Symbol Failure} {data : List Symbol}
    {failure : Failure} (failed : sink.write data = (.error failure, next)) :
    sink.events = .fail failure :: next.events ∧ next.accepted = sink.accepted := by
  obtain ⟨accepted, events⟩ := sink
  rcases events with _ | ⟨_ | _, _⟩ <;> cases failed
  exact ⟨rfl, rfl⟩

/-! ### One round of the loop -/

variable (goesOn : Failure → Bool)

theorem accepts_of_nothing {sink next : Sink Symbol Failure} {data : List Symbol}
    (more : data.length ≠ 0) (success : sink.write data = (.ok 0, next)) :
    accepts goesOn data.length sink.events = false := by
  obtain ⟨size, length⟩ := Nat.exists_eq_succ_of_ne_zero more
  have nothing := (Sink.write_ok success).1
  obtain ⟨accepted, events⟩ := sink
  rcases events with _ | ⟨⟨_ | count⟩ | _, _⟩
  · exact absurd nothing.symm more
  · rw [length, accepts]
  · rw [length, taken] at nothing
    exact absurd nothing (Nat.ne_of_lt (Nat.lt_min.mpr ⟨Nat.succ_pos _, Nat.succ_pos _⟩))
  · cases success

theorem accepts_of_some {sink next : Sink Symbol Failure} {data : List Symbol} {count : Nat}
    (some : count ≠ 0) (success : sink.write data = (.ok count, next)) :
    accepts goesOn data.length sink.events = accepts goesOn (data.length - count) next.events := by
  obtain ⟨took, rfl⟩ := Sink.write_ok success
  obtain ⟨accepted, events⟩ := sink
  rcases events with _ | ⟨⟨_ | allowed⟩ | _, _⟩
  · rw [took, taken, Nat.sub_self, accepts_zero]
    cases data.length <;> simp only [accepts]
  · rw [took, taken, Nat.zero_min] at some
    exact absurd rfl some
  · cases length : data.length with
    | zero =>
      rw [length, taken, Nat.min_zero] at took
      exact absurd took some
    | succ size =>
      rw [length, taken] at took
      rw [accepts, took]
      congr 1
      omega
  · cases success

theorem accepts_of_error {sink next : Sink Symbol Failure} {data : List Symbol}
    {failure : Failure} (more : data.length ≠ 0)
    (failed : sink.write data = (.error failure, next)) :
    accepts goesOn data.length sink.events =
      (goesOn failure && accepts goesOn data.length next.events) := by
  obtain ⟨size, length⟩ := Nat.exists_eq_succ_of_ne_zero more
  rw [(Sink.write_error failed).1, length, accepts]

end Library.Stream
