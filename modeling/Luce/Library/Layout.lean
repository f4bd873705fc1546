/-
This file is about what stands at an index of a list.

Two pieces stand one behind the other just when they stand there together, so a layout can
be taken apart piece by piece, and what fills a list from its beginning to its end is the
list.
-/

import Mathlib.Data.List.Infix

namespace Library.Layout

variable {Symbol : Type*}

/-- The data stand in the list from this index on. -/
def StandsAt (list : List Symbol) (index : Nat) (data : List Symbol) : Prop :=
  index ≤ list.length ∧ data <+: list.drop index

variable {list data first second : List Symbol} {index : Nat}

theorem StandsAt.inside (stands : StandsAt list index data) :
    index + data.length ≤ list.length := by
  have bound := stands.2.length_le
  rw [List.length_drop] at bound
  have := stands.1
  omega

theorem StandsAt.cast {other : Nat} (stands : StandsAt list index data) (same : index = other) :
    StandsAt list other data := same ▸ stands

theorem standsAt_iff_take : StandsAt list index data ↔
    index + data.length ≤ list.length ∧ (list.drop index).take data.length = data := by
  constructor
  · exact fun stands => ⟨stands.inside, (List.prefix_iff_eq_take.mp stands.2).symm⟩
  · exact fun ⟨inside, same⟩ => ⟨by omega, List.prefix_iff_eq_take.mpr same.symm⟩

/-- One piece stands behind another just when both stand there together. -/
theorem standsAt_append : StandsAt list index (first ++ second) ↔
    StandsAt list index first ∧ StandsAt list (index + first.length) second := by
  constructor
  · intro stands
    have inside := stands.inside
    obtain ⟨rest, whole⟩ := stands.2
    rw [List.length_append] at inside
    refine ⟨⟨stands.1, second ++ rest, by rw [← List.append_assoc, whole]⟩, by omega, rest, ?_⟩
    rw [← List.drop_drop, ← whole, List.append_assoc, List.drop_left]
  · rintro ⟨⟨bound, rest, whole⟩, -, more, behind⟩
    refine ⟨bound, more, ?_⟩
    rw [← List.drop_drop, ← whole, List.drop_left] at behind
    rw [List.append_assoc, behind, whole]

theorem exists_standsAt {size : Nat} (inside : index + size ≤ list.length) :
    ∃ data : List Symbol, data.length = size ∧ StandsAt list index data := by
  have length : ((list.drop index).take size).length = size := by
    rw [List.length_take, List.length_drop]
    omega
  exact ⟨_, length, by omega, List.take_prefix _ _⟩

/-- What fills a list is the list. -/
theorem standsAt_fills (length : data.length = list.length) :
    StandsAt list 0 data ↔ list = data := by
  constructor
  · exact fun stands => (stands.2.eq_of_length length).symm
  · rintro rfl
    exact ⟨Nat.zero_le _, List.prefix_rfl⟩

end Library.Layout
