/-
This file proves that the two sifts repair the heap, and where the bound of that is.

What each needs is what the theory of heaps calls ready: all pairs in order but those of
the hole, and the parent of the hole at most its children. `HeapifyUp` needs no more.
`HeapifyDown` computes its child indices as `uint32_t`. At index `2 ^ 31 - 1` the right
child is the root, and a sift that arrives there begins again: with one timer that
expires after all others it goes down the left edge and around forever.
-/

import Luce.Timer.Bookkeeping

namespace Luce.TimerManager

open Library Library.Fuel Library.Heap

variable {Task : Type}

/-! ### Repairing -/

theorem heapifyUp_repairs {timers : Array (Timer Task)} {index : Nat} (bound : index < timers.size)
    (ready : UpReady Timer.expiryTime timers index) :
    ∃ repaired, Checked.heapifyUp timers index = .ok repaired ∧ repaired.Perm timers ∧
      Ordered Timer.expiryTime repaired :=
  ⟨heapifyUp timers index, Checked.heapifyUp_eq timers index bound, heapifyUp_perm _ _,
    heapifyUp_ordered timers index bound ready⟩

theorem heapifyDown_repairs {timers : Array (Timer Task)} {index : Nat}
    (few : timers.size < 2 ^ 31) (bound : index < timers.size)
    (ready : DownReady Timer.expiryTime timers index) :
    ∃ repaired, ComesTo (fun fuel => Checked.heapifyDown fuel timers index) (.ok repaired) ∧
      repaired.Perm timers ∧ Ordered Timer.expiryTime repaired := by
  have room : index + 1 < 2 ^ 31 := by omega
  refine ⟨heapifyDown timers.size timers index, ⟨timers.size + 1, fun fuel enough => ?_⟩,
    heapifyDown_perm _ _ _, heapifyDown_ordered _ _ _ few room (Nat.le_add_right _ _) ready⟩
  obtain ⟨more, rfl⟩ : ∃ more, fuel = more + 1 := ⟨fuel - 1, by omega⟩
  exact Checked.heapifyDown_eq _ few room (Nat.le_add_right _ _) (by omega)

/-- Either sift comes to an end and yields the same timers in heap order, if the heap was
ready for it; `HeapifyDown` while there are fewer than `2 ^ 31` timers. -/
theorem sifts_repair (timers : Array (Timer Task)) (index : Nat) (bound : index < timers.size) :
    (timers.size < 2 ^ 31 → DownReady Timer.expiryTime timers index →
      ∃ repaired, ComesTo (fun fuel => Checked.heapifyDown fuel timers index) (.ok repaired) ∧
        repaired.Perm timers ∧ Ordered Timer.expiryTime repaired) ∧
    (UpReady Timer.expiryTime timers index →
      ∃ repaired, Checked.heapifyUp timers index = .ok repaired ∧ repaired.Perm timers ∧
        Ordered Timer.expiryTime repaired) :=
  ⟨fun few ready => heapifyDown_repairs few bound ready,
    fun ready => heapifyUp_repairs bound ready⟩

/-- Three timers that may be sifted down from the first slot or up from the third. -/
def unsifted : Array (Timer Unit) := #[⟨2, 0, ()⟩, ⟨3, 1, ()⟩, ⟨1, 2, ()⟩]

theorem sifts_repair_unsifted :
    (∃ repaired, ComesTo (fun fuel => Checked.heapifyDown fuel unsifted 0) (.ok repaired) ∧
      repaired.Perm unsifted ∧ Ordered Timer.expiryTime repaired) ∧
    ∃ repaired, Checked.heapifyUp unsifted 2 = .ok repaired ∧ repaired.Perm unsifted ∧
      Ordered Timer.expiryTime repaired :=
  ⟨(sifts_repair unsifted 0 (by decide)).1 (by decide) (by decide),
    (sifts_repair unsifted 2 (by decide)).2 (by decide)⟩

/-! ### Around the left edge -/

section Edge

variable {early late : Timer Task} {count : Nat}

/-- Early timers, and a late one at this index. -/
def oneLate (count : Nat) (early late : Timer Task) (index : Nat) : Array (Timer Task) :=
  (Array.replicate count early).setIfInBounds index late

@[simp] theorem size_oneLate (index : Nat) : (oneLate count early late index).size = count := by
  rw [oneLate, Array.size_setIfInBounds, Array.size_replicate]

theorem getElem_oneLate {index other : Nat}
    (bound : other < (oneLate count early late index).size) :
    (oneLate count early late index)[other] = if index = other then late else early := by
  have inside : other < (Array.replicate count early).size := by
    rw [Array.size_replicate]
    rwa [size_oneLate] at bound
  refine (Array.getElem_setIfInBounds inside).trans ?_
  rw [Array.getElem_replicate]

theorem expiresBefore_oneLate {index : Nat} (later : early.expiryTime < late.expiryTime)
    (inside : index < count) (first second : Nat) :
    expiresBefore (oneLate count early late index) first second = true ↔
      first < count ∧ first ≠ index ∧ second = index := by
  rw [expiresBefore_iff]
  simp only [getElem_oneLate, size_oneLate]
  constructor
  · rintro ⟨firstBound, secondBound, less⟩
    split at less
    · split at less
      · exact absurd less (lt_irrefl _)
      · exact absurd less later.not_gt
    · rename_i apart
      split at less
      · rename_i same
        exact ⟨firstBound, Ne.symm apart, same.symm⟩
      · exact absurd less (lt_irrefl _)
  · rintro ⟨firstBound, apart, rfl⟩
    exact ⟨firstBound, inside, by rwa [if_neg apart.symm, if_pos rfl]⟩

theorem swap_oneLate {index other : Nat} (inside : index < count) (otherInside : other < count) :
    (oneLate count early late index).swapIfInBounds other index =
      oneLate count early late other := by
  rw [swapIfInBounds_eq _ (by rwa [size_oneLate]) (by rwa [size_oneLate])]
  refine Array.ext (by simp) fun position bound _ => ?_
  simp only [Array.getElem_swap, getElem_oneLate]
  by_cases atOther : position = other
  · rw [if_pos atOther, if_pos atOther.symm]
    simp only [if_true]
  · rw [if_neg atOther, if_neg (Ne.symm atOther)]
    by_cases atIndex : position = index
    · rw [if_pos atIndex]
      by_cases same : index = other
      · exact absurd (atIndex.trans same) atOther
      · rw [if_neg same]
    · rw [if_neg atIndex, if_neg (Ne.symm atIndex)]

/-- The next index on the left edge, and the root behind its end. -/
def downEdge (index : Nat) : Nat := if index = 2 ^ 31 - 1 then 0 else index * 2 + 1

/-- The indices of the left edge. -/
def OnEdge (index : Nat) : Prop := ∃ level ≤ 31, index + 1 = 2 ^ level

theorem OnEdge.lt {index : Nat} (edge : OnEdge index) : index < 2 ^ 31 := by
  obtain ⟨level, low, same⟩ := edge
  have top : 2 ^ level ≤ 2 ^ 31 := Nat.pow_le_pow_right (by decide) low
  omega

theorem OnEdge.downEdge {index : Nat} (edge : OnEdge index) : OnEdge (downEdge index) := by
  obtain ⟨level, low, same⟩ := edge
  rw [TimerManager.downEdge]
  split
  · exact ⟨0, Nat.zero_le _, rfl⟩
  · rename_i notLast
    have notEnd : level ≠ 31 := by
      rintro rfl
      omega
    exact ⟨level + 1, by omega, by rw [pow_succ, ← same]; omega⟩

theorem downEdge_ne {index : Nat} (edge : OnEdge index) : downEdge index ≠ index := by
  have := edge.lt
  rw [downEdge]
  split <;> omega

/-- On the left edge, the next index holds a timer that expires first. -/
theorem smallestIndex_oneLate (later : early.expiryTime < late.expiryTime)
    (all : count = 2 ^ 31) {index : Nat} (edge : OnEdge index) :
    smallestIndex (oneLate count early late index) index = downEdge index := by
  have narrow := edge.lt
  have before := expiresBefore_oneLate later (show index < count by omega)
  have notAhead : ∀ first {second}, second ≠ index →
      ¬ expiresBefore (oneLate count early late index) first second = true :=
    fun first second apart ahead => apart ((before first second).mp ahead).2.2
  by_cases last : index = 2 ^ 31 - 1
  · -- The left child is behind the end and the right one is the root.
    have left : ¬ expiresBefore (oneLate count early late index) ((index * 2 + 1) % 2 ^ 32)
        index = true := by
      rw [before]
      omega
    have right : expiresBefore (oneLate count early late index) ((index * 2 + 2) % 2 ^ 32)
        index = true := by
      rw [before]
      omega
    rw [smallestIndex, if_neg left, if_pos right, downEdge, if_pos last]
    omega
  · have next := edge.downEdge.lt
    rw [downEdge, if_neg last] at next
    have left : expiresBefore (oneLate count early late index) ((index * 2 + 1) % 2 ^ 32)
        index = true := by
      rw [before]
      omega
    have deeper : (index * 2 + 1) % 2 ^ 32 ≠ index := by omega
    rw [smallestIndex, if_pos left, if_neg (notAhead _ deeper), downEdge, if_neg last]
    omega

/-- The late timer goes around the left edge for as long as there is fuel. -/
theorem heapifyDown_oneLate (later : early.expiryTime < late.expiryTime)
    (all : count = 2 ^ 31) (fuel : Nat) {index : Nat} (edge : OnEdge index) :
    Checked.heapifyDown fuel (oneLate count early late index) index = exhausted := by
  induction fuel generalizing index with
  | zero => rfl
  | succ fuel inductionHypothesis =>
    have inside : index < count := all ▸ edge.lt
    have nextInside : downEdge index < count := all ▸ edge.downEdge.lt
    have bound : index < (oneLate count early late index).size := by rwa [size_oneLate]
    have smallest := Checked.smallest_eq (Or.inl bound)
    rw [smallestIndex_oneLate later all edge] at smallest
    rw [Checked.heapifyDown_step fuel smallest, if_pos (downEdge_ne edge),
      Checked.swap_eq (by rwa [size_oneLate]) bound, ok_bind,
      swap_oneLate inside nextInside]
    exact inductionHypothesis edge.downEdge

/-- With the late timer at the end, every pair in the array is in order. -/
theorem downReady_oneLate (later : early.expiryTime ≤ late.expiryTime) {index : Nat}
    (deep : count ≤ index * 2 + 1) :
    DownReady Timer.expiryTime (oneLate count early late index) index where
  except child up childBound upBound edge apart := by
    rw [getElem_oneLate, getElem_oneLate, if_neg (Ne.symm apart)]
    split
    · exact later
    · exact le_rfl
  grand child up childBound upBound edge _ := by
    rw [size_oneLate] at childBound
    rw [isChild_iff] at edge
    omega

/-- A heap that is in order, and a sift of its last timer that comes to no end. -/
theorem heapifyDown_oneLate_last (later : early.expiryTime < late.expiryTime)
    (all : count = 2 ^ 31) :
    2 ^ 31 - 1 < (oneLate count early late (2 ^ 31 - 1)).size ∧
      DownReady Timer.expiryTime (oneLate count early late (2 ^ 31 - 1)) (2 ^ 31 - 1) ∧
      ¬ ∃ repaired, ComesTo
        (fun fuel => Checked.heapifyDown fuel (oneLate count early late (2 ^ 31 - 1)) (2 ^ 31 - 1))
        (.ok repaired) := by
  have edge : OnEdge (2 ^ 31 - 1) := ⟨31, le_rfl, by omega⟩
  refine ⟨by rw [size_oneLate]; omega, downReady_oneLate later.le (by omega), ?_⟩
  rintro ⟨repaired, fuel, comes⟩
  have stuck := comes fuel le_rfl
  simp only [heapifyDown_oneLate later all fuel edge] at stuck
  cases stuck

end Edge

/-- With `2 ^ 31` timers, of which the last expires last, sifting it down never ends. -/
theorem heapifyDown_endless :
    2 ^ 31 - 1 < (oneLate (2 ^ 31) ⟨0, 0, ()⟩ ⟨1, 1, ()⟩ (2 ^ 31 - 1)).size ∧
      DownReady Timer.expiryTime (oneLate (2 ^ 31) ⟨0, 0, ()⟩ ⟨1, 1, ()⟩ (2 ^ 31 - 1))
        (2 ^ 31 - 1) ∧
      ¬ ∃ repaired, ComesTo
        (fun fuel => Checked.heapifyDown fuel
          (oneLate (2 ^ 31) ⟨0, 0, ()⟩ ⟨1, 1, ()⟩ (2 ^ 31 - 1)) (2 ^ 31 - 1))
        (.ok repaired) :=
  heapifyDown_oneLate_last (by decide) rfl

end Luce.TimerManager
