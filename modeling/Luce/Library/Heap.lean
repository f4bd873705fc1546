/-
This file is the theory of implicit binary min-heaps that a sifting
implementation rests on. An array stores a binary tree level by level: the
parent of entry `i` is entry `(i - 1) / 2`. The array is ordered when no entry
has a smaller key than its parent.

The content here is what one swap does. A sift starts from an array that is
ordered except at one entry, the hole, and moves the hole along a path. The two
readiness conditions say which pairs are still trusted: `UpReady` trusts every
pair but the hole and its parent, `DownReady` every pair but the hole and its
children. Both carry the grandparent relation, which is what makes the next
swap safe. Each direction has a step rule (the swap keeps the condition, with
the hole moved) and an exit rule (the array is ordered when the swap is not
needed). Nothing depends on how an implementation loops.
-/

import Mathlib.Data.Multiset.Basic
import Mathlib.Order.Lattice

namespace Library.Heap

variable {Entry Key : Type*} [LinearOrder Key] {key : Entry → Key}

/-! ### The implicit tree -/

/-- Entry `child` hangs below entry `up`. Entry `0` is no child, although its
truncated parent index is `0`. -/
def IsChild (child up : Nat) : Prop := 0 < child ∧ up = (child - 1) / 2

theorem isChild_iff {child up : Nat} :
    IsChild child up ↔ child = 2 * up + 1 ∨ child = 2 * up + 2 := by
  unfold IsChild
  omega

theorem IsChild.lt {child up : Nat} (edge : IsChild child up) : up < child := by
  rw [isChild_iff] at edge
  omega

theorem IsChild.unique {child first second : Nat} (left : IsChild child first)
    (right : IsChild child second) : first = second :=
  left.2.trans right.2.symm

/-- No entry of the array has a smaller key than its parent. -/
def Ordered (key : Entry → Key) (entries : Array Entry) : Prop :=
  ∀ child up (_ : child < entries.size) (_ : up < entries.size),
    IsChild child up → key entries[up] ≤ key entries[child]

instance (child up : Nat) : Decidable (IsChild child up) :=
  inferInstanceAs (Decidable (_ ∧ _))

instance (entries : Array Entry) : Decidable (Ordered key entries) :=
  decidable_of_iff
    (∀ child up : Fin entries.size, IsChild child up → key entries[up] ≤ key entries[child])
    ⟨fun all child up childBound upBound => all ⟨child, childBound⟩ ⟨up, upBound⟩,
      fun ordered child up => ordered child up child.isLt up.isLt⟩

/-- What is said of each pair of entries can be decided. -/
local instance decidablePairs {size : Nat} {pair : ∀ child up, child < size → up < size → Prop}
    [∀ child up childBound upBound, Decidable (pair child up childBound upBound)] :
    Decidable (∀ child up childBound upBound, pair child up childBound upBound) :=
  decidable_of_iff (∀ child up : Fin size, pair child up child.isLt up.isLt)
    ⟨fun all child up childBound upBound => all ⟨child, childBound⟩ ⟨up, upBound⟩,
      fun all child up => all child up child.isLt up.isLt⟩

theorem ordered_empty : Ordered key #[] := by
  intro child up childBound
  cases childBound

/-- The root of an ordered array has a least key. -/
theorem Ordered.root_le {entries : Array Entry} (ordered : Ordered key entries) (index : Nat)
    (bound : index < entries.size) (rootBound : 0 < entries.size) :
    key entries[0] ≤ key entries[index] := by
  induction index using Nat.strong_induction_on with
  | h index inductionHypothesis =>
    by_cases root : index = 0
    · subst root
      exact le_rfl
    · have edge : IsChild index ((index - 1) / 2) := ⟨Nat.pos_of_ne_zero root, rfl⟩
      have upBound : (index - 1) / 2 < entries.size := edge.lt.trans bound
      exact (inductionHypothesis _ edge.lt upBound).trans (ordered _ _ bound upBound edge)

/-! ### Sifting up -/

/-- Every pair is in order except possibly the hole and its parent, and the
hole's parent is at most the hole's children. -/
structure UpReady (key : Entry → Key) (entries : Array Entry) (hole : Nat) : Prop where
  except : ∀ child up (_ : child < entries.size) (_ : up < entries.size),
    IsChild child up → child ≠ hole → key entries[up] ≤ key entries[child]
  grand : ∀ child up (_ : child < entries.size) (_ : up < entries.size),
    IsChild child hole → IsChild hole up → key entries[up] ≤ key entries[child]

instance (entries : Array Entry) (hole : Nat) : Decidable (UpReady key entries hole) :=
  decidable_of_iff
    ((∀ child up (_ : child < entries.size) (_ : up < entries.size),
        IsChild child up → child ≠ hole → key entries[up] ≤ key entries[child]) ∧
      ∀ child up (_ : child < entries.size) (_ : up < entries.size),
        IsChild child hole → IsChild hole up → key entries[up] ≤ key entries[child])
    ⟨fun all => ⟨all.1, all.2⟩, fun ready => ⟨ready.except, ready.grand⟩⟩

/-- The hole moves to its parent when the two are swapped. -/
theorem UpReady.swap {entries : Array Entry} {hole up : Nat} (ready : UpReady key entries hole)
    (bound : hole < entries.size) (upBound : up < entries.size) (edge : IsChild hole up)
    (less : key entries[hole] < key entries[up]) :
    UpReady key (entries.swap hole up) up := by
  have upNe : up ≠ hole := edge.lt.ne
  constructor
  · intro child above childIn aboveIn childEdge childNe
    have childBound : child < entries.size := by simpa using childIn
    have aboveBound : above < entries.size := by simpa using aboveIn
    simp only [Array.getElem_swap]
    by_cases atHole : child = hole
    · subst atHole
      obtain rfl : above = up := childEdge.unique edge
      rw [if_neg upNe, if_pos rfl, if_pos rfl]
      exact less.le
    · rw [if_neg atHole, if_neg childNe]
      by_cases belowHole : above = hole
      · subst belowHole
        rw [if_pos rfl]
        exact ready.grand child up childBound upBound childEdge edge
      · rw [if_neg belowHole]
        have trusted := ready.except child above childBound aboveBound childEdge atHole
        by_cases sibling : above = up
        · subst sibling
          rw [if_pos rfl]
          exact less.le.trans trusted
        · rw [if_neg sibling]
          exact trusted
  · intro child above childIn aboveIn childEdge upEdge
    have childBound : child < entries.size := by simpa using childIn
    have aboveBound : above < entries.size := by simpa using aboveIn
    simp only [Array.getElem_swap]
    have upper := ready.except up above upBound aboveBound upEdge upNe
    rw [if_neg (upEdge.lt.trans edge.lt).ne, if_neg upEdge.lt.ne]
    by_cases atHole : child = hole
    · rw [if_pos atHole]
      exact upper
    · rw [if_neg atHole, if_neg childEdge.lt.ne']
      exact upper.trans (ready.except child up childBound upBound childEdge atHole)

/-- The array is ordered when the hole is at least its parent, if it has one. -/
theorem UpReady.ordered {entries : Array Entry} {hole : Nat} (ready : UpReady key entries hole)
    (stop : ∀ up (_ : hole < entries.size) (_ : up < entries.size), IsChild hole up →
      key entries[up] ≤ key entries[hole]) :
    Ordered key entries := by
  intro child up childBound upBound edge
  by_cases atHole : child = hole
  · subst atHole
    exact stop up childBound upBound edge
  · exact ready.except child up childBound upBound edge atHole

/-- Appending an entry to an ordered array leaves the appended entry as the hole. -/
theorem Ordered.push {entries : Array Entry} (ordered : Ordered key entries) (entry : Entry) :
    UpReady key (entries.push entry) entries.size := by
  constructor
  · intro child up childBound upBound edge childNe
    rw [Array.size_push] at childBound upBound
    have childOld : child < entries.size := by omega
    have upOld : up < entries.size := edge.lt.trans childOld
    rw [Array.getElem_push_lt childOld, Array.getElem_push_lt upOld]
    exact ordered child up childOld upOld edge
  · intro child up childBound _ edge
    rw [Array.size_push] at childBound
    have := edge.lt
    omega

/-! ### Sifting down -/

/-- Every pair is in order except possibly the hole and its children, and the
hole's parent is at most the hole's children. -/
structure DownReady (key : Entry → Key) (entries : Array Entry) (hole : Nat) : Prop where
  except : ∀ child up (_ : child < entries.size) (_ : up < entries.size),
    IsChild child up → up ≠ hole → key entries[up] ≤ key entries[child]
  grand : ∀ child up (_ : child < entries.size) (_ : up < entries.size),
    IsChild child hole → IsChild hole up → key entries[up] ≤ key entries[child]

instance (entries : Array Entry) (hole : Nat) : Decidable (DownReady key entries hole) :=
  decidable_of_iff
    ((∀ child up (_ : child < entries.size) (_ : up < entries.size),
        IsChild child up → up ≠ hole → key entries[up] ≤ key entries[child]) ∧
      ∀ child up (_ : child < entries.size) (_ : up < entries.size),
        IsChild child hole → IsChild hole up → key entries[up] ≤ key entries[child])
    ⟨fun all => ⟨all.1, all.2⟩, fun ready => ⟨ready.except, ready.grand⟩⟩

/-- The hole moves to a least child when the two are swapped. -/
theorem DownReady.swap {entries : Array Entry} {hole least : Nat}
    (ready : DownReady key entries hole) (bound : hole < entries.size)
    (leastBound : least < entries.size) (edge : IsChild least hole)
    (less : key entries[least] < key entries[hole])
    (minimal : ∀ child (_ : child < entries.size), IsChild child hole →
      key entries[least] ≤ key entries[child]) :
    DownReady key (entries.swap least hole) least := by
  have holeNe : hole ≠ least := edge.lt.ne
  constructor
  · intro child above childIn aboveIn childEdge aboveNe
    have childBound : child < entries.size := by simpa using childIn
    have aboveBound : above < entries.size := by simpa using aboveIn
    simp only [Array.getElem_swap]
    rw [if_neg aboveNe]
    by_cases belowHole : above = hole
    · subst belowHole
      rw [if_pos rfl]
      by_cases atLeast : child = least
      · rw [if_pos atLeast]
        exact less.le
      · rw [if_neg atLeast, if_neg childEdge.lt.ne']
        exact minimal child childBound childEdge
    · rw [if_neg belowHole]
      by_cases atLeast : child = least
      · subst atLeast
        exact absurd (childEdge.unique edge) belowHole
      · rw [if_neg atLeast]
        by_cases atHole : child = hole
        · subst atHole
          rw [if_pos rfl]
          exact ready.grand least above leastBound aboveBound edge childEdge
        · rw [if_neg atHole]
          exact ready.except child above childBound aboveBound childEdge belowHole
  · intro child above childIn aboveIn childEdge leastEdge
    have childBound : child < entries.size := by simpa using childIn
    obtain rfl : above = hole := leastEdge.unique edge
    simp only [Array.getElem_swap]
    rw [if_neg holeNe, if_pos trivial, if_neg childEdge.lt.ne',
      if_neg (edge.lt.trans childEdge.lt).ne']
    exact ready.except child least childBound leastBound childEdge holeNe.symm

/-- The array is ordered when the hole is at most its children. -/
theorem DownReady.ordered {entries : Array Entry} {hole : Nat}
    (ready : DownReady key entries hole)
    (stop : ∀ child (_ : child < entries.size) (_ : hole < entries.size), IsChild child hole →
      key entries[hole] ≤ key entries[child]) :
    Ordered key entries := by
  intro child up childBound upBound edge
  by_cases atHole : up = hole
  · subst atHole
    exact stop child childBound upBound edge
  · exact ready.except child up childBound upBound edge atHole

/-! ### Replacing an entry by the last one -/

/-- Swapping entry `hole` with the last entry and dropping the last. -/
def swapRemove (entries : Array Entry) (hole : Nat) (bound : hole < entries.size) :
    Array Entry :=
  (entries.swap hole (entries.size - 1)).pop

@[simp] theorem size_swapRemove (entries : Array Entry) (hole : Nat)
    (bound : hole < entries.size) :
    (swapRemove entries hole bound).size = entries.size - 1 := by
  simp [swapRemove]

/-- After the removal the hole holds the old last entry and every other entry is
where it was. -/
theorem getElem_swapRemove {entries : Array Entry} {hole : Nat} (bound : hole < entries.size)
    (index : Nat) (old : index < (swapRemove entries hole bound).size)
    (inside : index < entries.size) :
    (swapRemove entries hole bound)[index] =
      if index = hole then entries[entries.size - 1] else entries[index] := by
  have beforeLast : index < entries.size - 1 := by simpa using old
  simp only [swapRemove, Array.getElem_pop, Array.getElem_swap, if_neg beforeLast.ne]

/-- The removal takes out exactly the entry at the hole. -/
theorem perm_swapRemove {entries : Array Entry} {hole : Nat} (bound : hole < entries.size) :
    entries.toList.Perm (entries[hole] :: (swapRemove entries hole bound).toList) := by
  have nonempty : 0 < entries.size := by omega
  have swapped : (entries.swap hole (entries.size - 1)).toList.Perm entries.toList :=
    (Array.swap_perm _ _).toList
  have split : (swapRemove entries hole bound).push entries[hole] =
      entries.swap hole (entries.size - 1) := by
    refine Array.ext (by simp [swapRemove]; omega) fun index left right => ?_
    rw [Array.size_swap] at right
    rw [Array.getElem_push]
    by_cases last : index < (swapRemove entries hole bound).size
    · rw [dif_pos last]
      simp only [swapRemove, Array.getElem_pop]
    · rw [dif_neg last]
      rw [size_swapRemove] at last
      obtain rfl : index = entries.size - 1 := by omega
      rw [Array.getElem_swap_right]
  rw [← split, Array.toList_push] at swapped
  exact swapped.symm.trans (List.perm_append_singleton _ _)

/-- Removing from an ordered array leaves the hole ready to sift down as long as
the last entry, which fills it, is at least the hole's parent. -/
theorem Ordered.swapRemove {entries : Array Entry} (ordered : Ordered key entries) {hole : Nat}
    (bound : hole < entries.size)
    (above : hole + 1 < entries.size → ∀ up (_ : up < entries.size), IsChild hole up →
      key entries[up] ≤ key entries[entries.size - 1]) :
    DownReady key (swapRemove entries hole bound) hole := by
  constructor
  · intro child up childBound upBound edge upNe
    have childOld : child + 1 < entries.size := by
      rw [size_swapRemove] at childBound
      omega
    have upOld : up < entries.size := by
      have := edge.lt
      omega
    rw [getElem_swapRemove bound child childBound (by omega),
      getElem_swapRemove bound up upBound upOld, if_neg upNe]
    by_cases atHole : child = hole
    · subst atHole
      rw [if_pos rfl]
      exact above childOld up upOld edge
    · rw [if_neg atHole]
      exact ordered child up (by omega) upOld edge
  · intro child up childBound upBound childEdge holeEdge
    have childOld : child + 1 < entries.size := by
      rw [size_swapRemove] at childBound
      omega
    have upOld : up < entries.size := by
      have := holeEdge.lt
      omega
    rw [getElem_swapRemove bound child childBound (by omega),
      getElem_swapRemove bound up upBound upOld, if_neg holeEdge.lt.ne,
      if_neg childEdge.lt.ne']
    exact (ordered hole up bound upOld holeEdge).trans
      (ordered child hole (by omega) bound childEdge)

end Library.Heap
