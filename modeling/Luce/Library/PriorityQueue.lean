/-
This file is about a queue whose items are taken out in the order of their keys.

The queue is a multiset: which of several items with the least key is taken is left open. Items
that are taken out one after another come in the order of their keys, and in front of whatever
is left.
-/

import Mathlib.Data.Multiset.AddSub

namespace Library.PriorityQueue

variable {Item Key : Type*} [LE Key] (key : Item → Key)

/-- No item of the queue has a lower key. -/
def First (queue : Multiset Item) (item : Item) : Prop :=
  item ∈ queue ∧ ∀ other ∈ queue, key item ≤ key other

/-- Items are taken out one after another, and others are left. -/
inductive Drains : Multiset Item → List Item → Multiset Item → Prop
  | nothing (queue : Multiset Item) : Drains queue [] queue
  | take {queue rest left : Multiset Item} {item : Item} {items : List Item}
      (first : First key queue item) (removed : queue = item ::ₘ rest)
      (drains : Drains rest items left) : Drains queue (item :: items) left

variable {key} {queue left : Multiset Item} {items : List Item}

/-- What is taken and what is left is the queue. -/
theorem Drains.eq_add (drains : Drains key queue items left) :
    queue = (items : Multiset Item) + left := by
  induction drains with
  | nothing => exact (Multiset.zero_add _).symm
  | take first removed drains inductionHypothesis =>
    rw [removed, inductionHypothesis, ← Multiset.cons_coe, Multiset.cons_add]

/-- What is taken comes before whatever is left. -/
theorem Drains.le_left (drains : Drains key queue items left) :
    ∀ item ∈ items, ∀ other ∈ left, key item ≤ key other := by
  induction drains with
  | nothing => exact nofun
  | take first removed drains inductionHypothesis =>
    refine List.forall_mem_cons.mpr ⟨fun other member => first.2 other ?_, inductionHypothesis⟩
    rw [removed, drains.eq_add]
    exact Multiset.mem_cons_of_mem (Multiset.mem_add.mpr (.inr member))

/-- What is taken comes in the order of its keys. -/
theorem Drains.ordered (drains : Drains key queue items left) :
    items.Pairwise fun one other => key one ≤ key other := by
  induction drains with
  | nothing => exact .nil
  | take first removed drains inductionHypothesis =>
    refine .cons (fun other member => first.2 other ?_) inductionHypothesis
    rw [removed, drains.eq_add]
    exact Multiset.mem_cons_of_mem
      (Multiset.mem_add.mpr (.inl (Multiset.mem_coe.mpr member)))

end Library.PriorityQueue
