/-
This file is about items that are spread over the parts of a system.

What all parts hold together is the sum of what each holds. When one part exchanges what
it holds for something else, the total changes by just that.
-/

import Mathlib.Algebra.BigOperators.Group.Finset.Basic
import Mathlib.Algebra.BigOperators.Group.Multiset.Defs
import Mathlib.Algebra.Order.BigOperators.Group.Finset
import Mathlib.Algebra.Order.Group.Multiset
import Mathlib.Data.Fintype.BigOperators

namespace Library.Holdings

variable {Part Item : Type*} [Fintype Part] [DecidableEq Part]

/-- What all parts hold together. -/
def total (held : Part → Multiset Item) : Multiset Item := ∑ part, held part

omit [DecidableEq Part] in
theorem total_zero : total (fun _ : Part => (0 : Multiset Item)) = 0 := Finset.sum_const_zero

omit [DecidableEq Part] in
theorem mem_total {held : Part → Multiset Item} {item : Item} :
    item ∈ total held ↔ ∃ part, item ∈ held part := by
  rw [total, Multiset.mem_sum]
  exact exists_congr fun part => and_iff_right (Finset.mem_univ part)

omit [DecidableEq Part] in
/-- What two parts hold. -/
theorem add_le_total (held : Part → Multiset Item) {one other : Part} (differ : one ≠ other) :
    held one + held other ≤ total held :=
  Finset.add_le_sum (fun _ _ => Multiset.zero_le _) (Finset.mem_univ one)
    (Finset.mem_univ other) differ

/-- A part gives back what it holds, and is given something else. -/
theorem total_update (held : Part → Multiset Item) (part : Part) (given : Multiset Item) :
    total (Function.update held part given) + held part = total held + given := by
  have others : ∑ other ∈ Finset.univ.erase part, Function.update held part given other =
      ∑ other ∈ Finset.univ.erase part, held other :=
    Finset.sum_congr rfl fun other member =>
      Function.update_of_ne (Finset.ne_of_mem_erase member) _ _
  rw [total, total, ← Finset.add_sum_erase _ _ (Finset.mem_univ part), others,
    ← Finset.add_sum_erase _ held (Finset.mem_univ part), Function.update_self]
  ac_rfl

/-- Where each part holds what its content says, one content is exchanged for another. -/
theorem total_exchange {Content : Type*} (held : Content → Multiset Item)
    (contents : Part → Content) (part : Part) (content : Content) :
    total (fun other => held (Function.update contents part content other)) +
        held (contents part) =
      total (fun other => held (contents other)) + held content := by
  have exchanged : (fun other => held (Function.update contents part content other)) =
      Function.update (fun other => held (contents other)) part (held content) :=
    funext fun other => Function.apply_update (fun _ => held) contents part content other
  rw [exchanged]
  exact total_update _ part _

end Library.Holdings
