/-
This file is about threads that wait on a condition variable for a supply.

A thread that finds nothing goes to sleep, and an item is announced by one notification
some time after it is there. No announcement is lost: while a thread sleeps, each item is
matched by a notification under way or by a thread that is about to look. What the threads
weigh together changes by what the thread that moves weighs.
-/

import Mathlib.Algebra.BigOperators.Group.Finset.Basic
import Mathlib.Algebra.GroupWithZero.Nat
import Mathlib.Algebra.Order.BigOperators.Group.Finset
import Mathlib.Data.Fintype.BigOperators

namespace Library.Waiting

/-! ### What threads weigh together -/

variable {Thread Phase : Type*} [Fintype Thread]

/-- The weights of the phases that all threads are in. -/
def weigh (weight : Phase → Nat) (phases : Thread → Phase) : Nat :=
  ∑ thread, weight (phases thread)

theorem weigh_eq_zero_iff {weight : Phase → Nat} {phases : Thread → Phase} :
    weigh weight phases = 0 ↔ ∀ thread, weight (phases thread) = 0 := by
  rw [weigh, Finset.sum_eq_zero_iff]
  exact forall_congr' fun thread => forall_prop_of_true (Finset.mem_univ thread)

/-- One summand changes. -/
theorem sum_change {Index : Type*} [DecidableEq Index] {members : Finset Index} {index : Index}
    (member : index ∈ members) {before after : Index → Nat}
    (others : ∀ other, other ≠ index → after other = before other) :
    ∑ each ∈ members, after each + before index =
      ∑ each ∈ members, before each + after index := by
  have rest : ∑ each ∈ members.erase index, after each =
      ∑ each ∈ members.erase index, before each :=
    Finset.sum_congr rfl fun other apart => others other (Finset.ne_of_mem_erase apart)
  rw [← Finset.add_sum_erase _ after member, ← Finset.add_sum_erase _ before member, rest]
  omega

/-- One thread moves on. -/
theorem weigh_update [DecidableEq Thread] (weight : Phase → Nat) (phases : Thread → Phase)
    (thread : Thread) (phase : Phase) :
    weigh weight (Function.update phases thread phase) + weight (phases thread) =
      weigh weight phases + weight phase := by
  have others : ∀ other, other ≠ thread →
      weight (Function.update phases thread phase other) = weight (phases other) :=
    fun other apart => congrArg weight (Function.update_of_ne apart _ _)
  have changed := sum_change (Finset.mem_univ thread) others
  rw [Function.update_self] at changed
  exact changed

/-- All threads move on, each to a phase that weighs at most so much more. -/
theorem weigh_map_le {weight : Phase → Nat} {move : Phase → Phase} {more : Nat}
    (bounded : ∀ phase, weight (move phase) ≤ weight phase + more) (phases : Thread → Phase) :
    weigh weight (fun thread => move (phases thread)) ≤
      weigh weight phases + Fintype.card Thread * more := by
  have sum := Finset.sum_le_sum fun thread (_ : thread ∈ Finset.univ) => bounded (phases thread)
  rw [Finset.sum_add_distrib, Finset.sum_const, Finset.card_univ, Nat.nsmul_eq_mul] at sum
  exact sum

/-- One of the phases in a list is replaced. -/
theorem sum_map_set (weight : Phase → Nat) {phases : List Phase} {place : Nat} {before : Phase}
    (found : phases[place]? = some before) (phase : Phase) :
    ((phases.set place phase).map weight).sum + weight before =
      (phases.map weight).sum + weight phase := by
  induction phases generalizing place with
  | nil => cases found
  | cons first rest inductionHypothesis =>
    cases place with
    | zero =>
      cases found
      simp only [List.set_cons_zero, List.map_cons, List.sum_cons]
      omega
    | succ place =>
      have later := inductionHypothesis found
      simp only [List.set_cons_succ, List.map_cons, List.sum_cons]
      omega

/-! ### A supply that is attended to -/

/-- While a thread sleeps, there is a look to come for each item of the supply. -/
def Attended (asleep looks supply : Nat) : Prop := asleep = 0 ∨ supply ≤ looks

variable {asleep looks supply : Nat}

theorem Attended.of_awake : Attended 0 looks supply := .inl rfl

theorem Attended.of_empty : Attended asleep looks 0 := .inr (Nat.zero_le _)

/-- An item comes, and a notification with it. -/
theorem Attended.announce (attended : Attended asleep looks supply) :
    Attended asleep (looks + 1) (supply + 1) :=
  attended.imp_right Nat.succ_le_succ

/-- More looks do no harm. -/
theorem Attended.mono {fewer more less : Nat} (attended : Attended asleep fewer supply)
    (looked : fewer ≤ more) (taken : less ≤ supply) : Attended asleep more less :=
  attended.imp_right fun enough => taken.trans (enough.trans looked)

/-- A thread has looked and has taken an item. -/
theorem Attended.take (attended : Attended asleep (looks + 1) (supply + 1)) :
    Attended asleep looks supply :=
  attended.imp_right Nat.le_of_succ_le_succ

/-- A thread that has been asleep is about to look. -/
theorem Attended.wake (attended : Attended (asleep + 1) looks supply) :
    Attended asleep looks supply :=
  .inr (attended.resolve_left (Nat.succ_ne_zero _))

/-- Where a thread sleeps and there is no look to come, there is nothing to find. -/
theorem Attended.eq_zero (attended : Attended asleep 0 supply) (sleeps : asleep ≠ 0) :
    supply = 0 :=
  Nat.le_zero.mp (attended.resolve_left sleeps)

end Library.Waiting
