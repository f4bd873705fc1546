/-
This file settles which timer an expiry fires.

`tick` takes the due timer out of the heap with `pop`, which copies its result
through a reference to slot `0` after the erasure. The copy is therefore the
timer that has just become the root, or a destroyed timer when the heap is now
empty; it is never the timer that was removed. While ids are distinct this makes
every iteration that takes a timer out wrong: the removed timer is lost, and the
copied one stays pending and fires again. A run fires rightly exactly when no
iteration of it finds a due timer.
-/

import Luce.Timer.Order

namespace Luce.TimerManager

open Library.Run

variable {Task : Type}

/-! ### Right firings -/

/-- The step of a run spawns the task of this popped timer. -/
def Fires (entry : TimerManager Task × TimerCall Task) (popped : Popped Task) : Prop :=
  entry.1.spawned entry.2 = some popped

/-- Every firing of a run is of exactly the timer its iteration removes from the
heap, at a clock reading its expiry has reached; so no timer fires twice, and
none fires after `RemoveTimer` has removed it. -/
structure FiringsRight (steps : List (TimerManager Task × TimerCall Task)) : Prop where
  removed : ∀ entry ∈ steps, ∀ now popped, entry.2 = .tick now → Fires entry popped →
    ∃ timer, popped = .copied timer ∧ timer.expiryTime ≤ now ∧
      entry.1.timers.toList.Perm (timer :: (entry.1.step entry.2).timers.toList)
  once : steps.Pairwise fun earlier later => ∀ first second,
    Fires earlier (.copied first) → Fires later (.copied second) → first.timerId ≠ second.timerId
  cancelled : steps.Pairwise fun earlier later => ∀ timerId timer,
    earlier.2 = .removeTimer timerId → (∃ pending ∈ earlier.1.timers, pending.timerId = timerId) →
      Fires later (.copied timer) → timer.timerId ≠ timerId

/-- No iteration of the run finds a due timer. -/
def Quiet (steps : List (TimerManager Task × TimerCall Task)) : Prop :=
  ∀ entry ∈ steps, ∀ now, entry.2 = .tick now → entry.1.stop = true ∨ entry.1.due now = false

/-- The number of ids a run hands out. -/
def issued : List (TimerCall Task) → Nat
  | [] => 0
  | .addTimer .. :: calls => issued calls + 1
  | _ :: calls => issued calls

/-- An iteration spawns exactly when it runs and finds a due timer. -/
theorem fires_iff (manager : TimerManager Task) (now : TimePoint) (popped : Popped Task) :
    Fires (manager, .tick now) popped ↔
      manager.stop = false ∧ manager.due now = true ∧ (pop manager.timers).1 = popped := by
  simp only [Fires, spawned, tick]
  cases running : manager.stop <;> cases isDue : manager.due now <;> simp

theorem quiet_fires_nothing {steps : List (TimerManager Task × TimerCall Task)}
    (quiet : Quiet steps) {entry : TimerManager Task × TimerCall Task} (member : entry ∈ steps)
    (popped : Popped Task) : ¬ Fires entry popped := by
  obtain ⟨manager, call⟩ := entry
  intro fires
  cases call with
  | tick now =>
    obtain ⟨running, isDue, _⟩ := (fires_iff manager now popped).mp fires
    rcases quiet _ member now rfl with stopped | notDue
    · exact absurd (running.symm.trans stopped) (by decide)
    · exact absurd (notDue.symm.trans isDue) (by decide)
  | addTimer now milliseconds callback => cases fires
  | removeTimer timerId => cases fires
  | shutdown => cases fires

theorem Quiet.firingsRight {steps : List (TimerManager Task × TimerCall Task)}
    (quiet : Quiet steps) : FiringsRight steps where
  removed _ member _ popped _ fires := absurd fires (quiet_fires_nothing quiet member popped)
  once := List.pairwise_of_forall_mem_list fun _ _ _ member _ second _ fires =>
    absurd fires (quiet_fires_nothing quiet member (.copied second))
  cancelled := List.pairwise_of_forall_mem_list fun _ _ _ member _ timer _ _ fires =>
    absurd fires (quiet_fires_nothing quiet member (.copied timer))

/-! ### Ids stay distinct -/

/-- The ids of the pending timers. -/
def pendingIds (manager : TimerManager Task) : List Nat := manager.timers.toList.map Timer.timerId

/-- Pending timers have pairwise distinct ids, all handed out before. -/
structure DistinctIds (manager : TimerManager Task) : Prop where
  nodup : manager.pendingIds.Nodup
  below : ∀ timerId ∈ manager.pendingIds, timerId < manager.timerId

theorem DistinctIds.of_perm {before after : TimerManager Task} (distinct : DistinctIds before)
    (removed : List (Timer Task))
    (perm : before.timers.toList.Perm (removed ++ after.timers.toList))
    (counter : after.timerId = before.timerId) : DistinctIds after := by
  have ids : before.pendingIds.Perm (removed.map Timer.timerId ++ after.pendingIds) := by
    have mapped := perm.map Timer.timerId
    rwa [List.map_append] at mapped
  constructor
  · exact (List.nodup_append.mp (ids.nodup_iff.mp distinct.nodup)).2.1
  · intro timerId member
    rw [counter]
    exact distinct.below timerId (ids.mem_iff.mpr (List.mem_append_right _ member))

/-- A call keeps the ids distinct as long as the counter does not wrap. -/
theorem DistinctIds.step {manager : TimerManager Task} (distinct : DistinctIds manager)
    (call : TimerCall Task) (room : manager.timerId + issued [call] < 2 ^ 64) :
    DistinctIds (manager.step call) ∧
      (manager.step call).timerId = manager.timerId + issued [call] := by
  cases call with
  | addTimer now milliseconds callback =>
    have counter : (manager.timerId + 1) % 2 ^ 64 = manager.timerId + 1 := Nat.mod_eq_of_lt room
    have ids := (push_perm manager.timers
      ⟨now + milliseconds.toNat * 1000000, manager.timerId, callback⟩).map Timer.timerId
    rw [List.map_cons] at ids
    refine ⟨⟨?_, ?_⟩, counter⟩
    · refine ids.nodup_iff.mpr (List.nodup_cons.mpr ⟨fun member => ?_, distinct.nodup⟩)
      exact lt_irrefl _ (distinct.below _ member)
    · intro timerId member
      show timerId < (manager.timerId + 1) % 2 ^ 64
      rw [counter]
      rcases List.mem_cons.mp (ids.mem_iff.mp member) with rfl | old
      · exact Nat.lt_succ_self _
      · exact (distinct.below timerId old).trans (Nat.lt_succ_self _)
  | removeTimer timerId =>
    simp only [TimerManager.step, removeTimer]
    split
    · rename_i index found
      obtain ⟨bound, _⟩ := Array.findIdx?_eq_some_iff_getElem.mp found
      have narrow : index % 2 ^ 32 < manager.timers.size := (Nat.mod_le _ _).trans_lt bound
      exact ⟨distinct.of_perm [_] (erase_perm manager.timers narrow) rfl, rfl⟩
    · exact ⟨distinct, rfl⟩
  | tick now =>
    simp only [TimerManager.step, tick]
    split
    · exact ⟨distinct, rfl⟩
    · split
      · rename_i isDue
        have bound := nonempty_of_due isDue
        simp only [pop_of_nonempty bound]
        exact ⟨distinct.of_perm [_] (erase_perm manager.timers bound) rfl, rfl⟩
      · exact ⟨distinct, rfl⟩
  | shutdown => exact ⟨⟨distinct.nodup, distinct.below⟩, rfl⟩

theorem issued_cons (call : TimerCall Task) (calls : List (TimerCall Task)) :
    issued (call :: calls) = issued [call] + issued calls := by
  cases call <;> simp [issued, Nat.add_comm]

/-- Every step of a run that hands out fewer than `2 ^ 64` ids starts with distinct ids. -/
theorem DistinctIds.history {manager : TimerManager Task} (distinct : DistinctIds manager)
    (calls : List (TimerCall Task)) (room : manager.timerId + issued calls < 2 ^ 64) :
    ∀ entry ∈ history TimerManager.step manager calls, DistinctIds entry.1 := by
  induction calls generalizing manager with
  | nil => simp [Library.Run.history]
  | cons call calls inductionHypothesis =>
    rw [issued_cons] at room
    obtain ⟨next, counter⟩ := distinct.step call (by omega)
    intro entry member
    rcases List.mem_cons.mp member with rfl | later
    · exact distinct
    · exact inductionHypothesis next (by rw [counter]; omega) entry later

/-! ### The exact condition -/

/-- With distinct ids, the timer that `pop` copies is not the one it removes. -/
theorem pop_not_removed {manager : TimerManager Task} (distinct : DistinctIds manager)
    (bound : 0 < manager.timers.size) (timer : Timer Task)
    (copied : (pop manager.timers).1 = .copied timer) :
    ¬ manager.timers.toList.Perm (timer :: (pop manager.timers).2.toList) := by
  intro perm
  rw [pop_of_nonempty bound] at copied perm
  have remains : timer ∈ (erase manager.timers 0).toList := by
    cases root : (erase manager.timers 0)[0]? with
    | none => simp [root] at copied
    | some top =>
      simp only [root, Option.elim_some, Popped.copied.injEq] at copied
      exact copied ▸ Array.mem_toList_iff.mpr (Array.mem_of_getElem? root)
  have ids := (perm.map Timer.timerId).nodup_iff.mp distinct.nodup
  rw [List.map_cons, List.nodup_cons] at ids
  exact ids.1 (List.mem_map_of_mem remains)

/-- A run without due timers fires rightly, and a run that hands out fewer than
`2 ^ 64` ids fires rightly only then. -/
theorem firingsRight_iff_quiet (calls : List (TimerCall Task)) :
    (Quiet (history step initial calls) → FiringsRight (history step initial calls)) ∧
      (issued calls < 2 ^ 64 → FiringsRight (history step initial calls) →
        Quiet (history step initial calls)) := by
  refine ⟨Quiet.firingsRight, fun room right => ?_⟩
  have start : DistinctIds (initial : TimerManager Task) :=
    ⟨List.nodup_nil, fun _ member => by cases member⟩
  have distinct := start.history calls (by simpa [initial] using room)
  rintro ⟨manager, call⟩ member now rfl
  by_contra loud
  obtain ⟨running, isDue⟩ := not_or.mp loud
  have isDue : manager.due now = true := by simpa using isDue
  have fires : Fires (manager, .tick now) (pop manager.timers).1 :=
    (fires_iff manager now _).mpr ⟨by simpa using running, isDue, rfl⟩
  obtain ⟨timer, copied, _, perm⟩ := right.removed _ member now _ rfl fires
  have after : (manager.step (.tick now)).timers = (pop manager.timers).2 := by
    simp [step, tick, isDue, show manager.stop = false by simpa using running]
  rw [after] at perm
  exact pop_not_removed (distinct _ member) (nonempty_of_due isDue) timer copied perm

/-- With a due timer and a pending one, the iteration spawns the pending timer,
a second early. -/
theorem tick_fires_wrong_timer :
    ¬ FiringsRight (history step initial
      [.addTimer 0 0 "due", .addTimer 0 1000 "pending", .tick 0]) := by
  intro right
  let manager : TimerManager String :=
    (initial.step (.addTimer 0 0 "due")).step (.addTimer 0 1000 "pending")
  have copied : (pop manager.timers).1 = .copied ⟨1000000000, 1, "pending"⟩ := by decide +kernel
  have fires : Fires (manager, .tick 0) (.copied ⟨1000000000, 1, "pending"⟩) :=
    (fires_iff manager 0 _).mpr ⟨rfl, by decide +kernel, copied⟩
  obtain ⟨timer, same, onTime, _⟩ :=
    right.removed (manager, .tick 0) (by simp [history, manager]) 0 _ rfl fires
  obtain rfl := Popped.copied.inj same
  exact absurd onTime (by decide)

end Luce.TimerManager
