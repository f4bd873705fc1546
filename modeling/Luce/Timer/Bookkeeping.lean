/-
This file settles when the entries of the timer heap are accounted for.

The calls are modelled once more, with what the code takes for granted: an entry that
is read or swapped is in the vector, and a sift comes to an end. A destroyed entry is read
in two places. `HeapifyDown` is also called with the index behind the last entry, when the
last entry is erased. Its child indices are `uint32_t`; from index `2 ^ 31 - 1` on they wrap
around to entries at the front, and what is compared with them is the entry behind the end.
And `pop` copies the first entry after it has erased one, also where that was the only one.

While a removal finds fewer than `2 ^ 31` timers nothing wraps. If `Tick` finds more than one
of them besides, every call returns what the unchecked model says, and takes or adds exactly
the entry it is about.
-/

import Luce.Library.Fuel
import Luce.Timer.Firing
import Mathlib.Data.List.Nodup

namespace Luce.TimerManager

open Library Library.Fuel Library.Heap Library.Run

variable {Task : Type}

/-- Erasing takes one timer out. -/
theorem size_erase {timers : Array (Timer Task)} {index : Nat} (bound : index < timers.size) :
    (erase timers index).size = timers.size - 1 := by
  have length := (erase_perm timers bound).length_eq
  simp only [Array.length_toList, List.length_cons] at length
  omega

theorem size_erase_le {timers : Array (Timer Task)} {index : Nat} (bound : index < timers.size) :
    (erase timers index).size ≤ timers.size :=
  (size_erase bound).trans_le (Nat.sub_le _ _)

/-! ### The calls with their accesses -/

/-- An access to an entry behind the end of the vector. -/
inductive AccessError where
  | pastEnd
deriving DecidableEq, Repr

namespace Checked

/-- `timers_[first].expiry_time < timers_[second].expiry_time`. -/
def expiresBefore (timers : Array (Timer Task)) (first second : Nat) : Fuel.Run AccessError Bool :=
  if first < timers.size ∧ second < timers.size then
    pure (TimerManager.expiresBefore timers first second)
  else raise .pastEnd

/-- `std::swap(timers_[first], timers_[second])`. -/
def swap (timers : Array (Timer Task)) (first second : Nat) :
    Fuel.Run AccessError (Array (Timer Task)) :=
  if first < timers.size ∧ second < timers.size then pure (timers.swapIfInBounds first second)
  else raise .pastEnd

def heapifyUp (timers : Array (Timer Task)) (index : Nat) :
    Fuel.Run AccessError (Array (Timer Task)) :=
  if root : index = 0 then pure timers
  else do
    let parentIndex := (index - 1) / 2
    let before ← expiresBefore timers index parentIndex
    if before then
      let timers ← swap timers index parentIndex
      heapifyUp timers parentIndex
    else pure timers
termination_by index
decreasing_by omega

/-- A child that is in the vector takes the place of `smallest_index` if it expires before. -/
def smaller (timers : Array (Timer Task)) (childIndex smallestIndex : Nat) :
    Fuel.Run AccessError Nat :=
  if childIndex < timers.size then do
    let before ← expiresBefore timers childIndex smallestIndex
    pure (if before then childIndex else smallestIndex)
  else pure smallestIndex

def heapifyDown : Nat → Array (Timer Task) → Nat → Fuel.Run AccessError (Array (Timer Task))
  | 0, _, _ => exhausted
  | fuel + 1, timers, index => do
    let leftChildIndex := (index * 2 + 1) % 2 ^ 32
    let rightChildIndex := (index * 2 + 2) % 2 ^ 32
    let smallestIndex ← smaller timers leftChildIndex index
    let smallestIndex ← smaller timers rightChildIndex smallestIndex
    if smallestIndex ≠ index then
      let timers ← swap timers smallestIndex index
      heapifyDown fuel timers smallestIndex
    else pure timers

def erase (fuel : Nat) (timers : Array (Timer Task)) (index : Nat) :
    Fuel.Run AccessError (Array (Timer Task)) := do
  let swapped ← swap timers index (timers.size - 1)
  heapifyDown fuel swapped.pop index

def push (timers : Array (Timer Task)) (timer : Timer Task) :
    Fuel.Run AccessError (Array (Timer Task)) :=
  let extended := timers.push timer
  heapifyUp extended ((extended.size - 1) % 2 ^ 32)

/-- `return timer`, where `timer` refers to the first slot. -/
def copyTop (timers : Array (Timer Task)) :
    Fuel.Run AccessError (Popped Task × Array (Timer Task)) :=
  match timers[0]? with
  | some timer => pure (.copied timer, timers)
  | none => raise .pastEnd

def pop (fuel : Nat) (timers : Array (Timer Task)) :
    Fuel.Run AccessError (Popped Task × Array (Timer Task)) :=
  if timers.isEmpty then pure (.fresh, timers)
  else do
    let remaining ← erase fuel timers 0
    copyTop remaining

def step (fuel : Nat) (manager : TimerManager Task) :
    TimerCall Task → Fuel.Run AccessError (TimerManager Task)
  | .addTimer now milliseconds callback => do
    let expiryTime := now + milliseconds.toNat * 1000000
    let timers ← push manager.timers ⟨expiryTime, manager.timerId, callback⟩
    pure { manager with timers, timerId := (manager.timerId + 1) % 2 ^ 64 }
  | .removeTimer timerId =>
    match manager.timers.findIdx? fun timer => timer.timerId == timerId with
    | some index => do
      let timers ← erase fuel manager.timers (index % 2 ^ 32)
      pure { manager with timers }
    | none => pure manager
  | .tick now =>
    if manager.stop then pure manager
    else if manager.due now then do
      let popped ← pop fuel manager.timers
      pure { manager with timers := popped.2 }
    else pure manager
  | .shutdown => pure { manager with stop := true }

/-! ### Where the accesses are inside -/

theorem expiresBefore_eq {timers : Array (Timer Task)} {first second : Nat}
    (firstBound : first < timers.size) (secondBound : second < timers.size) :
    expiresBefore timers first second = .ok (TimerManager.expiresBefore timers first second) :=
  if_pos ⟨firstBound, secondBound⟩

theorem expiresBefore_pastEnd {timers : Array (Timer Task)} {first second : Nat}
    (outside : timers.size ≤ second) : expiresBefore timers first second = raise .pastEnd :=
  if_neg fun inside => absurd inside.2 (not_lt.mpr outside)

theorem swap_eq {timers : Array (Timer Task)} {first second : Nat}
    (firstBound : first < timers.size) (secondBound : second < timers.size) :
    swap timers first second = .ok (timers.swapIfInBounds first second) :=
  if_pos ⟨firstBound, secondBound⟩

/-- Sifting up stays in the vector. -/
theorem heapifyUp_eq (timers : Array (Timer Task)) (index : Nat) (bound : index < timers.size) :
    heapifyUp timers index = .ok (TimerManager.heapifyUp timers index) := by
  fun_induction TimerManager.heapifyUp timers index with
  | case1 timers =>
    rw [heapifyUp, dif_pos rfl]
    rfl
  | case2 timers index root parentIndex before inductionHypothesis =>
    have parentBound : (index - 1) / 2 < timers.size := by omega
    have inside : (index - 1) / 2 < (timers.swapIfInBounds index ((index - 1) / 2)).size := by
      rwa [Array.size_swapIfInBounds]
    rw [heapifyUp, dif_neg root]
    simp only [expiresBefore_eq bound parentBound, ok_bind]
    rw [if_pos before, swap_eq bound parentBound, ok_bind]
    exact inductionHypothesis inside
  | case3 timers index root parentIndex stop =>
    have parentBound : (index - 1) / 2 < timers.size := by omega
    rw [heapifyUp, dif_neg root]
    simp only [expiresBefore_eq bound parentBound, ok_bind]
    rw [if_neg stop]
    rfl

/-- A child that is in the vector is compared with an entry that is. -/
theorem smaller_eq {timers : Array (Timer Task)} {childIndex smallestIndex : Nat}
    (inside : childIndex < timers.size → smallestIndex < timers.size) :
    smaller timers childIndex smallestIndex =
      .ok (if TimerManager.expiresBefore timers childIndex smallestIndex then childIndex
        else smallestIndex) := by
  unfold smaller
  split
  · rename_i bound
    rw [expiresBefore_eq bound (inside bound)]
    rfl
  · rename_i outside
    rw [if_neg fun before => outside ((expiresBefore_iff _ _ _).mp before).1]
    rfl

/-- Where no child index reaches the entries from behind the end, the smallest index is what
the unchecked model says. -/
theorem smallest_eq {timers : Array (Timer Task)} {index : Nat}
    (inside : index < timers.size ∨
      timers.size ≤ (index * 2 + 1) % 2 ^ 32 ∧ timers.size ≤ (index * 2 + 2) % 2 ^ 32) :
    (smaller timers ((index * 2 + 1) % 2 ^ 32) index >>= fun smallestIndex =>
      smaller timers ((index * 2 + 2) % 2 ^ 32) smallestIndex) =
        .ok (TimerManager.smallestIndex timers index) := by
  rw [smaller_eq fun left => inside.resolve_right fun outside => absurd left (not_lt.mpr outside.1),
    ok_bind, smaller_eq]
  · rfl
  · intro right
    have bound := inside.resolve_right fun outside => absurd right (not_lt.mpr outside.2)
    split
    · rename_i before
      exact ((expiresBefore_iff _ _ _).mp before).1
    · exact bound

/-- One turn of the sift, where the smallest index is known. -/
theorem heapifyDown_step {timers : Array (Timer Task)} {index smallestIndex : Nat} (fuel : Nat)
    (smallest : (smaller timers ((index * 2 + 1) % 2 ^ 32) index >>= fun smallestIndex =>
      smaller timers ((index * 2 + 2) % 2 ^ 32) smallestIndex) = .ok smallestIndex) :
    heapifyDown (fuel + 1) timers index =
      if smallestIndex ≠ index then
        swap timers smallestIndex index >>= fun timers => heapifyDown fuel timers smallestIndex
      else pure timers := by
  rw [heapifyDown, ← bind_assoc, smallest, ok_bind]

/-- With fuel enough, sifting down a heap whose child indices do not wrap stays in the vector. -/
theorem heapifyDown_eq (fuel : Nat) {timers : Array (Timer Task)} {index more : Nat}
    (small : timers.size < 2 ^ 31) (room : index + 1 < 2 ^ 31)
    (enough : timers.size ≤ fuel + index) (le : fuel ≤ more) :
    heapifyDown (more + 1) timers index = .ok (TimerManager.heapifyDown fuel timers index) := by
  induction fuel generalizing timers index more with
  | zero =>
    rw [heapifyDown_step more (smallest_eq (by omega))]
    rcases smallestIndex_spec timers index room with ⟨same, _⟩ | ⟨_, bound, _⟩
    · rw [if_neg (not_not.mpr same)]
      rfl
    · omega
  | succ fuel inductionHypothesis =>
    rw [heapifyDown_step more (smallest_eq (by omega)), TimerManager.heapifyDown]
    rcases smallestIndex_spec timers index room with
      ⟨same, _⟩ | ⟨leastBound, bound, edge, _, _⟩
    · rw [if_neg (not_not.mpr same), if_neg (not_not.mpr same)]
      rfl
    · obtain ⟨less, rfl⟩ : ∃ less, more = less + 1 := ⟨more - 1, by omega⟩
      have deeper := edge.lt
      rw [if_pos edge.lt.ne', if_pos edge.lt.ne', swap_eq leastBound bound, ok_bind]
      exact inductionHypothesis (by rwa [Array.size_swapIfInBounds]) (by omega)
        (by rw [Array.size_swapIfInBounds]; omega) (by omega)

/-- Erasing an entry of a heap of fewer than `2 ^ 31` comes to what the unchecked model says. -/
theorem erase_comesTo {timers : Array (Timer Task)} {index : Nat} (bound : index < timers.size)
    (few : timers.size < 2 ^ 31) :
    ComesTo (fun fuel => erase fuel timers index) (.ok (TimerManager.erase timers index)) := by
  have last : timers.size - 1 < timers.size := by omega
  refine ⟨timers.size, fun fuel enough => ?_⟩
  obtain ⟨more, rfl⟩ : ∃ more, fuel = more + 1 := ⟨fuel - 1, by omega⟩
  have size : (timers.swapIfInBounds index (timers.size - 1)).pop.size = timers.size - 1 := by
    rw [Array.size_pop, Array.size_swapIfInBounds]
  simp only [erase, swap_eq bound last, ok_bind]
  exact heapifyDown_eq _ (by omega) (by omega) (by omega) (by omega)

theorem pop_eq {timers : Array (Timer Task)} (bound : 0 < timers.size) (fuel : Nat) :
    pop fuel timers = erase fuel timers 0 >>= copyTop :=
  if_neg (by simpa [Array.isEmpty_iff_size_eq_zero] using bound.ne')

theorem copyTop_eq {timers : Array (Timer Task)} (bound : 0 < timers.size) :
    copyTop timers = .ok ((timers[0]?).elim .dangling .copied, timers) := by
  rw [copyTop, Array.getElem?_eq_getElem bound]
  rfl

theorem copyTop_pastEnd {timers : Array (Timer Task)} (empty : timers.size = 0) :
    copyTop timers = raise .pastEnd := by
  rw [copyTop, Array.getElem?_eq_none empty.le]

/-- Popping one of several, of fewer than `2 ^ 31`, comes to what the unchecked model says. -/
theorem pop_comesTo {timers : Array (Timer Task)} (several : 1 < timers.size)
    (few : timers.size < 2 ^ 31) :
    ComesTo (fun fuel => pop fuel timers) (.ok (TimerManager.pop timers)) := by
  have bound : 0 < timers.size := by omega
  have left : 0 < (TimerManager.erase timers 0).size := by
    rw [size_erase bound]
    omega
  have popped := (erase_comesTo bound few).bind copyTop
  rw [copyTop_eq left, ← pop_of_nonempty bound] at popped
  simp only [pop_eq bound]
  exact popped

/-- Popping the only entry copies the one that has been destroyed. -/
theorem pop_only_pastEnd {timers : Array (Timer Task)} (only : timers.size = 1) (fuel : Nat) :
    pop (fuel + 1) timers = raise .pastEnd := by
  have bound : 0 < timers.size := by omega
  have last : timers.size - 1 < timers.size := by omega
  have remaining : (timers.swapIfInBounds 0 (timers.size - 1)).pop.size = 0 := by
    rw [Array.size_pop, Array.size_swapIfInBounds, only]
  have erased : erase (fuel + 1) timers 0 =
      .ok (timers.swapIfInBounds 0 (timers.size - 1)).pop := by
    rw [erase, swap_eq bound last, ok_bind]
    exact heapifyDown_eq 0 (by omega) (by omega) (by omega) (Nat.zero_le fuel)
  rw [pop_eq bound, erased, ok_bind, copyTop_pastEnd remaining]

/-- Erasing the last of `2 ^ 31` entries or more reads behind the end. -/
theorem erase_last_pastEnd {timers : Array (Timer Task)} (many : 2 ^ 31 ≤ timers.size)
    (bounded : timers.size < 2 ^ 32 - 1) (fuel : Nat) :
    erase (fuel + 1) timers (timers.size - 1) = raise .pastEnd := by
  have last : timers.size - 1 < timers.size := by omega
  have size : (timers.swapIfInBounds (timers.size - 1) (timers.size - 1)).pop.size =
      timers.size - 1 := by
    rw [Array.size_pop, Array.size_swapIfInBounds]
  simp only [erase, swap_eq last last, ok_bind]
  generalize (timers.swapIfInBounds (timers.size - 1) (timers.size - 1)).pop = remaining at size
  have outside : remaining.size ≤ timers.size - 1 := size.le
  have right : ((timers.size - 1) * 2 + 2) % 2 ^ 32 < remaining.size := by omega
  rw [heapifyDown]
  by_cases left : ((timers.size - 1) * 2 + 1) % 2 ^ 32 < remaining.size
  · simp only [smaller, if_pos left, expiresBefore_pastEnd outside, raise_bind]
  · simp only [smaller, if_neg left, if_pos right, expiresBefore_pastEnd outside, raise_bind,
      pure_bind]

theorem push_eq {timers : Array (Timer Task)} (timer : Timer Task)
    (bounded : timers.size < 2 ^ 32 - 1) :
    push timers timer = .ok (TimerManager.push timers timer) := by
  have index : ((timers.push timer).size - 1) % 2 ^ 32 = timers.size := by
    rw [Array.size_push]
    omega
  simp only [push, TimerManager.push, index]
  exact heapifyUp_eq _ _ (by rw [Array.size_push]; omega)

end Checked

/-! ### Accounts -/

/-- What a call does with the entries, and with nothing else. -/
def Accounts (manager after : TimerManager Task) : TimerCall Task → Prop
  | .addTimer now milliseconds callback =>
    manager.timerId ∉ manager.pendingIds ∧ after.timerId = manager.timerId + 1 ∧
      after.timers.toList.Perm
        (⟨now + milliseconds.toNat * 1000000, manager.timerId, callback⟩ :: manager.timers.toList)
  | .removeTimer timerId =>
    (∀ timer ∈ manager.timers, timer.timerId = timerId →
      manager.timers.toList.Perm (timer :: after.timers.toList)) ∧
    (timerId ∉ manager.pendingIds → after = manager)
  | .tick now =>
    if manager.stop = false ∧ manager.due now = true then
      ∃ top, manager.timers[0]? = some top ∧
        manager.timers.toList.Perm (top :: after.timers.toList)
    else after = manager
  | .shutdown => after.timers = manager.timers

/-- The call returns, does what it should with the entries, and leaves their ids distinct. -/
structure Exact (manager : TimerManager Task) (call : TimerCall Task) : Prop where
  comesTo : ComesTo (fun fuel => Checked.step fuel manager call) (.ok (manager.step call))
  accounts : Accounts manager (manager.step call) call
  distinct : (manager.step call).pendingIds.Nodup

/-- A call that takes a timer out finds fewer than `2 ^ 31`, and `Tick` more than one. -/
def OneOfFew (manager : TimerManager Task) : TimerCall Task → Prop
  | .removeTimer timerId => timerId ∈ manager.pendingIds → Fits manager
  | .tick now =>
    manager.stop = false → manager.due now = true → Fits manager ∧ manager.timers.size ≠ 1
  | _ => True

instance (manager : TimerManager Task) (call : TimerCall Task) :
    Decidable (OneOfFew manager call) :=
  match call with
  | .removeTimer timerId =>
    inferInstanceAs (Decidable (timerId ∈ manager.pendingIds → Fits manager))
  | .tick now =>
    inferInstanceAs (Decidable
      (manager.stop = false → manager.due now = true → Fits manager ∧ manager.timers.size ≠ 1))
  | .addTimer _ _ _ | .shutdown => isTrue trivial

theorem accounts_addTimer {manager : TimerManager Task} (distinct : DistinctIds manager)
    (room : manager.timerId + 1 < 2 ^ 64) (now : TimePoint) (milliseconds : UInt32)
    (callback : Task) :
    Accounts manager (manager.addTimer now milliseconds callback)
      (.addTimer now milliseconds callback) :=
  ⟨fun member => lt_irrefl _ (distinct.below _ member), Nat.mod_eq_of_lt room, push_perm _ _⟩

theorem mem_pendingIds {manager : TimerManager Task} {timer : Timer Task}
    (member : timer ∈ manager.timers) : timer.timerId ∈ manager.pendingIds :=
  List.mem_map_of_mem (Array.mem_toList_iff.mpr member)

/-- `find_if` finds an entry with the id, or no pending timer has it. -/
theorem findIdx?_cases (manager : TimerManager Task) (timerId : Nat) :
    (∃ index, ∃ bound : index < manager.timers.size,
      (manager.timers.findIdx? fun timer => timer.timerId == timerId) = some index ∧
        manager.timers[index].timerId = timerId) ∨
    (manager.timers.findIdx? fun timer => timer.timerId == timerId) = none ∧
      timerId ∉ manager.pendingIds := by
  cases found : manager.timers.findIdx? fun timer => timer.timerId == timerId with
  | some index =>
    obtain ⟨bound, same, _⟩ := Array.findIdx?_eq_some_iff_getElem.mp found
    exact Or.inl ⟨index, bound, rfl, by simpa using same⟩
  | none =>
    refine Or.inr ⟨rfl, fun member => ?_⟩
    obtain ⟨timer, isPending, same⟩ := List.mem_map.mp member
    have differs := Array.findIdx?_eq_none_iff.mp found timer (Array.mem_toList_iff.mp isPending)
    simp [same] at differs

theorem removeTimer_found {manager : TimerManager Task} {timerId index : Nat}
    (found : (manager.timers.findIdx? fun timer => timer.timerId == timerId) = some index)
    (narrow : index < 2 ^ 32) :
    manager.removeTimer timerId = { manager with timers := erase manager.timers index } := by
  simp only [removeTimer, found, Nat.mod_eq_of_lt narrow]

theorem removeTimer_missing {manager : TimerManager Task} {timerId : Nat}
    (missing : (manager.timers.findIdx? fun timer => timer.timerId == timerId) = none) :
    manager.removeTimer timerId = manager := by
  simp only [removeTimer, missing]

/-- Pending timers with one id are one timer. -/
theorem DistinctIds.eq {manager : TimerManager Task} (distinct : DistinctIds manager)
    {first second : Timer Task} (one : first ∈ manager.timers) (other : second ∈ manager.timers)
    (same : first.timerId = second.timerId) : first = second :=
  List.inj_on_of_nodup_map distinct.nodup (Array.mem_toList_iff.mpr one)
    (Array.mem_toList_iff.mpr other) same

theorem accounts_removeTimer {manager : TimerManager Task} (distinct : DistinctIds manager)
    (bounded : manager.timers.size < 2 ^ 32 - 1) (timerId : Nat) :
    Accounts manager (manager.removeTimer timerId) (.removeTimer timerId) := by
  rcases findIdx?_cases manager timerId with ⟨index, bound, found, same⟩ | ⟨missing, absent⟩
  · have entry : manager.timers[index] ∈ manager.timers := Array.getElem_mem bound
    rw [removeTimer_found found (by omega)]
    refine ⟨fun timer member hasId => ?_, fun absent => absurd (same ▸ mem_pendingIds entry) absent⟩
    rw [distinct.eq member entry (hasId.trans same.symm)]
    exact erase_perm manager.timers bound
  · rw [removeTimer_missing missing]
    exact ⟨fun timer member hasId => absurd (hasId ▸ mem_pendingIds member) absent, fun _ => rfl⟩

theorem accounts_tick (manager : TimerManager Task) (now : TimePoint) :
    Accounts manager (manager.tick now).1 (.tick now) := by
  unfold Accounts tick
  cases stopped : manager.stop with
  | true => rfl
  | false =>
    by_cases isDue : manager.due now = true
    · have bound := nonempty_of_due isDue
      simp only [isDue, pop_of_nonempty bound, Bool.false_eq_true, if_false, and_self, if_true]
      exact ⟨manager.timers[0], Array.getElem?_eq_getElem bound, erase_perm manager.timers bound⟩
    · simp only [isDue, Bool.false_eq_true, if_false, and_false]

/-! ### Where every call is exact -/

/-- Where what is taken out is one of few timers, the call returns what the unchecked model
says. -/
theorem step_comesTo {manager : TimerManager Task} (bounded : manager.timers.size < 2 ^ 32 - 1)
    {call : TimerCall Task} (few : OneOfFew manager call) :
    ComesTo (fun fuel => Checked.step fuel manager call) (.ok (manager.step call)) := by
  cases call with
  | addTimer now milliseconds callback =>
    simp only [Checked.step, Checked.push_eq _ bounded, ok_bind]
    exact .const _
  | removeTimer timerId =>
    simp only [Checked.step, step]
    rcases findIdx?_cases manager timerId with ⟨index, bound, found, same⟩ | ⟨missing, absent⟩
    · have member : timerId ∈ manager.pendingIds := same ▸ mem_pendingIds (Array.getElem_mem bound)
      rw [removeTimer_found found (by omega)]
      simp only [found, Nat.mod_eq_of_lt (show index < 2 ^ 32 by omega)]
      exact (Checked.erase_comesTo bound (few member)).bind _
    · rw [removeTimer_missing missing]
      simp only [missing]
      exact .const _
  | tick now =>
    simp only [Checked.step, step, tick]
    cases stopped : manager.stop with
    | true => exact .const _
    | false =>
      by_cases isDue : manager.due now = true
      · obtain ⟨fits, several⟩ := few stopped isDue
        have bound := nonempty_of_due isDue
        have popped := (Checked.pop_comesTo (by omega) fits).bind fun popped =>
          pure ({ manager with timers := popped.2 } : TimerManager Task)
        rw [stopped] at popped
        simp only [Bool.false_eq_true, if_false, isDue, if_true]
        exact popped
      · simp only [Bool.false_eq_true, if_false, isDue]
        exact .const _
  | shutdown => exact .const _

theorem step_exact {manager : TimerManager Task} (distinct : DistinctIds manager)
    {call : TimerCall Task} (room : manager.timerId + issued [call] < 2 ^ 64)
    (bounded : manager.timers.size < 2 ^ 32 - 1) (few : OneOfFew manager call) :
    Exact manager call where
  comesTo := step_comesTo bounded few
  accounts := by
    cases call with
    | addTimer now milliseconds callback =>
      exact accounts_addTimer distinct room now milliseconds callback
    | removeTimer timerId => exact accounts_removeTimer distinct bounded timerId
    | tick now => exact accounts_tick manager now
    | shutdown => rfl
  distinct := (distinct.step call room).1.nodup

/-- With `2 ^ 31` timers or more, removing the one in the last slot reads behind the end. -/
theorem removeTimer_last_inexact {manager : TimerManager Task} (distinct : DistinctIds manager)
    (many : 2 ^ 31 ≤ manager.timers.size) (bounded : manager.timers.size < 2 ^ 32 - 1)
    (last : manager.timers.size - 1 < manager.timers.size) :
    ¬ Exact manager (.removeTimer manager.timers[manager.timers.size - 1].timerId) := by
  rintro ⟨⟨enough, returns⟩, _, _⟩
  have returned := returns (enough + 1) (Nat.le_succ enough)
  simp only [Checked.step] at returned
  rcases findIdx?_cases manager manager.timers[manager.timers.size - 1].timerId with
    ⟨index, bound, found, same⟩ | ⟨_, absent⟩
  · have length : manager.pendingIds.length = manager.timers.size := by simp [pendingIds]
    have indexIn : index < manager.pendingIds.length := by omega
    have lastIn : manager.timers.size - 1 < manager.pendingIds.length := by omega
    have ids : manager.pendingIds[index] = manager.pendingIds[manager.timers.size - 1] := by
      simpa [pendingIds] using same
    obtain rfl : index = manager.timers.size - 1 :=
      (List.Nodup.getElem_inj_iff distinct.nodup).mp ids
    simp only [found, Nat.mod_eq_of_lt (show manager.timers.size - 1 < 2 ^ 32 by omega),
      Checked.erase_last_pastEnd many bounded, raise_bind] at returned
    cases returned
  · exact absurd (mem_pendingIds (Array.getElem_mem last)) absent

/-- Taking the only timer out, once it is due, reads behind the end. -/
theorem tick_only_inexact {manager : TimerManager Task} (running : manager.stop = false)
    (only : manager.timers.size = 1) (bound : 0 < manager.timers.size) :
    ¬ Exact manager (.tick manager.timers[0].expiryTime) := by
  rintro ⟨⟨enough, returns⟩, _, _⟩
  have returned := returns (enough + 1) (Nat.le_succ enough)
  have isDue : manager.due manager.timers[0].expiryTime = true := by
    simp only [due, Array.getElem?_eq_getElem bound, le_refl, decide_true]
  simp only [Checked.step, running, isDue, Bool.false_eq_true, if_false, if_true,
    Checked.pop_only_pastEnd only, raise_bind] at returned
  cases returned

/-! ### Runs -/

theorem exact_history {manager : TimerManager Task} (distinct : DistinctIds manager)
    (calls : List (TimerCall Task)) (room : manager.timerId + issued calls < 2 ^ 64)
    (bounded : ∀ other ∈ reached step manager calls, other.timers.size < 2 ^ 32 - 1)
    (few : ∀ entry ∈ history step manager calls, OneOfFew entry.1 entry.2) :
    ∀ entry ∈ history step manager calls, Exact entry.1 entry.2 := by
  induction calls generalizing manager with
  | nil => exact fun _ => nofun
  | cons call calls inductionHypothesis =>
    rw [issued_cons] at room
    obtain ⟨next, counter⟩ := distinct.step call (by omega)
    obtain ⟨few, later⟩ := List.forall_mem_cons.mp few
    have here : Exact manager call :=
      step_exact distinct (by omega) (bounded _ (mem_reached_self step manager _)) few
    refine List.forall_mem_cons.mpr ⟨here, ?_⟩
    exact inductionHypothesis next (by omega)
      (fun other member => bounded other (mem_reached_cons step member)) later

theorem DistinctIds.initial : DistinctIds (TimerManager.initial : TimerManager Task) where
  nodup := List.nodup_nil
  below _ member := by cases member

/-- In every run in which each call that takes a timer out finds fewer than `2 ^ 31`, and `Tick`
more than one, every call is exact. In a state, whatever is called is exact if and only if fewer
than `2 ^ 31` timers are held there and `Tick` cannot take the only one. -/
theorem bookkeeping_exact_iff :
    (∀ calls : List (TimerCall Task), issued calls < 2 ^ 64 →
      (∀ manager ∈ reached step initial calls, manager.timers.size < 2 ^ 32 - 1) →
      (∀ entry ∈ history step initial calls, OneOfFew entry.1 entry.2) →
        ∀ entry ∈ history step initial calls, Exact entry.1 entry.2) ∧
    ∀ manager : TimerManager Task, DistinctIds manager → manager.timerId + 1 < 2 ^ 64 →
      manager.timers.size < 2 ^ 32 - 1 → ((∀ call, Exact manager call) ↔
        Fits manager ∧ (manager.stop = true ∨ manager.timers.size ≠ 1)) := by
  constructor
  · intro calls room bounded few
    have room : (initial : TimerManager Task).timerId + issued calls < 2 ^ 64 :=
      (Nat.zero_add _).symm ▸ room
    exact exact_history .initial calls room bounded few
  · intro manager distinct room bounded
    constructor
    · intro all
      constructor
      · by_contra many
        have many : 2 ^ 31 ≤ manager.timers.size := not_lt.mp many
        exact removeTimer_last_inexact distinct many bounded (by omega) (all _)
      · by_contra only
        obtain ⟨running, only⟩ := not_or.mp only
        exact tick_only_inexact (Bool.eq_false_iff.mpr running) (not_not.mp only) (by omega) (all _)
    · rintro ⟨fits, spared⟩ call
      have atMost : issued [call] ≤ 1 := by cases call <;> simp [issued]
      refine step_exact distinct (by omega) bounded ?_
      cases call with
      | removeTimer => exact fun _ => fits
      | tick =>
        intro running _
        exact ⟨fits, spared.resolve_left (Bool.eq_false_iff.mp running)⟩
      | addTimer | shutdown => trivial

/-- Two timers in a heap where the second comes first; one is removed, one expires. -/
theorem bookkeeping_exact_sample :
    ∀ entry ∈ history step initial
        [.addTimer 0 5 (), .addTimer 0 1 (), .addTimer 0 3 (), .removeTimer 0, .tick 2000000],
      Exact entry.1 entry.2 :=
  bookkeeping_exact_iff.1 _ (by decide) (by decide +kernel) (by decide +kernel)

/-! ### Too many timers -/

/-- Adding this many timers that expire at once. -/
def simultaneous (count : Nat) : List (TimerCall Unit) :=
  List.replicate count (.addTimer 0 0 ())

/-- What they leave: a timer for each id, in the order of the ids. -/
def holding (count : Nat) : TimerManager Unit :=
  ⟨(Array.range count).map fun timerId => ⟨0, timerId, ()⟩, count, false⟩

/-- Adding one more that expires later. -/
def crowd (count : Nat) : List (TimerCall Unit) :=
  simultaneous count ++ [.addTimer 0 1 ()]

/-- It stays behind the others. -/
def crowded (count : Nat) : TimerManager Unit :=
  ⟨(holding count).timers.push ⟨1000000, count, ()⟩, count + 1, false⟩

theorem size_holding (count : Nat) : (holding count).timers.size = count := by
  rw [holding, Array.size_map, Array.size_range]

theorem size_crowded (count : Nat) : (crowded count).timers.size = count + 1 := by
  rw [crowded, Array.size_push, size_holding]

theorem expiryTime_holding {count index : Nat} (bound : index < (holding count).timers.size) :
    (holding count).timers[index].expiryTime = 0 := by
  simp [holding]

/-- An entry that expires no earlier than its parent stays where it is. -/
theorem heapifyUp_stays {timers : Array (Timer Task)} {index : Nat}
    (notBefore : ¬ expiresBefore timers index ((index - 1) / 2)) :
    heapifyUp timers index = timers := by
  rw [heapifyUp]
  split
  · rfl
  · exact if_neg notBefore

theorem step_holding {count : Nat} (narrow : count < 2 ^ 32 - 1) :
    step (holding count) (.addTimer 0 0 ()) = holding (count + 1) := by
  have pushed : (holding count).timers.push ⟨0, count, ()⟩ = (holding (count + 1)).timers := by
    simp only [holding, Array.range_succ, Array.map_append, Array.push_eq_append, List.map_toArray,
      List.map_cons, List.map_nil]
  have counter : (count + 1) % 2 ^ 64 = count + 1 := Nat.mod_eq_of_lt (by omega)
  have timers : push (holding count).timers ⟨0, count, ()⟩ = (holding (count + 1)).timers := by
    rw [push, pushed]
    refine heapifyUp_stays fun before => ?_
    obtain ⟨_, _, less⟩ := (expiresBefore_iff _ _ _).mp before
    rw [expiryTime_holding, expiryTime_holding] at less
    exact lt_irrefl _ less
  show TimerManager.mk (push (holding count).timers ⟨0, count, ()⟩) ((count + 1) % 2 ^ 64) false = _
  rw [timers, counter]
  rfl

theorem foldl_simultaneous {count : Nat} (narrow : count ≤ 2 ^ 32 - 1) :
    (simultaneous count).foldl step initial = holding count := by
  induction count with
  | zero => simp [simultaneous, holding, initial]
  | succ count inductionHypothesis =>
    rw [simultaneous, List.replicate_succ', List.foldl_append, ← simultaneous,
      inductionHypothesis (by omega)]
    exact step_holding (by omega)

/-- What expires later does not pass its parent. -/
theorem step_crowded {count : Nat} (narrow : count < 2 ^ 32 - 1) :
    step (holding count) (.addTimer 0 1 ()) = crowded count := by
  have counter : (count + 1) % 2 ^ 64 = count + 1 := Nat.mod_eq_of_lt (by omega)
  have size := size_holding count
  have timers : push (holding count).timers ⟨1000000, count, ()⟩ = (crowded count).timers := by
    refine heapifyUp_stays fun before => ?_
    obtain ⟨own, parent, less⟩ := (expiresBefore_iff _ _ _).mp before
    have last : (((holding count).timers.push ⟨1000000, count, ()⟩).size - 1) % 2 ^ 32 = count := by
      rw [Array.size_push, size]
      omega
    simp only [last, Array.getElem_push, size, lt_irrefl, dite_false] at less
    split at less
    · rw [expiryTime_holding] at less
      exact absurd less (by decide)
    · exact lt_irrefl _ less
  show TimerManager.mk (push (holding count).timers ⟨1000000, count, ()⟩)
    ((count + 1) % 2 ^ 64) false = _
  rw [timers, counter]
  rfl

theorem foldl_crowd {count : Nat} (narrow : count < 2 ^ 32 - 1) :
    (crowd count).foldl step initial = crowded count := by
  rw [crowd, List.foldl_append, foldl_simultaneous narrow.le]
  exact step_crowded narrow

/-- The timers in front expire before it. -/
theorem expiresBefore_crowded {count : Nat} (some : 0 < count) :
    expiresBefore (crowded count).timers 0 count = true := by
  have size := size_holding count
  have all := size_crowded count
  rw [expiresBefore_iff]
  refine ⟨by omega, by omega, ?_⟩
  simp only [crowded, Array.getElem_push, size, some, lt_irrefl, dite_true, dite_false,
    expiryTime_holding]
  decide

theorem issued_simultaneous (count : Nat) (calls : List (TimerCall Unit)) :
    issued (simultaneous count ++ calls) = count + issued calls := by
  induction count with
  | zero => exact (Nat.zero_add _).symm
  | succ count inductionHypothesis =>
    rw [simultaneous, List.replicate_succ, List.cons_append, issued_cons, ← simultaneous,
      inductionHypothesis]
    simp only [issued]
    omega

theorem size_step_le (manager : TimerManager Task) (call : TimerCall Task) :
    (manager.step call).timers.size ≤ manager.timers.size + issued [call] := by
  cases call with
  | addTimer now milliseconds callback =>
    have length := (push_perm manager.timers
      ⟨now + milliseconds.toNat * 1000000, manager.timerId, callback⟩).length_eq
    rw [Array.length_toList, List.length_cons, Array.length_toList] at length
    exact length.le
  | removeTimer timerId =>
    simp only [step, removeTimer, issued, Nat.add_zero]
    split
    · rename_i index found
      obtain ⟨bound, _⟩ := Array.findIdx?_eq_some_iff_getElem.mp found
      exact size_erase_le ((Nat.mod_le _ _).trans_lt bound)
    · exact le_refl _
  | tick now =>
    simp only [step, tick, issued, Nat.add_zero]
    split
    · exact le_refl _
    · split
      · rename_i isDue
        have bound := nonempty_of_due isDue
        simp only [pop_of_nonempty bound]
        exact size_erase_le bound
      · exact le_refl _
  | shutdown => exact le_refl _

/-- No more timers are held than have been added. -/
theorem size_reached_le {manager : TimerManager Task} (calls : List (TimerCall Task)) :
    ∀ other ∈ reached step manager calls,
      other.timers.size ≤ manager.timers.size + issued calls := by
  induction calls generalizing manager with
  | nil =>
    intro other member
    rw [List.mem_singleton.mp member]
    exact Nat.le_add_right _ _
  | cons call calls inductionHypothesis =>
    rw [issued_cons]
    intro other member
    rcases List.mem_cons.mp member with rfl | later
    · exact Nat.le_add_right _ _
    · have := size_step_le manager call
      have := inductionHypothesis other later
      omega

theorem pendingIds_holding (count : Nat) : (holding count).pendingIds = List.range count := by
  simp only [holding, pendingIds, Array.toList_map, Array.toList_range, List.map_map]
  exact List.map_id _

theorem distinctIds_holding (count : Nat) : DistinctIds (holding count) where
  nodup := by
    rw [pendingIds_holding]
    exact List.nodup_range
  below timerId member := by
    rw [pendingIds_holding] at member
    exact List.mem_range.mp member

theorem distinctIds_crowded {count : Nat} (narrow : count < 2 ^ 32 - 1) :
    DistinctIds (crowded count) := by
  have room : (holding count).timerId + issued [.addTimer 0 1 ()] < 2 ^ 64 :=
    show count + 1 < 2 ^ 64 by omega
  exact step_crowded narrow ▸ ((distinctIds_holding count).step _ room).1

/-- After so many timers that a child index wraps, removing the last of them compares the entry
behind the end with the first one; and the first one expires before it, so that it would be
swapped behind the end. -/
theorem crowd_inexact {count : Nat} (some : 0 < count) (many : 2 ^ 31 ≤ count + 1)
    (bounded : count + 1 < 2 ^ 32 - 1) :
    issued (crowd count ++ [.removeTimer count]) < 2 ^ 64 ∧
      (∀ manager ∈ reached step initial (crowd count ++ [.removeTimer count]),
        manager.timers.size < 2 ^ 32 - 1) ∧
      expiresBefore ((crowd count).foldl step initial).timers 0 count = true ∧
      ¬ ∀ entry ∈ history step initial (crowd count ++ [.removeTimer count]),
        Exact entry.1 entry.2 := by
  have narrow : count < 2 ^ 32 - 1 := by omega
  have handedOut : issued (crowd count ++ [.removeTimer count]) = count + 1 := by
    rw [crowd, List.append_assoc, issued_simultaneous]
    rfl
  refine ⟨by omega, fun manager member => ?_, ?_, fun all => ?_⟩
  · have size := size_reached_le _ manager member
    have none : (initial : TimerManager Unit).timers.size = 0 := rfl
    omega
  · rw [foldl_crowd narrow]
    exact expiresBefore_crowded some
  · have here := all _ (mem_history_concat step initial (crowd count) _)
    rw [foldl_crowd narrow] at here
    have size := size_crowded count
    have last : (crowded count).timers.size - 1 < (crowded count).timers.size := by omega
    have id : (crowded count).timers[(crowded count).timers.size - 1].timerId = count := by
      simp only [crowded, Array.getElem_push, Array.size_push, Nat.add_sub_cancel, lt_irrefl,
        dite_false]
    refine removeTimer_last_inexact (distinctIds_crowded narrow) (by omega) (by omega) last ?_
    rw [id]
    exact here

theorem bookkeeping_overflows :
    issued (crowd (2 ^ 31 - 1) ++ [.removeTimer (2 ^ 31 - 1)]) < 2 ^ 64 ∧
      (∀ manager ∈ reached step initial (crowd (2 ^ 31 - 1) ++ [.removeTimer (2 ^ 31 - 1)]),
        manager.timers.size < 2 ^ 32 - 1) ∧
      expiresBefore ((crowd (2 ^ 31 - 1)).foldl step initial).timers 0 (2 ^ 31 - 1) = true ∧
      ¬ ∀ entry ∈ history step initial (crowd (2 ^ 31 - 1) ++ [.removeTimer (2 ^ 31 - 1)]),
        Exact entry.1 entry.2 :=
  crowd_inexact (by decide) (by decide) (by decide)

end Luce.TimerManager
