/-
This file settles when the timer heap stays ordered.

Adding a timer and popping the due one keep the min-heap order: both are a push
or a root removal followed by the sift that repairs it. `RemoveTimer` fills the
hole with the last timer and only sifts down, so it keeps the order exactly when
that timer does not expire before the parent of the hole. The per-call statement
is lifted to every run: all reached heaps are ordered if and only if every
removal of the run meets that condition.
-/

import Luce.Timer.TimerManager

namespace Luce.TimerManager

open Library.Heap Library.Run

variable {Task : Type}

/-! ### The sifts -/

theorem expiresBefore_iff (timers : Array (Timer Task)) (first second : Nat) :
    expiresBefore timers first second = true ↔
      ∃ (_ : first < timers.size) (_ : second < timers.size),
        timers[first].expiryTime < timers[second].expiryTime := by
  unfold expiresBefore
  split
  · rename_i bounds
    simp [bounds.1, bounds.2]
  · rename_i bounds
    simp only [Bool.false_eq_true, false_iff, not_exists]
    exact fun firstBound secondBound => absurd ⟨firstBound, secondBound⟩ bounds

theorem le_of_not_expiresBefore {timers : Array (Timer Task)} {first second : Nat}
    (notBefore : ¬ expiresBefore timers first second = true) (firstBound : first < timers.size)
    (secondBound : second < timers.size) :
    timers[second].expiryTime ≤ timers[first].expiryTime := by
  by_contra less
  exact notBefore ((expiresBefore_iff _ _ _).mpr ⟨firstBound, secondBound, not_le.mp less⟩)

theorem swapIfInBounds_eq (timers : Array (Timer Task)) {first second : Nat}
    (firstBound : first < timers.size) (secondBound : second < timers.size) :
    timers.swapIfInBounds first second = timers.swap first second := by
  rw [Array.swapIfInBounds_def, dif_pos firstBound, dif_pos secondBound]

theorem swapIfInBounds_perm (timers : Array (Timer Task)) (first second : Nat) :
    (timers.swapIfInBounds first second).Perm timers := by
  rw [Array.swapIfInBounds_def]
  split
  · split
    · exact Array.swap_perm _ _
    · exact Array.Perm.refl _
  · exact Array.Perm.refl _

theorem heapifyUp_perm (timers : Array (Timer Task)) (index : Nat) :
    (heapifyUp timers index).Perm timers := by
  fun_induction heapifyUp timers index with
  | case1 timers => exact Array.Perm.refl _
  | case2 timers index root parentIndex before inductionHypothesis =>
    exact inductionHypothesis.trans (swapIfInBounds_perm _ _ _)
  | case3 timers => exact Array.Perm.refl _

theorem heapifyDown_perm (fuel : Nat) (timers : Array (Timer Task)) (index : Nat) :
    (heapifyDown fuel timers index).Perm timers := by
  induction fuel generalizing timers index with
  | zero => exact Array.Perm.refl _
  | succ fuel inductionHypothesis =>
    rw [heapifyDown]
    split
    · exact (inductionHypothesis _ _).trans (swapIfInBounds_perm _ _ _)
    · exact Array.Perm.refl _

/-- Sifting up orders a heap whose only suspect pair is `index` and its parent. -/
theorem heapifyUp_ordered (timers : Array (Timer Task)) (index : Nat)
    (bound : index < timers.size) (ready : UpReady Timer.expiryTime timers index) :
    Ordered Timer.expiryTime (heapifyUp timers index) := by
  fun_induction heapifyUp timers index with
  | case1 timers =>
    exact ready.ordered fun up _ _ edge => absurd edge.1 (lt_irrefl 0)
  | case2 timers index root parentIndex before inductionHypothesis =>
    obtain ⟨_, upBound, less⟩ := (expiresBefore_iff _ _ _).mp before
    have edge : IsChild index parentIndex := ⟨Nat.pos_of_ne_zero root, rfl⟩
    rw [swapIfInBounds_eq timers bound upBound] at inductionHypothesis ⊢
    exact inductionHypothesis (by rwa [Array.size_swap]) (ready.swap bound upBound edge less)
  | case3 timers index root parentIndex stop =>
    refine ready.ordered fun up _ upBound edge => ?_
    obtain rfl : up = parentIndex := edge.2
    exact le_of_not_expiresBefore stop bound upBound

/-- While child indices do not wrap, the smallest index is a least child that
expires before its parent, or the parent itself when no child does. -/
theorem smallestIndex_spec (timers : Array (Timer Task)) (index : Nat)
    (room : index + 1 < 2 ^ 31) :
    (smallestIndex timers index = index ∧
        ∀ child (_ : child < timers.size) (_ : index < timers.size), IsChild child index →
          timers[index].expiryTime ≤ timers[child].expiryTime) ∨
      ∃ (_ : smallestIndex timers index < timers.size) (_ : index < timers.size),
        IsChild (smallestIndex timers index) index ∧
          timers[smallestIndex timers index].expiryTime < timers[index].expiryTime ∧
          ∀ child (_ : child < timers.size), IsChild child index →
            timers[smallestIndex timers index].expiryTime ≤ timers[child].expiryTime := by
  have left : (index * 2 + 1) % 2 ^ 32 = index * 2 + 1 := Nat.mod_eq_of_lt (by omega)
  have right : (index * 2 + 2) % 2 ^ 32 = index * 2 + 2 := Nat.mod_eq_of_lt (by omega)
  have children : ∀ child, IsChild child index → child = index * 2 + 1 ∨ child = index * 2 + 2 :=
    fun child edge => by rw [isChild_iff] at edge; omega
  have leftEdge : IsChild (index * 2 + 1) index := by rw [isChild_iff]; omega
  have rightEdge : IsChild (index * 2 + 2) index := by rw [isChild_iff]; omega
  by_cases leftLess : expiresBefore timers (index * 2 + 1) index = true
  · obtain ⟨leftBound, bound, less⟩ := (expiresBefore_iff _ _ _).mp leftLess
    refine Or.inr ?_
    by_cases rightLess : expiresBefore timers (index * 2 + 2) (index * 2 + 1) = true
    · simp only [smallestIndex, left, right, if_pos leftLess, if_pos rightLess]
      obtain ⟨rightBound, _, smaller⟩ := (expiresBefore_iff _ _ _).mp rightLess
      refine ⟨rightBound, bound, rightEdge, smaller.trans less, fun child _ edge => ?_⟩
      rcases children child edge with rfl | rfl
      · exact smaller.le
      · exact le_rfl
    · simp only [smallestIndex, left, right, if_pos leftLess, if_neg rightLess]
      refine ⟨leftBound, bound, leftEdge, less, fun child childBound edge => ?_⟩
      rcases children child edge with rfl | rfl
      · exact le_rfl
      · exact le_of_not_expiresBefore rightLess childBound leftBound
  · by_cases rightLess : expiresBefore timers (index * 2 + 2) index = true
    · simp only [smallestIndex, left, right, if_neg leftLess, if_pos rightLess]
      obtain ⟨rightBound, bound, less⟩ := (expiresBefore_iff _ _ _).mp rightLess
      refine Or.inr ⟨rightBound, bound, rightEdge, less, fun child childBound edge => ?_⟩
      rcases children child edge with rfl | rfl
      · exact less.le.trans (le_of_not_expiresBefore leftLess childBound bound)
      · exact le_rfl
    · simp only [smallestIndex, left, right, if_neg leftLess, if_neg rightLess]
      refine Or.inl ⟨trivial, fun child childBound bound edge => ?_⟩
      rcases children child edge with rfl | rfl
      · exact le_of_not_expiresBefore leftLess childBound bound
      · exact le_of_not_expiresBefore rightLess childBound bound

/-- Sifting down orders a heap whose only suspect pairs are `index` and its children. -/
theorem heapifyDown_ordered (fuel : Nat) (timers : Array (Timer Task)) (index : Nat)
    (small : timers.size < 2 ^ 31) (room : index + 1 < 2 ^ 31)
    (enough : timers.size ≤ fuel + index) (ready : DownReady Timer.expiryTime timers index) :
    Ordered Timer.expiryTime (heapifyDown fuel timers index) := by
  induction fuel generalizing timers index with
  | zero =>
    refine ready.ordered fun child childBound bound _ => ?_
    omega
  | succ fuel inductionHypothesis =>
    rw [heapifyDown]
    rcases smallestIndex_spec timers index room with
      ⟨same, least⟩ | ⟨leastBound, bound, edge, less, minimal⟩
    · rw [if_neg (not_not.mpr same)]
      exact ready.ordered least
    · rw [if_pos edge.lt.ne', swapIfInBounds_eq timers leastBound bound]
      have deeper := edge.lt
      exact inductionHypothesis _ _ (by rwa [Array.size_swap]) (by omega)
        (by rw [Array.size_swap]; omega) (ready.swap bound leastBound edge less minimal)

/-! ### Erasing and pushing -/

theorem erase_eq (timers : Array (Timer Task)) {index : Nat} (bound : index < timers.size) :
    erase timers index =
      heapifyDown (swapRemove timers index bound).size (swapRemove timers index bound) index := by
  have last : timers.size - 1 < timers.size := by omega
  simp only [erase, swapRemove, swapIfInBounds_eq timers bound last]

/-- Erasing takes out exactly the timer at the index. -/
theorem erase_perm (timers : Array (Timer Task)) {index : Nat} (bound : index < timers.size) :
    timers.toList.Perm (timers[index] :: (erase timers index).toList) := by
  rw [erase_eq timers bound]
  exact (perm_swapRemove bound).trans ((heapifyDown_perm _ _ _).toList.symm.cons _)

theorem push_perm (timers : Array (Timer Task)) (timer : Timer Task) :
    (push timers timer).toList.Perm (timer :: timers.toList) := by
  refine (heapifyUp_perm _ _).toList.trans ?_
  rw [Array.toList_push]
  exact List.perm_append_singleton _ _

theorem push_ordered {timers : Array (Timer Task)} (timer : Timer Task)
    (small : timers.size < 2 ^ 31) (ordered : Ordered Timer.expiryTime timers) :
    Ordered Timer.expiryTime (push timers timer) := by
  have index : ((timers.push timer).size - 1) % 2 ^ 32 = timers.size := by
    rw [Array.size_push]
    omega
  simp only [push, index]
  exact heapifyUp_ordered _ _ (by rw [Array.size_push]; omega) (ordered.push timer)

/-- Erasing keeps an ordered heap ordered exactly when the last timer, which
fills the hole, does not expire before the parent of the hole. -/
theorem erase_ordered_iff {timers : Array (Timer Task)} {index : Nat}
    (bound : index < timers.size) (small : timers.size < 2 ^ 31)
    (ordered : Ordered Timer.expiryTime timers) :
    Ordered Timer.expiryTime (erase timers index) ↔
      (index + 1 < timers.size → ∀ up (_ : up < timers.size), IsChild index up →
        timers[up].expiryTime ≤ timers[timers.size - 1].expiryTime) := by
  have few : (swapRemove timers index bound).size < 2 ^ 31 := by
    rw [size_swapRemove]
    omega
  have room : index + 1 < 2 ^ 31 := by omega
  rw [erase_eq timers bound]
  constructor
  · intro repaired notLast up upBound edge
    by_contra below
    have indexIn : index < (swapRemove timers index bound).size := by
      rw [size_swapRemove]
      omega
    have upIn : up < (swapRemove timers index bound).size := edge.lt.trans indexIn
    have filled : (swapRemove timers index bound)[index] = timers[timers.size - 1] := by
      rw [getElem_swapRemove bound index indexIn bound, if_pos rfl]
    have kept : (swapRemove timers index bound)[up] = timers[up] := by
      rw [getElem_swapRemove bound up upIn upBound, if_neg edge.lt.ne]
    -- The filling timer expires before everything below the hole, so nothing is sifted.
    rcases smallestIndex_spec _ index room with
      ⟨same, _⟩ | ⟨leastIn, _, leastEdge, less, _⟩
    · obtain ⟨fuel, size⟩ : ∃ fuel, (swapRemove timers index bound).size = fuel + 1 :=
        Nat.exists_eq_add_one.mpr (by omega)
      rw [size, heapifyDown, if_neg (not_not.mpr same)] at repaired
      have pair := repaired index up indexIn upIn edge
      rw [filled, kept] at pair
      exact below pair
    · have leastBound : smallestIndex (swapRemove timers index bound) index < timers.size := by
        rw [size_swapRemove] at leastIn
        omega
      rw [filled, getElem_swapRemove bound _ leastIn leastBound, if_neg leastEdge.lt.ne'] at less
      have upper := ordered index up bound upBound edge
      have lower := ordered _ index leastBound bound leastEdge
      exact below (upper.trans (lower.trans less.le))
  · intro above
    exact heapifyDown_ordered _ _ _ few room (Nat.le_add_right _ _)
      (ordered.swapRemove bound above)

/-- On a heap with an entry, `pop` erases the root and copies slot `0` of the rest. -/
theorem pop_of_nonempty {timers : Array (Timer Task)} (bound : 0 < timers.size) :
    pop timers =
      (((erase timers 0)[0]?).elim .dangling .copied, erase timers 0) := by
  unfold pop
  rw [if_neg (by simpa [Array.isEmpty_iff_size_eq_zero] using bound.ne')]
  dsimp only
  cases (erase timers 0)[0]? <;> rfl

theorem nonempty_of_due {manager : TimerManager Task} {now : TimePoint}
    (isDue : manager.due now = true) : 0 < manager.timers.size := by
  by_contra empty
  simp [due, Array.getElem?_eq_none (Nat.le_of_not_lt empty)] at isDue

/-! ### Runs -/

/-- No pending timer expires before its parent in the heap. -/
def HeapOrdered (manager : TimerManager Task) : Prop :=
  Ordered Timer.expiryTime manager.timers

/-- The timer that `tick` inspects has the smallest expiry of all pending timers. -/
def TopIsNext (manager : TimerManager Task) : Prop :=
  ∀ top, manager.timers[0]? = some top →
    ∀ timer ∈ manager.timers, top.expiryTime ≤ timer.expiryTime

/-- Fewer pending timers than make a child index wrap. -/
def Fits (manager : TimerManager Task) : Prop := manager.timers.size < 2 ^ 31

/-- A removal finds no timer, or finds it at the root or in the last slot, or the
last timer of the heap expires no earlier than the parent of the removed one. -/
def RemovalSafe (manager : TimerManager Task) : TimerCall Task → Prop
  | .removeTimer timerId =>
    match manager.timers.findIdx? fun timer => timer.timerId == timerId with
    | some index => 0 < index → index + 1 < manager.timers.size →
        expiresBefore manager.timers (manager.timers.size - 1) ((index - 1) / 2) = false
    | none => True
  | _ => True

instance (manager : TimerManager Task) : Decidable (HeapOrdered manager) :=
  inferInstanceAs (Decidable (Ordered _ _))

instance (manager : TimerManager Task) : Decidable (Fits manager) :=
  inferInstanceAs (Decidable (_ < _))

instance (manager : TimerManager Task) (call : TimerCall Task) :
    Decidable (RemovalSafe manager call) := by
  unfold RemovalSafe
  split
  · split <;> infer_instance
  · infer_instance

theorem HeapOrdered.topIsNext {manager : TimerManager Task} (ordered : HeapOrdered manager) :
    TopIsNext manager := by
  intro top first timer member
  obtain ⟨rootBound, rfl⟩ := Array.getElem?_eq_some_iff.mp first
  obtain ⟨index, bound, rfl⟩ := Array.getElem_of_mem member
  exact ordered.root_le index bound rootBound

theorem removeTimer_ordered_iff {manager : TimerManager Task} (ordered : HeapOrdered manager)
    (fits : Fits manager) (timerId : Nat) :
    HeapOrdered (manager.removeTimer timerId) ↔ RemovalSafe manager (.removeTimer timerId) := by
  unfold removeTimer
  split
  · rename_i index found
    obtain ⟨bound, _⟩ := Array.findIdx?_eq_some_iff_getElem.mp found
    have narrow : index % 2 ^ 32 = index := Nat.mod_eq_of_lt (by unfold Fits at fits; omega)
    simp only [narrow, RemovalSafe, found]
    refine (erase_ordered_iff bound fits ordered).trans ⟨?_, ?_⟩
    · intro safe nonRoot notLast
      by_contra before
      obtain ⟨_, upBound, less⟩ := (expiresBefore_iff _ _ _).mp (by simpa using before)
      exact not_le.mpr less (safe notLast _ upBound ⟨nonRoot, rfl⟩)
    · rintro safe notLast up upBound ⟨nonRoot, rfl⟩
      have notBefore := Bool.eq_false_iff.mp (safe nonRoot notLast)
      exact le_of_not_expiresBefore notBefore (by omega) upBound
  · rename_i missing
    simp only [RemovalSafe, missing]
    exact ⟨fun _ => trivial, fun _ => ordered⟩

theorem tick_ordered {manager : TimerManager Task} (ordered : HeapOrdered manager)
    (fits : Fits manager) (now : TimePoint) : HeapOrdered (manager.tick now).1 := by
  unfold tick
  split
  · exact ordered
  · split
    · rename_i isDue
      have bound := nonempty_of_due isDue
      simp only [HeapOrdered, pop_of_nonempty bound]
      exact (erase_ordered_iff bound fits ordered).mpr
        fun _ _ _ edge => absurd edge.1 (lt_irrefl 0)
    · exact ordered

/-- One call keeps an ordered heap ordered exactly when it is a safe removal or
no removal. -/
theorem step_ordered_iff {manager : TimerManager Task} (call : TimerCall Task)
    (ordered : HeapOrdered manager) (fits : Fits manager) :
    HeapOrdered (manager.step call) ↔ RemovalSafe manager call := by
  cases call with
  | addTimer now milliseconds callback =>
    exact ⟨fun _ => trivial, fun _ => push_ordered _ fits ordered⟩
  | removeTimer timerId => exact removeTimer_ordered_iff ordered fits timerId
  | tick now => exact ⟨fun _ => trivial, fun _ => tick_ordered ordered fits now⟩
  | shutdown => exact ⟨fun _ => trivial, fun _ => ordered⟩

/-- In every run that holds fewer than `2 ^ 31` timers at a time, the heap is
ordered and its top is next after every call, exactly when every removal of the
run is safe. -/
theorem reached_ordered_iff (calls : List (TimerCall Task))
    (fitting : ∀ manager ∈ reached step initial calls, Fits manager) :
    (∀ manager ∈ reached step initial calls, HeapOrdered manager ∧ TopIsNext manager) ↔
      ∀ entry ∈ history step (initial : TimerManager Task) calls,
        RemovalSafe entry.1 entry.2 := by
  have topFollows : (∀ manager ∈ reached step initial calls,
      HeapOrdered manager ∧ TopIsNext manager) ↔
        ∀ manager ∈ reached step (initial : TimerManager Task) calls, HeapOrdered manager :=
    forall₂_congr fun _ _ => ⟨And.left, fun ordered => ⟨ordered, ordered.topIsNext⟩⟩
  rw [topFollows]
  have initially : HeapOrdered (initial : TimerManager Task) := ordered_empty
  exact forall_reached_iff step
    (fun manager call ordered fits _ => step_ordered_iff call ordered fits)
    initially calls fitting

/-- Seven timers whose heap keeps late expiries left and early ones right. -/
def lopsided : List (TimerCall Unit) :=
  [.addTimer 0 1 (), .addTimer 0 10 (), .addTimer 0 2 (), .addTimer 0 11 (), .addTimer 0 12 (),
    .addTimer 0 3 (), .addTimer 0 4 ()]

/-- Removing the last timer of the lopsided heap is safe. -/
theorem reached_ordered_lopsided :
    (∀ entry ∈ history step initial (lopsided ++ [.removeTimer 6]),
      RemovalSafe entry.1 entry.2) ∧
    ∀ manager ∈ reached step initial (lopsided ++ [.removeTimer 6]),
      HeapOrdered manager ∧ TopIsNext manager := by
  have safe : ∀ entry ∈ history step initial (lopsided ++ [.removeTimer 6]),
      RemovalSafe entry.1 entry.2 := by decide +kernel
  exact ⟨safe, (reached_ordered_iff _ (by decide +kernel)).mpr safe⟩

/-- Removing timer `3` of the lopsided heap moves the timer of 4 ms under the
one of 10 ms. -/
theorem removal_breaks_order :
    ¬ ∀ manager ∈ reached step initial (lopsided ++ [.removeTimer 3]),
      HeapOrdered manager ∧ TopIsNext manager := by
  intro all
  exact absurd (fun manager member => (all manager member).1)
    (show ¬ ∀ manager ∈ reached step initial (lopsided ++ [.removeTimer 3]),
      HeapOrdered manager by decide +kernel)

end Luce.TimerManager
