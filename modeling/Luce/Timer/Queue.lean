/-
This file proves that the timer manager is a priority queue that spawns the wrong tasks.

As long as the removals keep the heap in order, the pending timers are a queue of which each due
iteration takes out the first. The task that it spawns is that of the timer that is first then:
so the task of the timer that was due is not run for it, and a task is run when the timer in
front of its own is due.
-/

import Luce.Library.PriorityQueue
import Luce.Timer.Bookkeeping
import Mathlib.Data.List.ReduceOption

namespace Luce

open Library.Heap Library.Run Library.PriorityQueue

variable {Task : Type}

/-- What the timer manager is for: timers are added and removed, and the first is taken out. -/
structure TimerQueue (Task : Type) where
  pending : Multiset (Timer Task)
  timerId : Nat
  stop : Bool

namespace TimerQueue

/-- What a call does, with the local timer whose task it spawns. -/
inductive Answers : TimerQueue Task → TimerCall Task → Option (Popped Task) → TimerQueue Task →
    Prop
  | added {pending : Multiset (Timer Task)} {timerId : Nat} {stop : Bool} (now : TimePoint)
      (milliseconds : UInt32) (callback : Task) :
      Answers ⟨pending, timerId, stop⟩ (.addTimer now milliseconds callback) none
        ⟨⟨now + milliseconds.toNat * 1000000, timerId, callback⟩ ::ₘ pending, timerId + 1, stop⟩
  | removed {pending rest : Multiset (Timer Task)} {timerId : Nat} {stop : Bool}
      (timer : Timer Task) (found : pending = timer ::ₘ rest) :
      Answers ⟨pending, timerId, stop⟩ (.removeTimer timer.timerId) none ⟨rest, timerId, stop⟩
  | missing {queue : TimerQueue Task} {timerId : Nat}
      (absent : ∀ timer ∈ queue.pending, timer.timerId ≠ timerId) :
      Answers queue (.removeTimer timerId) none queue
  | stopped {pending : Multiset (Timer Task)} {timerId : Nat} {stop : Bool} :
      Answers ⟨pending, timerId, stop⟩ .shutdown none ⟨pending, timerId, true⟩
  | idle {queue : TimerQueue Task} {now : TimePoint}
      (early : queue.stop = false → ∀ timer ∈ queue.pending, now < timer.expiryTime) :
      Answers queue (.tick now) none queue
  | spawned {pending rest : Multiset (Timer Task)} {timerId : Nat} {now : TimePoint}
      {due next : Timer Task} (first : First Timer.expiryTime pending due)
      (late : due.expiryTime ≤ now) (taken : pending = due ::ₘ rest)
      (behind : First Timer.expiryTime rest next) :
      Answers ⟨pending, timerId, false⟩ (.tick now) (some (.copied next)) ⟨rest, timerId, false⟩
  | last {timerId : Nat} {now : TimePoint} {due : Timer Task} (late : due.expiryTime ≤ now) :
      Answers ⟨{due}, timerId, false⟩ (.tick now) (some .dangling) ⟨0, timerId, false⟩

/-- What calls do one after another. -/
inductive Runs : TimerQueue Task → List (TimerCall Task) → List (Option (Popped Task)) →
    TimerQueue Task → Prop
  | nothing (queue : TimerQueue Task) : Runs queue [] [] queue
  | call {queue next final : TimerQueue Task} {call : TimerCall Task}
      {calls : List (TimerCall Task)} {spawned : Option (Popped Task)}
      {others : List (Option (Popped Task))} (answers : Answers queue call spawned next)
      (later : Runs next calls others final) : Runs queue (call :: calls) (spawned :: others) final

end TimerQueue

namespace TimerManager

variable {manager : TimerManager Task}

/-- The pending timers, in whatever order. -/
def pending (manager : TimerManager Task) : Multiset (Timer Task) := ↑manager.timers.toList

/-- The queue that the manager stands for. -/
def toTimerQueue (manager : TimerManager Task) : TimerQueue Task :=
  ⟨manager.pending, manager.timerId, manager.stop⟩

theorem mem_pending {timer : Timer Task} : timer ∈ manager.pending ↔ timer ∈ manager.timers :=
  Multiset.mem_coe.trans Array.mem_toList_iff

/-- The top of an ordered heap is first. -/
theorem HeapOrdered.first (ordered : HeapOrdered manager) {top : Timer Task}
    (root : manager.timers[0]? = some top) : First Timer.expiryTime manager.pending top :=
  ⟨mem_pending.mpr (Array.mem_of_getElem? root), fun other member =>
    ordered.topIsNext top root other (mem_pending.mp member)⟩

/-- A due iteration takes out the top, and copies the one that is the top then. -/
theorem tick_due (running : manager.stop = false) {now : TimePoint}
    (isDue : manager.due now = true) :
    ∃ top rest, manager.timers[0]? = some top ∧ top.expiryTime ≤ now ∧
      manager.tick now = ({ manager with timers := rest },
        some ((rest[0]?).elim .dangling .copied)) ∧
      manager.pending = top ::ₘ ({ manager with timers := rest } : TimerManager Task).pending := by
  have bound := nonempty_of_due isDue
  have root : manager.timers[0]? = some manager.timers[0] := Array.getElem?_eq_getElem bound
  have late : manager.timers[0].expiryTime ≤ now := by
    simpa only [due, root, decide_eq_true_eq] using isDue
  refine ⟨manager.timers[0], erase manager.timers 0, root, late, ?_, ?_⟩
  · simp only [tick, running, isDue, pop_of_nonempty bound, Bool.false_eq_true, if_false, if_true]
  · rw [pending, Multiset.coe_eq_coe.mpr (erase_perm manager.timers bound)]
    rfl

theorem tick_idle {now : TimePoint} (idle : manager.stop = true ∨ manager.due now = false) :
    manager.tick now = (manager, none) := by
  rcases idle with stopped | early
  · simp only [tick, stopped, if_true]
  · simp only [tick, early, Bool.false_eq_true, if_false, ite_self]

/-- Where the top is not due, nothing is. -/
theorem HeapOrdered.early (ordered : HeapOrdered manager) {now : TimePoint}
    (notDue : manager.due now = false) : ∀ timer ∈ manager.pending, now < timer.expiryTime := by
  intro timer member
  have bound := Array.size_pos_of_mem (mem_pending.mp member)
  have root : manager.timers[0]? = some manager.timers[0] := Array.getElem?_eq_getElem bound
  have later : now < manager.timers[0].expiryTime := by
    simpa only [due, root, decide_eq_false_iff_not, not_le] using notDue
  exact later.trans_le ((ordered.first root).2 timer member)

/-! ### One call -/

theorem pending_addTimer (manager : TimerManager Task) (now : TimePoint) (milliseconds : UInt32)
    (callback : Task) :
    (manager.addTimer now milliseconds callback).pending =
      ⟨now + milliseconds.toNat * 1000000, manager.timerId, callback⟩ ::ₘ manager.pending :=
  Multiset.coe_eq_coe.mpr (push_perm _ _)

/-- An iteration takes no timer out, or one. -/
theorem pending_tick (manager : TimerManager Task) (now : TimePoint) :
    (manager.tick now).1.pending = manager.pending ∨
      ∃ top, manager.pending = top ::ₘ (manager.tick now).1.pending := by
  cases running : manager.stop with
  | true => exact .inl (by rw [tick_idle (.inl running)])
  | false =>
  cases isDue : manager.due now with
  | false => exact .inl (by rw [tick_idle (.inr isDue)])
  | true =>
    obtain ⟨top, rest, -, -, ticked, taken⟩ := tick_due running isDue
    exact .inr ⟨top, by rw [ticked, taken]⟩

/-- A removal takes the timer with the id out, if there is one. -/
theorem pending_removeTimer (fits : Fits manager) (timerId : Nat) :
    (∃ timer : Timer Task, timer.timerId = timerId ∧
        manager.pending = timer ::ₘ (manager.removeTimer timerId).pending) ∨
      (∀ timer ∈ manager.pending, timer.timerId ≠ timerId) ∧
        manager.removeTimer timerId = manager := by
  rcases findIdx?_cases manager timerId with ⟨index, bound, found, same⟩ | ⟨missing, absent⟩
  · have narrow : index < 2 ^ 32 := by
      unfold Fits at fits
      omega
    rw [removeTimer_found found narrow]
    exact .inl ⟨_, same, Multiset.coe_eq_coe.mpr (erase_perm manager.timers bound)⟩
  · refine .inr ⟨fun timer member same => absent ?_, removeTimer_missing missing⟩
    exact same ▸ mem_pendingIds (mem_pending.mp member)

/-- A removal changes nothing but the heap. -/
theorem removeTimer_rest (manager : TimerManager Task) (timerId : Nat) :
    (manager.removeTimer timerId).timerId = manager.timerId ∧
      (manager.removeTimer timerId).stop = manager.stop := by
  unfold removeTimer
  split <;> exact ⟨rfl, rfl⟩

theorem answers_removeTimer (fits : Fits manager) (timerId : Nat) :
    TimerQueue.Answers manager.toTimerQueue (.removeTimer timerId) none
      (manager.removeTimer timerId).toTimerQueue := by
  rcases pending_removeTimer fits timerId with ⟨timer, rfl, found⟩ | ⟨absent, same⟩
  · rw [toTimerQueue, toTimerQueue, (manager.removeTimer_rest timer.timerId).1,
      (manager.removeTimer_rest timer.timerId).2]
    exact .removed timer found
  · rw [same]
    exact .missing absent

theorem answers_tick (ordered : HeapOrdered manager) (fits : Fits manager) (now : TimePoint) :
    TimerQueue.Answers manager.toTimerQueue (.tick now) (manager.tick now).2
      (manager.tick now).1.toTimerQueue := by
  cases running : manager.stop with
  | true =>
    rw [tick_idle (.inl running)]
    exact .idle fun going => absurd (running.symm.trans going) (by decide)
  | false =>
  cases isDue : manager.due now with
  | false =>
    rw [tick_idle (.inr isDue)]
    exact .idle fun _ => ordered.early isDue
  | true =>
    obtain ⟨top, rest, root, late, ticked, taken⟩ := tick_due running isDue
    have orderedAfter := tick_ordered ordered fits now
    rw [ticked] at orderedAfter ⊢
    simp only [toTimerQueue, running]
    cases next : rest[0]? with
    | some next' => exact .spawned (ordered.first root) late taken (orderedAfter.first next)
    | none =>
      have empty : rest = #[] := by simpa using next
      subst empty
      rw [taken]
      exact .last late

/-- A call that keeps the heap in order does what it would do with the queue. -/
theorem answers_step (ordered : HeapOrdered manager) (fits : Fits manager)
    {call : TimerCall Task} (room : manager.timerId + issued [call] < 2 ^ 64) :
    TimerQueue.Answers manager.toTimerQueue call (manager.spawned call)
      (manager.step call).toTimerQueue := by
  cases call with
  | addTimer now milliseconds callback =>
    have counter : (manager.timerId + 1) % 2 ^ 64 = manager.timerId + 1 := Nat.mod_eq_of_lt room
    have pushed : (manager.addTimer now milliseconds callback).toTimerQueue =
        ⟨⟨now + milliseconds.toNat * 1000000, manager.timerId, callback⟩ ::ₘ manager.pending,
          manager.timerId + 1, manager.stop⟩ := by
      rw [toTimerQueue, pending_addTimer, addTimer, counter]
    rw [step, pushed]
    exact .added now milliseconds callback
  | removeTimer timerId => exact answers_removeTimer fits timerId
  | tick now => exact answers_tick ordered fits now
  | shutdown => exact .stopped

/-! ### Runs -/

theorem timerId_step (manager : TimerManager Task) (call : TimerCall Task) :
    (manager.step call).timerId ≤ manager.timerId + issued [call] := by
  cases call with
  | addTimer => exact Nat.mod_le _ _
  | removeTimer timerId =>
    simp only [step, removeTimer]
    split <;> exact Nat.le_refl _
  | tick now =>
    simp only [step, tick]
    split
    · exact Nat.le_refl _
    · split <;> exact Nat.le_refl _
  | shutdown => exact Nat.le_refl _

theorem fits_tick (fits : Fits manager) (now : TimePoint) : Fits (manager.tick now).1 := by
  unfold tick
  split
  · exact fits
  · split
    case isFalse => exact fits
    case isTrue isDue =>
      have bound := nonempty_of_due isDue
      simp only [Fits, pop_of_nonempty bound]
      exact (size_erase_le bound).trans_lt fits

theorem running_tick (running : manager.stop = false) (now : TimePoint) :
    (manager.tick now).1.stop = false := by
  unfold tick
  split
  · exact running
  · split <;> exact running

/-- What the calls of a run spawn. -/
def spawns (manager : TimerManager Task) (calls : List (TimerCall Task)) :
    List (Option (Popped Task)) :=
  (history step manager calls).map fun entry => entry.1.spawned entry.2

theorem runs_of_safe (ordered : HeapOrdered manager) {calls : List (TimerCall Task)}
    (fitting : ∀ other ∈ reached step manager calls, Fits other)
    (safe : ∀ entry ∈ history step manager calls, RemovalSafe entry.1 entry.2)
    (room : manager.timerId + issued calls < 2 ^ 64) :
    TimerQueue.Runs manager.toTimerQueue calls (manager.spawns calls)
      (calls.foldl step manager).toTimerQueue := by
  induction calls generalizing manager with
  | nil => exact .nothing _
  | cons call calls inductionHypothesis =>
    obtain ⟨safeHere, safeLater⟩ := List.forall_mem_cons.mp safe
    obtain ⟨fits, fitLater⟩ := List.forall_mem_cons.mp fitting
    rw [issued_cons] at room
    have answers : TimerQueue.Answers _ call _ _ := answers_step ordered fits (by omega)
    have next := (step_ordered_iff call ordered fits).mpr safeHere
    refine .call answers (inductionHypothesis next fitLater safeLater ?_)
    have counter := timerId_step manager call
    omega

/-- In every run that holds fewer than `2 ^ 31` timers at a time and whose removals keep the heap
in order, the manager does what the queue does. -/
theorem run_refines_queue (calls : List (TimerCall Task))
    (fitting : ∀ manager ∈ reached step initial calls, Fits manager)
    (safe : ∀ entry ∈ history step initial calls, RemovalSafe entry.1 entry.2)
    (room : issued calls < 2 ^ 64) :
    TimerQueue.Runs ⟨0, 0, false⟩ calls (initial.spawns calls)
      (calls.foldl step initial).toTimerQueue := by
  have ordered : HeapOrdered (initial : TimerManager Task) := ordered_empty
  exact runs_of_safe ordered fitting safe (by rwa [initial, Nat.zero_add])

/-- One of three timers is removed, and one taken out, which leaves the other in front. -/
theorem run_refines_queue_three :
    ∃ final, TimerQueue.Runs ⟨0, 0, false⟩
      [.addTimer 0 30 7, .addTimer 0 10 8, .addTimer 0 20 9, .removeTimer 0, .tick 5000000,
        .tick 10000000]
      [none, none, none, none, none, some (.copied ⟨20000000, 2, 9⟩)] final := by
  have spawned : (initial : TimerManager Nat).spawns [.addTimer 0 30 7, .addTimer 0 10 8,
      .addTimer 0 20 9, .removeTimer 0, .tick 5000000, .tick 10000000] =
        [none, none, none, none, none, some (.copied ⟨20000000, 2, 9⟩)] := by decide +kernel
  rw [← spawned]
  exact ⟨_, run_refines_queue _ (by decide +kernel) (by decide +kernel) (by decide)⟩

/-! ### Ticks in a row -/

/-- The timers behind the ones that are taken out: each is spawned when the one in front of it is
taken out, and the first of them is not. -/
def shifted : List (Timer Task) → Option (Timer Task) → List (Popped Task)
  | [], _ => []
  | _ :: others, top => others.map .copied ++ [top.elim .dangling .copied]

/-- The timers that some iterations in a row take out, and what they spawn. -/
structure Ticked (manager final : TimerManager Task) (readings : List TimePoint)
    (taken : List (Timer Task)) : Prop where
  drains : Drains Timer.expiryTime manager.pending taken final.pending
  late : ∀ timer ∈ taken, ∃ reading ∈ readings, timer.expiryTime ≤ reading
  top : manager.timers[0]? = (taken ++ final.timers[0]?.toList).head?
  spawned : (manager.spawns (readings.map .tick)).reduceOption = shifted taken final.timers[0]?

/-- An iteration that takes nothing out. -/
theorem Ticked.idle {final : TimerManager Task} {readings : List TimePoint}
    {taken : List (Timer Task)} (ticked : Ticked manager final readings taken) {now : TimePoint}
    (nothing : manager.tick now = (manager, none)) :
    Ticked manager final (now :: readings) taken where
  drains := ticked.drains
  late timer member :=
    (ticked.late timer member).imp fun _ both => ⟨List.mem_cons_of_mem _ both.1, both.2⟩
  top := ticked.top
  spawned := by
    have same : manager.spawns ((now :: readings).map .tick) =
        none :: manager.spawns (readings.map .tick) := by
      simp only [spawns, List.map_cons, history, step, TimerManager.spawned, nothing]
    rw [same, List.reduceOption_cons_of_none]
    exact ticked.spawned

/-- An iteration that takes out the top. -/
theorem Ticked.due {final : TimerManager Task} {readings : List TimePoint}
    {taken : List (Timer Task)} {rest : Array (Timer Task)}
    (ticked : Ticked { manager with timers := rest } final readings taken) {now : TimePoint}
    {top : Timer Task} (ordered : HeapOrdered manager) (root : manager.timers[0]? = some top)
    (late : top.expiryTime ≤ now)
    (took : manager.tick now =
      ({ manager with timers := rest }, some ((rest[0]?).elim .dangling .copied)))
    (removed : manager.pending =
      top ::ₘ ({ manager with timers := rest } : TimerManager Task).pending) :
    Ticked manager final (now :: readings) (top :: taken) where
  drains := .take (ordered.first root) removed ticked.drains
  late := List.forall_mem_cons.mpr ⟨⟨now, List.mem_cons_self, late⟩, fun timer member =>
    (ticked.late timer member).imp fun _ both => ⟨List.mem_cons_of_mem _ both.1, both.2⟩⟩
  top := root
  spawned := by
    have same : manager.spawns ((now :: readings).map .tick) =
        some ((rest[0]?).elim .dangling .copied) ::
          ({ manager with timers := rest } : TimerManager Task).spawns (readings.map .tick) := by
      simp only [spawns, List.map_cons, history, step, TimerManager.spawned, took]
    have next : rest[0]? = (taken ++ final.timers[0]?.toList).head? := ticked.top
    rw [same, List.reduceOption_cons_of_some, ticked.spawned, next]
    cases taken with
    | nil => cases final.timers[0]? <;> rfl
    | cons first others => rfl

theorem exists_ticked (ordered : HeapOrdered manager) (fits : Fits manager)
    (running : manager.stop = false) (readings : List TimePoint) :
    ∃ taken, Ticked manager ((readings.map TimerCall.tick).foldl step manager) readings taken := by
  induction readings generalizing manager with
  | nil =>
    refine ⟨[], .nothing _, nofun, ?_, rfl⟩
    change manager.timers[0]? = manager.timers[0]?.toList.head?
    cases manager.timers[0]? <;> rfl
  | cons now readings inductionHypothesis =>
    rw [List.map_cons, List.foldl_cons, step]
    cases isDue : manager.due now with
    | false =>
      have nothing := tick_idle (.inr isDue)
      obtain ⟨taken, ticked⟩ := inductionHypothesis ordered fits running
      rw [nothing]
      exact ⟨taken, ticked.idle nothing⟩
    | true =>
      obtain ⟨top, rest, root, late, took, removed⟩ := tick_due running isDue
      have orderedAfter := tick_ordered ordered fits now
      have fitsAfter := fits_tick fits now
      rw [took] at orderedAfter fitsAfter ⊢
      obtain ⟨taken, ticked⟩ := inductionHypothesis orderedAfter fitsAfter running
      exact ⟨top :: taken, ticked.due ordered root late took removed⟩

/-- How many pending timers expire by this time. -/
def overdue (manager : TimerManager Task) (time : TimePoint) : Nat :=
  manager.pending.countP fun timer => timer.expiryTime ≤ time

/-- An iteration takes out an overdue timer if there is one. -/
theorem overdue_tick (ordered : HeapOrdered manager) (running : manager.stop = false)
    {time now : TimePoint} (passed : time ≤ now) :
    (manager.tick now).1.overdue time ≤ manager.overdue time - 1 := by
  cases isDue : manager.due now with
  | false =>
    have none : manager.overdue time = 0 := Multiset.countP_eq_zero.mpr fun timer member =>
      not_le.mpr (passed.trans_lt (ordered.early isDue timer member))
    rw [tick_idle (.inr isDue), none]
  | true =>
    obtain ⟨top, rest, root, late, took, removed⟩ := tick_due running isDue
    rw [took]
    dsimp only
    by_cases isOverdue : top.expiryTime ≤ time
    · have fewer : manager.overdue time =
          ({ manager with timers := rest } : TimerManager Task).overdue time + 1 := by
        rw [overdue, removed]
        exact Multiset.countP_cons_of_pos (p := fun other : Timer Task => other.expiryTime ≤ time)
          _ isOverdue
      omega
    · have none : manager.overdue time = 0 := Multiset.countP_eq_zero.mpr fun timer member =>
        not_le.mpr ((not_le.mp isOverdue).trans_le ((ordered.first root).2 timer member))
      have fewer : ({ manager with timers := rest } : TimerManager Task).overdue time ≤
          manager.overdue time := by
        rw [overdue, overdue, removed]
        exact Multiset.countP_le_of_le _ (Multiset.le_cons_self _ _)
      omega

theorem overdue_ticks (ordered : HeapOrdered manager) (fits : Fits manager)
    (running : manager.stop = false) {time : TimePoint} {readings : List TimePoint}
    (passed : ∀ reading ∈ readings, time ≤ reading) :
    ((readings.map TimerCall.tick).foldl step manager).overdue time ≤
      manager.overdue time - readings.length := by
  induction readings generalizing manager with
  | nil => exact Nat.le_refl _
  | cons now readings inductionHypothesis =>
    obtain ⟨here, later⟩ := List.forall_mem_cons.mp passed
    have first := overdue_tick ordered running here
    have rest := inductionHypothesis (tick_ordered ordered fits now) (fits_tick fits now)
      (running_tick running now) later
    rw [List.map_cons, List.foldl_cons, List.length_cons]
    rw [step]
    omega

/-- Safe removals keep the heap ordered. -/
theorem ordered_foldl {calls : List (TimerCall Task)}
    (fitting : ∀ manager ∈ reached step initial calls, Fits manager)
    (safe : ∀ entry ∈ history step initial calls, RemovalSafe entry.1 entry.2) :
    HeapOrdered (calls.foldl step initial) := by
  have initially : HeapOrdered (initial : TimerManager Task) := ordered_empty
  exact (forall_reached_iff step
    (fun _ call ordered fits _ => step_ordered_iff call ordered fits)
    initially calls fitting).mpr safe _ (mem_reached_foldl step initial calls)

/-- In every state that a run with safe removals reaches, iterations in a row take out timers in
the order of their expiries, only such as are due, and, if there are enough of them, all that
are. The task of the first timer is never spawned; that of each later one is spawned together
with the removal of the one in front of it, and so is that of the timer left in front, which
need not be due, or, where none is left, the storage of a destroyed one is read. -/
theorem ticks_take_overdue (calls : List (TimerCall Task))
    (fitting : ∀ manager ∈ reached step initial calls, Fits manager)
    (safe : ∀ entry ∈ history step initial calls, RemovalSafe entry.1 entry.2)
    (readings : List TimePoint) (manager final : TimerManager Task)
    (begins : calls.foldl step initial = manager) (running : manager.stop = false)
    (ends : (readings.map TimerCall.tick).foldl step manager = final) :
    ∃ taken : List (Timer Task), manager.pending = taken + final.pending ∧
      (taken.Pairwise fun one other => one.expiryTime ≤ other.expiryTime) ∧
      (∀ timer ∈ taken, ∀ other ∈ final.pending, timer.expiryTime ≤ other.expiryTime) ∧
      (∀ timer ∈ taken, ∃ reading ∈ readings, timer.expiryTime ≤ reading) ∧
      (manager.spawns (readings.map .tick)).reduceOption = shifted taken final.timers[0]? ∧
      ∀ time, (∀ reading ∈ readings, time ≤ reading) →
        manager.overdue time ≤ readings.length →
          ∀ timer ∈ final.pending, time < timer.expiryTime := by
  subst ends
  have fits : Fits manager := fitting manager (begins ▸ mem_reached_foldl step initial calls)
  have ordered : HeapOrdered manager := begins ▸ ordered_foldl fitting safe
  obtain ⟨taken, ticked⟩ := exists_ticked ordered fits running readings
  refine ⟨taken, ticked.drains.eq_add, ticked.drains.ordered, ticked.drains.le_left, ticked.late,
    ticked.spawned, fun time passed enough timer member => ?_⟩
  have few := overdue_ticks ordered fits running passed
  rw [Nat.sub_eq_zero_of_le enough] at few
  exact not_le.mp (Multiset.countP_eq_zero.mp (Nat.le_zero.mp few) timer member)

/-- Two of three timers are overdue. -/
theorem ticks_take_overdue_three :
    let calls : List (TimerCall Nat) := [.addTimer 0 30 7, .addTimer 0 10 8, .addTimer 0 20 9]
    ∃ manager final, calls.foldl step initial = manager ∧
      ([25000000, 25000000].map TimerCall.tick).foldl step manager = final ∧
      ∃ taken : List (Timer Nat), manager.pending = taken + final.pending ∧
      shifted taken (some ⟨30000000, 0, 7⟩) =
        [.copied ⟨20000000, 2, 9⟩, .copied ⟨30000000, 0, 7⟩] ∧
      ∀ timer ∈ final.pending, 25000000 < timer.expiryTime := by
  intro calls
  obtain ⟨taken, parts, -, -, -, spawned, later⟩ := ticks_take_overdue calls (by decide +kernel)
    (by decide +kernel) [25000000, 25000000] _ _ rfl (by decide +kernel) rfl
  have spawns : ((calls.foldl step initial).spawns
      ([25000000, 25000000].map TimerCall.tick)).reduceOption =
        [.copied ⟨20000000, 2, 9⟩, .copied ⟨30000000, 0, 7⟩] := by decide +kernel
  have left : (([25000000, 25000000].map TimerCall.tick).foldl step
      (calls.foldl step initial)).timers[0]? = some ⟨30000000, 0, 7⟩ := by decide +kernel
  rw [spawns, left] at spawned
  exact ⟨_, _, rfl, rfl, taken, parts, spawned.symm, later 25000000 (by decide) (by decide +kernel)⟩

end TimerManager

end Luce
