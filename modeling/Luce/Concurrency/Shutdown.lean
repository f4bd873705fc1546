/-
This file is about what the pool of threads leaves behind when it is shut down.

A worker leaves when its own queue has nothing for it and is stopped, but a call that has
found the pool running may push to that queue later. Whoever has left never pops again,
and another worker takes the item only if it is one that can be stolen and comes to be at
the front. So nothing is lost if every call pushes to a queue whose worker is still there,
and if the last worker leaves after the last call; otherwise something can be.
-/

import Luce.Concurrency.Scheduling

namespace Luce.Co

open Library.Holdings Library.Transition

variable {threadNum : Nat}

/-- The worker will not pop from its own queue again, once the pool is stopped. -/
def WorkerPhase.Left (phase : WorkerPhase) : Prop := phase = .refused ∨ phase = .exited

/-- The call is over. -/
def Call.Settled (call : Call threadNum) : Prop :=
  call.phase = .returned ∨ call.phase = .rejected

namespace ThreadPool

/-- Every call that was not rejected has had its coroutine resumed, and no queue holds
anything. -/
def Drained (pool : ThreadPool threadNum) : Prop :=
  (∀ (ticket : Nat) (call : Call threadNum), pool.calls[ticket]? = some call →
      call.phase ≠ .rejected → pool.resumptions ticket = 1) ∧
    ∀ queue, (pool.queues queue).items = []

def AllExited (pool : ThreadPool threadNum) : Prop := ∀ worker, pool.workers worker = .exited

instance (pool : ThreadPool threadNum) : Decidable pool.AllExited :=
  inferInstanceAs (Decidable (∀ worker, pool.workers worker = .exited))

/-- A call pushes to a queue whose worker is still there, and the last worker leaves when
every call is over. -/
def InTime [NeZero threadNum] (pool : ThreadPool threadNum) : ThreadPoolStep threadNum → Prop
  | .tryPush ticket locked => ∀ coro id round,
      pool.calls[ticket]? = some ⟨coro, id, .trying round⟩ → locked = true →
        ¬ (pool.workers (Fin.ofNat threadNum round)).Left
  | .push ticket => ∀ coro id queue canSteal,
      pool.calls[ticket]? = some ⟨coro, id, .pushing queue canSteal⟩ →
        ¬ (pool.workers queue).Left
  | .check worker => (∀ other, other ≠ worker → pool.workers other = .exited) →
      ∀ (ticket : Nat) (call : Call threadNum), pool.calls[ticket]? = some call → call.Settled
  | .scheduleById .. | .choose .. | .steal .. | .pop .. | .resume .. | .stop | .stopQueue => True

/-! ### How the pool is stopped -/

/-- What every step keeps of how the pool is stopped. -/
structure Stopping (pool : ThreadPool threadNum) : Prop where
  inOrder : ∀ queue : Fin threadNum, queue.val < pool.stoppedQueues →
    (pool.queues queue).stop = true
  stopped : ∀ queue, (pool.queues queue).stop = true → pool.stopped = true
  left : ∀ worker, (pool.workers worker).Left → (pool.queues worker).stop = true

/-- What the steps that come in time keep as well. -/
structure Draining (pool : ThreadPool threadNum) : Prop where
  empty : ∀ worker, (pool.workers worker).Left → (pool.queues worker).items = []
  settled : pool.AllExited → ∀ (ticket : Nat) (call : Call threadNum),
    pool.calls[ticket]? = some call → call.Settled

theorem not_left_top (enableWorkSteal : Bool) : ¬ (top enableWorkSteal).Left := by
  cases enableWorkSteal <;> rintro (left | left) <;> cases left

theorem not_left_holding (item : TaskItem) : ¬ (WorkerPhase.holding item).Left := by
  rintro (left | left) <;> cases left

/-- What holds of every worker still does when one of them moves, if it holds of that. -/
theorem forall_setWorker (good : Fin threadNum → WorkerPhase → Prop)
    {pool : ThreadPool threadNum} (before : ∀ other, good other (pool.workers other))
    {worker : Fin threadNum} {phase : WorkerPhase} (here : good worker phase)
    (other : Fin threadNum) : good other ((pool.setWorker worker phase).workers other) := by
  by_cases same : other = worker
  · rw [same, workers_setWorker_self]
    exact here
  · rw [workers_setWorker_of_ne pool same]
    exact before other

/-- A queue that is not stopped by a step has been stopped before it or has not. -/
theorem stop_setQueue {pool : ThreadPool threadNum} {queue : Fin threadNum}
    {content : BlockingQueue TaskItem} (same : content.stop = (pool.queues queue).stop)
    (other : Fin threadNum) :
    ((pool.setQueue queue content).queues other).stop = (pool.queues other).stop :=
  forall_setQueue (fun other queue => queue.stop = (pool.queues other).stop) (fun _ => rfl) same
    other

/-- No queue is stopped by the step, and a worker leaves only if its queue is stopped. -/
theorem Stopping.goOn {pool next : ThreadPool threadNum} (stopping : pool.Stopping)
    (queues : next.stoppedQueues = pool.stoppedQueues)
    (stopped : pool.stopped = true → next.stopped = true)
    (stop : ∀ queue, (next.queues queue).stop = (pool.queues queue).stop)
    (left : ∀ worker, (next.workers worker).Left → (pool.queues worker).stop = true) :
    next.Stopping where
  inOrder queue before := (stop queue).trans (stopping.inOrder queue (queues ▸ before))
  stopped queue halted := stopped (stopping.stopped queue ((stop queue).symm.trans halted))
  left worker leaves := (stop worker).trans (left worker leaves)

theorem Stopping.scheduleById {pool : ThreadPool threadNum} (stopping : pool.Stopping)
    (coro : Option CoroHandle) (id : Int) : (pool.scheduleById coro id).Stopping := by
  have same : (pool.scheduleById coro id).stoppedQueues = pool.stoppedQueues ∧
      (pool.scheduleById coro id).stopped = pool.stopped ∧
      (pool.scheduleById coro id).queues = pool.queues ∧
      (pool.scheduleById coro id).workers = pool.workers := by
    unfold ThreadPool.scheduleById
    repeat' split
    all_goals exact ⟨rfl, rfl, rfl, rfl⟩
  obtain ⟨count, stopped, queues, workers⟩ := same
  refine stopping.goOn count (fun holds => stopped.trans holds) (fun queue => by rw [queues]) ?_
  rw [workers]
  exact stopping.left

theorem Stopping.stopQueue {pool : ThreadPool threadNum} (stopping : pool.Stopping)
    (inside : pool.stopped = true ∧ pool.stoppedQueues < threadNum) :
    Stopping { pool.setQueue ⟨pool.stoppedQueues, inside.2⟩
        { pool.queues ⟨pool.stoppedQueues, inside.2⟩ with stop := true } with
      stoppedQueues := pool.stoppedQueues + 1 } where
  inOrder queue before := by
    by_cases last : queue = ⟨pool.stoppedQueues, inside.2⟩
    · rw [last]
      exact congrArg BlockingQueue.stop (queues_setQueue_self pool _ _)
    · have earlier : queue.val < pool.stoppedQueues :=
        lt_of_le_of_ne (Nat.le_of_lt_succ before) fun same => last (Fin.ext same)
      exact (congrArg BlockingQueue.stop (queues_setQueue_of_ne pool last _)).trans
        (stopping.inOrder queue earlier)
  stopped _ _ := inside.1
  left worker leaves := forall_setQueue (fun other content => other = worker → content.stop = true)
    (fun other same => same ▸ stopping.left worker leaves) (fun _ => rfl) worker rfl

theorem Stopping.initial (enableWorkSteal : Bool) :
    (ThreadPool.initial enableWorkSteal : ThreadPool threadNum).Stopping where
  inOrder _ before := absurd before (Nat.not_lt_zero _)
  stopped _ halted := absurd halted Bool.false_ne_true
  left _ leaves := absurd leaves (not_left_top enableWorkSteal)

theorem Stopping.step [NeZero threadNum] {pool next : ThreadPool threadNum}
    {label : ThreadPoolStep threadNum} (stopping : pool.Stopping)
    (taken : pool.step label = some next) : next.Stopping := by
  have setWorker : ∀ {worker : Fin threadNum} {phase : WorkerPhase},
      (phase.Left → (pool.queues worker).stop = true) →
        ∀ other, ((pool.setWorker worker phase).workers other).Left →
          (pool.queues other).stop = true :=
    fun here => forall_setWorker (fun other phase => phase.Left → (pool.queues other).stop = true)
      stopping.left here
  cases takes_of_step taken with
  | scheduleById coro id => exact stopping.scheduleById coro id
  | tryPush found locked =>
    unfold ThreadPool.tryPush
    cases locked with
    | true => exact stopping.goOn rfl id (stop_setQueue rfl) stopping.left
    | false =>
      simp only [BlockingQueue.tryPush, Bool.false_eq_true, if_false]
      split <;> exact stopping.goOn rfl id (fun _ => rfl) stopping.left
  | choose => exact stopping.goOn rfl id (fun _ => rfl) stopping.left
  | push => exact stopping.goOn rfl id (stop_setQueue rfl) stopping.left
  | @steal worker i stealing locked =>
    unfold ThreadPool.steal
    obtain ⟨item, items, -, -, taken⟩ | nothing :=
      (pool.queues (Fin.ofNat threadNum (worker + i))).tryPopIf_cases locked (·.canSteal)
    · simp only [taken]
      exact stopping.goOn rfl id (stop_setQueue rfl)
        (setWorker fun left => absurd left (not_left_holding item))
    · simp only [nothing]
      refine stopping.goOn rfl id (fun _ => rfl) (setWorker fun left => ?_)
      split at left <;> rcases left with left | left <;> cases left
  | @popItem worker item =>
    exact stopping.goOn rfl id (stop_setQueue rfl)
      (setWorker fun left => absurd left (not_left_holding item))
  | popNothing popping empty stop =>
    exact stopping.goOn rfl id (fun _ => rfl) (setWorker fun _ => stop)
  | @check worker refused =>
    exact stopping.goOn rfl id (fun _ => rfl)
      (setWorker fun _ => stopping.left worker (.inl refused))
  | resume =>
    exact stopping.goOn rfl id (fun _ => rfl) (setWorker fun left => absurd left (not_left_top _))
  | stop => exact stopping.goOn rfl (fun _ => rfl) (fun _ => rfl) stopping.left
  | stopQueue inside => exact stopping.stopQueue inside

/-! ### When every step comes in time -/

theorem Draining.initial [NeZero threadNum] (enableWorkSteal : Bool) :
    (ThreadPool.initial enableWorkSteal : ThreadPool threadNum).Draining where
  empty _ _ := rfl
  settled allExited := absurd (.inr (allExited 0)) (not_left_top enableWorkSteal)

/-- As long as a call is not over, a worker is there. -/
theorem Draining.not_allExited {pool : ThreadPool threadNum} (draining : pool.Draining)
    {ticket : Nat} {call : Call threadNum} (found : pool.calls[ticket]? = some call)
    (unsettled : ¬ call.Settled) : ¬ pool.AllExited :=
  fun allExited => unsettled (draining.settled allExited ticket call found)

/-- A call goes on. -/
theorem Draining.setCall {pool : ThreadPool threadNum} (draining : pool.Draining) {ticket : Nat}
    {call : Call threadNum} (found : pool.calls[ticket]? = some call)
    (unsettled : ¬ call.Settled) (next : Call threadNum) : (pool.setCall ticket next).Draining where
  empty := draining.empty
  settled allExited := absurd allExited (draining.not_allExited found unsettled)

/-- A call pushes to a queue whose worker is there. -/
theorem Draining.insert {pool : ThreadPool threadNum} (draining : pool.Draining) {ticket : Nat}
    {call : Call threadNum} (found : pool.calls[ticket]? = some call)
    (unsettled : ¬ call.Settled) {queue : Fin threadNum} (there : ¬ (pool.workers queue).Left)
    (content : BlockingQueue TaskItem) (next : Call threadNum) :
    ((pool.setQueue queue content).setCall ticket next).Draining where
  empty := forall_setQueue (fun worker queue => (pool.workers worker).Left → queue.items = [])
    draining.empty fun left => absurd left there
  settled allExited := absurd allExited (draining.not_allExited found unsettled)

/-- A worker moves, and leaves only if its queue is empty, and last only if every call is
over. -/
theorem Draining.move {pool : ThreadPool threadNum} (draining : pool.Draining)
    {worker : Fin threadNum} {phase : WorkerPhase}
    (empty : phase.Left → (pool.queues worker).items = [])
    (settled : phase = .exited → (∀ other, other ≠ worker → pool.workers other = .exited) →
      ∀ (ticket : Nat) (call : Call threadNum), pool.calls[ticket]? = some call → call.Settled) :
    (pool.setWorker worker phase).Draining where
  empty := forall_setWorker (fun worker phase => phase.Left → (pool.queues worker).items = [])
    draining.empty empty
  settled allExited := by
    refine settled ?_ fun other apart => ?_
    · exact (workers_setWorker_self pool worker phase).symm.trans (allExited worker)
    · exact (workers_setWorker_of_ne pool apart phase).symm.trans (allExited other)

/-- A worker takes an item, and is there. -/
theorem Draining.take {pool : ThreadPool threadNum} (draining : pool.Draining)
    {worker queue : Fin threadNum} {item : TaskItem} {items : List TaskItem}
    (front : (pool.queues queue).items = item :: items) :
    ((pool.setQueue queue ((pool.queues queue).popFront item items)).setWorker worker
      (.holding item)).Draining := by
  have taken : (pool.setQueue queue ((pool.queues queue).popFront item items)).Draining := by
    refine ⟨?_, draining.settled⟩
    refine forall_setQueue (fun worker queue => (pool.workers worker).Left → queue.items = [])
      draining.empty fun left => ?_
    rw [draining.empty queue left] at front
    cases front
  exact taken.move (fun left => absurd left (not_left_holding item)) fun same => by cases same

theorem Draining.scheduleById [NeZero threadNum] {pool : ThreadPool threadNum}
    (draining : pool.Draining) (stopping : pool.Stopping) (coro : Option CoroHandle) (id : Int) :
    (pool.scheduleById coro id).Draining := by
  have alike : (pool.scheduleById coro id).workers = pool.workers ∧
      (pool.scheduleById coro id).queues = pool.queues := by
    unfold ThreadPool.scheduleById
    repeat' split
    all_goals exact ⟨rfl, rfl⟩
  have rejects : pool.stopped = true → ∃ call : Call threadNum, call.Settled ∧
      (pool.scheduleById coro id).calls = pool.calls ++ [call] := by
    intro stopped
    refine ⟨⟨coro, id, .rejected⟩, .inr rfl, ?_⟩
    unfold ThreadPool.scheduleById
    simp only [stopped, if_true, ite_self]
  constructor
  case empty =>
    rw [alike.1, alike.2]
    exact draining.empty
  case settled =>
    intro allExited ticket call found
    rw [AllExited, alike.1] at allExited
    have stopped := stopping.stopped 0 (stopping.left 0 (.inr (allExited 0)))
    obtain ⟨rejected, settled, calls⟩ := rejects stopped
    rw [calls, getElem?_begin] at found
    split at found
    case isTrue =>
      cases found
      exact settled
    case isFalse => exact draining.settled allExited ticket call found

theorem Draining.step [NeZero threadNum] {pool next : ThreadPool threadNum}
    {label : ThreadPoolStep threadNum} (draining : pool.Draining) (stopping : pool.Stopping)
    (inTime : pool.InTime label) (taken : pool.step label = some next) : next.Draining := by
  cases takes_of_step taken with
  | scheduleById coro id => exact draining.scheduleById stopping coro id
  | @tryPush ticket handle own round found locked =>
    have unsettled : ¬ (⟨handle, own, .trying round⟩ : Call threadNum).Settled := by
      rintro (ended | ended) <;> cases ended
    unfold ThreadPool.tryPush
    cases locked with
    | true => exact draining.insert found unsettled (inTime _ _ round found rfl) _ _
    | false =>
      simp only [BlockingQueue.tryPush, Bool.false_eq_true, if_false]
      split <;> exact draining.setCall found unsettled _
  | @choose ticket coro own found =>
    have unsettled : ¬ (⟨coro, own, .choosing⟩ : Call threadNum).Settled := by
      rintro (ended | ended) <;> cases ended
    exact draining.setCall found unsettled _
  | @push ticket handle own queue canSteal found =>
    have unsettled : ¬ (⟨handle, own, .pushing queue canSteal⟩ : Call threadNum).Settled := by
      rintro (ended | ended) <;> cases ended
    exact draining.insert found unsettled (inTime _ _ _ _ found) _ _
  | @steal worker i stealing locked =>
    unfold ThreadPool.steal
    obtain ⟨item, items, front, -, taken⟩ | nothing :=
      (pool.queues (Fin.ofNat threadNum (worker + i))).tryPopIf_cases locked (·.canSteal)
    · simp only [taken]
      exact draining.take front
    · simp only [nothing]
      refine draining.move (fun left => ?_) fun exits => ?_
      · split at left <;> rcases left with left | left <;> cases left
      · split at exits <;> cases exits
  | popItem popping front => exact draining.take front
  | popNothing popping empty stop => exact draining.move (fun _ => empty) fun same => by cases same
  | @check worker refused =>
    exact draining.move (fun _ => draining.empty worker (.inl refused)) fun _ => inTime
  | @resume worker =>
    have stays := not_left_top pool.enableWorkSteal
    have moved : (pool.setWorker worker (top pool.enableWorkSteal)).Draining :=
      draining.move (fun left => absurd left stays) fun exits => absurd (.inr exits) stays
    exact ⟨moved.empty, moved.settled⟩
  | stop => exact ⟨draining.empty, draining.settled⟩
  | stopQueue inside =>
    exact ⟨forall_setQueue (fun worker queue => (pool.workers worker).Left → queue.items = [])
      draining.empty (draining.empty _), draining.settled⟩

/-- When all workers have left, what has been inserted has been resumed. -/
theorem Draining.drained {pool : ThreadPool threadNum} (draining : pool.Draining)
    (sound : pool.Sound) (allExited : pool.AllExited) : pool.Drained := by
  have empty : ∀ queue, (pool.queues queue).items = [] :=
    fun queue => draining.empty queue (.inr (allExited queue))
  refine ⟨fun ticket call found accepted => ?_, empty⟩
  have returned : call.phase = .returned :=
    (draining.settled allExited ticket call found).resolve_right accepted
  have queued : pool.queued = 0 := by
    simp only [ThreadPool.queued, empty, Multiset.coe_nil, total_zero]
  have held : pool.held = 0 := by
    simp only [ThreadPool.held, allExited _, WorkerPhase.item, total_zero]
  have resumed : pool.insertions ticket = pool.resumptions ticket := by
    rw [resumptions_eq, ThreadPool.insertions, sound.accounted, queued, held, zero_add, zero_add]
  rw [← resumed, sound.insertions, found]
  exact if_pos returned

/-! ### What a step that comes too late leads to -/

/-- What else is as it was when a worker goes on by itself in a pool that is stopped. -/
structure Spares (worker : Fin threadNum) (pool next : ThreadPool threadNum) : Prop where
  aborted : next.aborted = pool.aborted
  stopped : next.stopped = pool.stopped
  stop : ∀ queue, (next.queues queue).stop = (pool.queues queue).stop
  queues : ∀ other, other ≠ worker → next.queues other = pool.queues other
  workers : ∀ other, other ≠ worker → next.workers other = pool.workers other

theorem Spares.refl (worker : Fin threadNum) (pool : ThreadPool threadNum) :
    Spares worker pool pool :=
  ⟨rfl, rfl, fun _ => rfl, fun _ _ => rfl, fun _ _ => rfl⟩

theorem Spares.trans {worker : Fin threadNum} {pool next final : ThreadPool threadNum}
    (first : Spares worker pool next) (second : Spares worker next final) :
    Spares worker pool final where
  aborted := second.aborted.trans first.aborted
  stopped := second.stopped.trans first.stopped
  stop queue := (second.stop queue).trans (first.stop queue)
  queues other apart := (second.queues other apart).trans (first.queues other apart)
  workers other apart := (second.workers other apart).trans (first.workers other apart)

theorem Spares.setWorker (pool : ThreadPool threadNum) (worker : Fin threadNum)
    (phase : WorkerPhase) : Spares worker pool (pool.setWorker worker phase) :=
  ⟨rfl, rfl, fun _ => rfl, fun _ _ => rfl,
    fun _ apart => workers_setWorker_of_ne pool apart phase⟩

theorem Spares.resume (pool : ThreadPool threadNum) (worker : Fin threadNum)
    (resumed : List (TaskItem × Fin threadNum)) (phase : WorkerPhase) :
    Spares worker pool ({ pool with resumed }.setWorker worker phase) :=
  ⟨rfl, rfl, fun _ => rfl, fun _ _ => rfl,
    fun _ apart => workers_setWorker_of_ne { pool with resumed } apart phase⟩

theorem Spares.take (pool : ThreadPool threadNum) (worker : Fin threadNum) (item : TaskItem)
    (items : List TaskItem) :
    Spares worker pool ((pool.setQueue worker ((pool.queues worker).popFront item items)).setWorker
      worker (.holding item)) :=
  ⟨rfl, rfl, stop_setQueue rfl, fun _ apart => queues_setQueue_of_ne pool apart _,
    fun _ apart => workers_setWorker_of_ne (pool.setQueue worker _) apart _⟩

/-- A worker can go on by itself until the pool is this one. -/
structure Advances [NeZero threadNum] (worker : Fin threadNum) (pool final : ThreadPool threadNum) :
    Prop where
  reached : Reaches ThreadPool.step pool final
  spares : Spares worker pool final

theorem Advances.refl [NeZero threadNum] (worker : Fin threadNum) (pool : ThreadPool threadNum) :
    Advances worker pool pool :=
  ⟨.refl ThreadPool.step pool, .refl worker pool⟩

theorem Advances.trans [NeZero threadNum] {worker : Fin threadNum}
    {pool middle final : ThreadPool threadNum} (first : Advances worker pool middle)
    (second : Advances worker middle final) : Advances worker pool final :=
  ⟨first.reached.trans second.reached, first.spares.trans second.spares⟩

theorem Advances.head [NeZero threadNum] {worker : Fin threadNum}
    {pool next final : ThreadPool threadNum} {label : ThreadPoolStep threadNum}
    (taken : pool.step label = some next) (spares : Spares worker pool next)
    (advances : Advances worker next final) : Advances worker pool final :=
  ⟨advances.reached.head taken, spares.trans advances.spares⟩

/-- Without the lock nothing is stolen. -/
theorem steal_unlocked [NeZero threadNum] (pool : ThreadPool threadNum) (worker : Fin threadNum)
    (i : Nat) : pool.steal worker i false =
      pool.setWorker worker (if i + 1 < threadNum then .stealing (i + 1) else .popping) := by
  have nothing : (pool.queues (Fin.ofNat threadNum (worker + i))).tryPopIf false (·.canSteal) =
      (none, pool.queues (Fin.ofNat threadNum (worker + i))) := by
    unfold BlockingQueue.tryPopIf
    split <;> rfl
  rw [ThreadPool.steal, nothing]

/-- A worker that steals nothing comes to pop from its own queue. -/
theorem advances_popping [NeZero threadNum] {pool : ThreadPool threadNum}
    (alive : pool.aborted = false) {worker : Fin threadNum} {i : Nat}
    (stealing : pool.workers worker = .stealing i) :
    ∃ next, Advances worker pool next ∧ next.workers worker = .popping ∧
      next.queues worker = pool.queues worker := by
  induction left : threadNum - (i + 1) generalizing pool i with
  | zero =>
    have last : ¬ i + 1 < threadNum := by omega
    have taken : pool.step (.steal worker false) = some (pool.setWorker worker .popping) := by
      simp [ThreadPool.step, alive, stealing, steal_unlocked, last]
    exact ⟨_, .head taken (.setWorker pool worker .popping) (.refl worker _),
      workers_setWorker_self .., rfl⟩
  | succ left inductionHypothesis =>
    have more : i + 1 < threadNum := by omega
    have taken : pool.step (.steal worker false) =
        some (pool.setWorker worker (.stealing (i + 1))) := by
      simp [ThreadPool.step, alive, stealing, steal_unlocked, more]
    have still : (pool.setWorker worker (.stealing (i + 1))).aborted = false := alive
    obtain ⟨next, advances, popping, same⟩ :=
      inductionHypothesis still (workers_setWorker_self ..) (by omega)
    exact ⟨next, .head taken (.setWorker pool worker _) advances, popping, same⟩

/-- A worker that resumes its item comes to pop from its own queue. -/
theorem advances_popping_of_holding [NeZero threadNum] {pool : ThreadPool threadNum}
    (alive : pool.aborted = false) {worker : Fin threadNum} {item : TaskItem}
    (holding : pool.workers worker = .holding item) :
    ∃ next, Advances worker pool next ∧ next.workers worker = .popping ∧
      next.queues worker = pool.queues worker := by
  let resumed := { pool with resumed := pool.resumed ++ [(item, worker)] }.setWorker worker
    (top pool.enableWorkSteal)
  have taken : pool.step (.resume worker) = some resumed := by
    simp [ThreadPool.step, alive, holding, resumed]
  have spares : Spares worker pool resumed := .resume pool worker _ _
  have back : resumed.workers worker = top pool.enableWorkSteal := workers_setWorker_self ..
  cases enabled : pool.enableWorkSteal with
  | false =>
    rw [enabled] at back
    exact ⟨resumed, .head taken spares (.refl worker resumed), back, rfl⟩
  | true =>
    rw [enabled] at back
    have still : resumed.aborted = false := alive
    obtain ⟨next, advances, popping, same⟩ := advances_popping still back
    exact ⟨next, .head taken spares advances, popping, same⟩

/-- A worker that has been refused leaves, and its queue is as it was. -/
theorem advances_exited_of_refused [NeZero threadNum] {pool : ThreadPool threadNum}
    (alive : pool.aborted = false) (stopped : pool.stopped = true) {worker : Fin threadNum}
    (refused : pool.workers worker = .refused) :
    ∃ next, Advances worker pool next ∧ next.workers worker = .exited ∧
      next.queues worker = pool.queues worker := by
  have taken : pool.step (.check worker) = some (pool.setWorker worker .exited) := by
    simp [ThreadPool.step, alive, refused, stopped]
  exact ⟨_, .head taken (.setWorker pool worker .exited) (.refl worker _),
    workers_setWorker_self .., rfl⟩

/-- A worker whose queue is stopped pops from it until it is empty, and leaves. -/
theorem advances_exited_of_popping [NeZero threadNum] {pool : ThreadPool threadNum}
    (alive : pool.aborted = false) (stopped : pool.stopped = true) {worker : Fin threadNum}
    (stop : (pool.queues worker).stop = true) (popping : pool.workers worker = .popping) :
    ∃ next, Advances worker pool next ∧ next.workers worker = .exited := by
  induction waiting : (pool.queues worker).items generalizing pool with
  | nil =>
    have taken : pool.step (.pop worker) = some (pool.setWorker worker .refused) := by
      simp [ThreadPool.step, alive, popping, BlockingQueue.pop, waiting, stop]
    have still : (pool.setWorker worker .refused).aborted = false := alive
    obtain ⟨next, advances, exited, -⟩ :=
      advances_exited_of_refused still stopped (workers_setWorker_self ..)
    exact ⟨next, .head taken (.setWorker pool worker .refused) advances, exited⟩
  | cons item items inductionHypothesis =>
    let taken := (pool.setQueue worker ((pool.queues worker).popFront item items)).setWorker
      worker (.holding item)
    have popped : pool.step (.pop worker) = some taken := by
      simp [ThreadPool.step, alive, popping, BlockingQueue.pop, waiting, taken]
    have spares : Spares worker pool taken := .take pool worker item items
    have rest : taken.queues worker = (pool.queues worker).popFront item items :=
      queues_setQueue_self ..
    have still : taken.aborted = false := alive
    obtain ⟨again, toAgain, poppingAgain, same⟩ :=
      advances_popping_of_holding still (workers_setWorker_self ..)
    obtain ⟨next, advances, exited⟩ := inductionHypothesis
      (toAgain.spares.aborted.trans alive) (toAgain.spares.stopped.trans stopped)
      ((toAgain.spares.stop worker).trans ((spares.stop worker).trans stop)) poppingAgain
      (by rw [same, rest, BlockingQueue.popFront])
    exact ⟨next, .head popped spares (toAgain.trans advances), exited⟩

/-- A worker whose queue is stopped leaves in the end, and if it has been refused, its queue
is as it was. -/
theorem advances_exited [NeZero threadNum] {pool : ThreadPool threadNum}
    (alive : pool.aborted = false) (stopped : pool.stopped = true) {worker : Fin threadNum}
    (stop : (pool.queues worker).stop = true) :
    ∃ next, Advances worker pool next ∧ next.workers worker = .exited ∧
      ((pool.workers worker).Left → next.queues worker = pool.queues worker) := by
  have fromPopping : ∀ {middle : ThreadPool threadNum}, Advances worker pool middle →
      middle.workers worker = .popping →
        ∃ next, Advances worker pool next ∧ next.workers worker = .exited := by
    intro middle first popping
    obtain ⟨next, second, exited⟩ := advances_exited_of_popping
      (first.spares.aborted.trans alive) (first.spares.stopped.trans stopped)
      ((first.spares.stop worker).trans stop) popping
    exact ⟨next, first.trans second, exited⟩
  cases phase : pool.workers worker with
  | stealing i =>
    obtain ⟨middle, first, popping, -⟩ := advances_popping alive phase
    obtain ⟨next, advances, exited⟩ := fromPopping first popping
    exact ⟨next, advances, exited, by rintro (left | left) <;> cases left⟩
  | popping =>
    obtain ⟨next, advances, exited⟩ := fromPopping (.refl worker pool) phase
    exact ⟨next, advances, exited, by rintro (left | left) <;> cases left⟩
  | holding item =>
    obtain ⟨middle, first, popping, -⟩ := advances_popping_of_holding alive phase
    obtain ⟨next, advances, exited⟩ := fromPopping first popping
    exact ⟨next, advances, exited, fun left => absurd left (not_left_holding item)⟩
  | refused =>
    obtain ⟨next, advances, exited, same⟩ := advances_exited_of_refused alive stopped phase
    exact ⟨next, advances, exited, fun _ => same⟩
  | exited => exact ⟨pool, .refl worker pool, phase, fun _ => rfl⟩

/-- The destructor stops the queues that are left. -/
theorem reaches_stopped [NeZero threadNum] {pool : ThreadPool threadNum}
    (alive : pool.aborted = false) (stopped : pool.stopped = true) (stopping : pool.Stopping) :
    ∃ next, Reaches ThreadPool.step pool next ∧ next.aborted = false ∧ next.stopped = true ∧
      (∀ queue, (next.queues queue).stop = true ∧
        (next.queues queue).items = (pool.queues queue).items) ∧
      next.workers = pool.workers := by
  induction left : threadNum - pool.stoppedQueues generalizing pool with
  | zero =>
    refine ⟨pool, .refl ThreadPool.step pool, alive, stopped, fun queue => ⟨?_, rfl⟩, rfl⟩
    exact stopping.inOrder queue (by omega)
  | succ left inductionHypothesis =>
    have inside : pool.stopped = true ∧ pool.stoppedQueues < threadNum := ⟨stopped, by omega⟩
    let halted := { pool.setQueue ⟨pool.stoppedQueues, inside.2⟩
        { pool.queues ⟨pool.stoppedQueues, inside.2⟩ with stop := true } with
      stoppedQueues := pool.stoppedQueues + 1 }
    have taken : pool.step .stopQueue = some halted := by
      simp [ThreadPool.step, alive, inside, halted]
    have items : ∀ queue, (halted.queues queue).items = (pool.queues queue).items :=
      forall_setQueue (fun queue content => content.items = (pool.queues queue).items)
        (fun _ => rfl) rfl
    have still : halted.aborted = false := alive
    obtain ⟨next, reaches, alive', stopped', queues, workers⟩ :=
      inductionHypothesis still stopped (stopping.step taken) (by simp only [halted]; omega)
    exact ⟨next, reaches.head taken, alive', stopped',
      fun queue => ⟨(queues queue).1, (queues queue).2.trans (items queue)⟩, workers⟩

/-- All workers leave in the end, and what waits for one that has been refused is still
there. -/
theorem reaches_exited [NeZero threadNum] {pool : ThreadPool threadNum}
    (alive : pool.aborted = false) (stopped : pool.stopped = true)
    (stop : ∀ queue, (pool.queues queue).stop = true) {queue : Fin threadNum}
    (left : (pool.workers queue).Left) (workers : List (Fin threadNum)) :
    ∃ next, Reaches ThreadPool.step pool next ∧ next.aborted = false ∧ next.stopped = true ∧
      (∀ queue, (next.queues queue).stop = true) ∧ (next.workers queue).Left ∧
      next.queues queue = pool.queues queue ∧
      ∀ worker ∈ workers, next.workers worker = .exited := by
  induction workers with
  | nil => exact ⟨pool, .refl ThreadPool.step pool, alive, stopped, stop, left, rfl, nofun⟩
  | cons worker workers inductionHypothesis =>
    obtain ⟨middle, reaches, alive', stopped', stop', left', same, exited⟩ := inductionHypothesis
    obtain ⟨next, ⟨further, spares⟩, exits, untouched⟩ :=
      advances_exited alive' stopped' (stop' worker)
    refine ⟨next, reaches.trans further, spares.aborted.trans alive',
      spares.stopped.trans stopped', fun queue => (spares.stop queue).trans (stop' queue),
      ?_, ?_, ?_⟩
    · by_cases here : queue = worker
      · exact .inr (here ▸ exits)
      · rw [spares.workers queue here]
        exact left'
    · by_cases here : queue = worker
      · subst here
        exact (untouched left').trans same
      · exact (spares.queues queue here).trans same
    · intro other member
      by_cases here : other = worker
      · exact here ▸ exits
      · rw [spares.workers other here]
        exact exited other ((List.mem_cons.mp member).resolve_left here)

/-- What waits for a worker that has been refused may never be taken. -/
theorem reaches_loss [NeZero threadNum] {pool : ThreadPool threadNum} (stopping : pool.Stopping)
    (alive : pool.aborted = false) {queue : Fin threadNum} (left : (pool.workers queue).Left)
    (waiting : (pool.queues queue).items ≠ []) :
    ∃ final, Reaches ThreadPool.step pool final ∧ final.AllExited ∧ ¬ final.Drained := by
  have stopped := stopping.stopped queue (stopping.left queue left)
  obtain ⟨middle, reaches, alive', stopped', queues, workers⟩ :=
    reaches_stopped alive stopped stopping
  have left' : (middle.workers queue).Left := workers ▸ left
  obtain ⟨final, further, -, -, -, -, same, exited⟩ :=
    reaches_exited alive' stopped' (fun queue => (queues queue).1) left' (List.finRange threadNum)
  refine ⟨final, reaches.trans further, fun worker => exited worker (List.mem_finRange worker),
    fun drained => waiting ?_⟩
  rw [← (queues queue).2, ← same]
  exact drained.2 queue

theorem alive_of_step [NeZero threadNum] {pool next : ThreadPool threadNum}
    {label : ThreadPoolStep threadNum} (taken : pool.step label = some next) :
    pool.aborted = false := by
  unfold ThreadPool.step at taken
  split at taken
  case isTrue => cases taken
  case isFalse alive => exact Bool.not_eq_true _ ▸ alive

/-- A call pushes to a queue whose worker has left. -/
theorem reaches_loss_of_insert [NeZero threadNum] {pool : ThreadPool threadNum}
    (stopping : pool.Stopping) (alive : pool.aborted = false) {queue : Fin threadNum}
    (left : (pool.workers queue).Left) (item : TaskItem) (ticket : Nat) (call : Call threadNum) :
    ∃ final, Reaches ThreadPool.step
      ((pool.setQueue queue ((pool.queues queue).push item)).setCall ticket call) final ∧
        final.AllExited ∧ ¬ final.Drained := by
  refine reaches_loss (stopping.goOn rfl id (stop_setQueue rfl) stopping.left) alive left ?_
  change ((pool.setQueue queue _).queues queue).items ≠ []
  rw [queues_setQueue_self, BlockingQueue.push]
  simp

/-- The last worker leaves before a call is over. -/
theorem not_drained_of_unsettled {pool : ThreadPool threadNum} (sound : pool.Sound) {ticket : Nat}
    {call : Call threadNum} (found : pool.calls[ticket]? = some call)
    (unsettled : ¬ call.Settled) : ¬ pool.Drained := by
  rintro ⟨taken, -⟩
  have accepted : call.phase ≠ .rejected := fun same => unsettled (.inr same)
  have inserted : pool.insertions ticket = 0 := by
    rw [sound.insertions, found]
    exact if_neg fun same => unsettled (.inl same)
  have bound := sound.resumptions_le ticket
  rw [taken ticket call found accepted, inserted] at bound
  exact absurd bound (by decide)

/-- A step that comes too late may lose something. -/
theorem reaches_loss_of_late [NeZero threadNum] {pool next : ThreadPool threadNum}
    {label : ThreadPoolStep threadNum} (sound : pool.Sound) (stopping : pool.Stopping)
    (late : ¬ pool.InTime label) (taken : pool.step label = some next) :
    ∃ final, Reaches ThreadPool.step next final ∧ final.AllExited ∧ ¬ final.Drained := by
  have alive := alive_of_step taken
  cases takes_of_step taken with
  | @tryPush ticket handle own round found locked =>
    simp only [InTime, not_forall, not_not] at late
    obtain ⟨coro, _, _, again, rfl, left⟩ := late
    cases found.symm.trans again
    exact reaches_loss_of_insert stopping alive left _ ticket _
  | @push ticket handle own queue canSteal found =>
    simp only [InTime, not_forall, not_not] at late
    obtain ⟨coro, _, _, _, again, left⟩ := late
    cases found.symm.trans again
    exact reaches_loss_of_insert stopping alive left _ ticket _
  | @check worker refused =>
    simp only [InTime, not_forall] at late
    obtain ⟨others, ticket, call, found, unsettled⟩ := late
    have stopped := stopping.stopped worker (stopping.left worker (.inl refused))
    have after : (pool.setWorker worker .exited).Sound := sound.move (by rw [refused]; rfl) rfl
    simp only [stopped, if_true]
    refine ⟨_, .refl ThreadPool.step _, fun other => ?_,
      not_drained_of_unsettled after found unsettled⟩
    by_cases here : other = worker
    · rw [here, workers_setWorker_self]
    · rw [workers_setWorker_of_ne pool here, others other here]
  | scheduleById | choose | steal | popItem | popNothing | resume | stop | stopQueue =>
    exact absurd trivial late

end ThreadPool

/-- If every step comes in time, then whenever all workers have exited, every coroutine whose
call was not rejected has been resumed once and all queues are empty. A step that does not
come in time leads to a state from which some run ends with all workers exited and this
not so. -/
theorem shutdown_drains {threadNum : Nat} [NeZero threadNum] (enableWorkSteal : Bool)
    (steps : List (ThreadPoolStep threadNum)) (final : ThreadPool threadNum)
    (ran : run ThreadPool.step (.initial enableWorkSteal) steps = some final) :
    (Along ThreadPool.step ThreadPool.InTime (.initial enableWorkSteal) steps →
        final.AllExited → final.Drained) ∧
      ∀ label next, final.step label = some next → ¬ final.InTime label →
        ∃ later last, run ThreadPool.step next later = some last ∧ last.AllExited ∧
          ¬ last.Drained := by
  have sound : final.Sound := invariant_run ThreadPool.step
    (fun _ _ _ sound taken => sound.step taken) (.initial enableWorkSteal) ran
  have stopping : final.Stopping := invariant_run ThreadPool.step
    (fun _ _ _ stopping taken => stopping.step taken) (.initial enableWorkSteal) ran
  refine ⟨fun along allExited => ?_, fun label next taken late => ?_⟩
  · have kept : ∀ (pool : ThreadPool threadNum) label next, pool.Stopping ∧ pool.Draining →
        pool.InTime label → pool.step label = some next → next.Stopping ∧ next.Draining :=
      fun _ _ _ both inTime taken => ⟨both.1.step taken, both.2.step both.1 inTime taken⟩
    have both := invariant_along ThreadPool.step kept
      ⟨.initial enableWorkSteal, .initial enableWorkSteal⟩ along ran
    exact both.2.drained sound allExited
  · obtain ⟨last, ⟨later, reached⟩, lost⟩ :=
      ThreadPool.reaches_loss_of_late sound stopping late taken
    exact ⟨later, last, reached, lost⟩

/-- The coroutine is resumed by the second worker after the pool has been stopped. -/
theorem shutdown_drains_two :
    ∃ final, run ThreadPool.step (.initial false : ThreadPool 2)
      [.scheduleById (some 7) 1, .stop, .stopQueue, .push 0, .stopQueue, .pop 0, .check 0, .pop 1,
        .resume 1, .pop 1, .check 1] = some final ∧ final.Drained := by
  refine ⟨_, rfl, (shutdown_drains false [.scheduleById (some 7) 1, .stop, .stopQueue, .push 0,
    .stopQueue, .pop 0, .check 0, .pop 1, .resume 1, .pop 1, .check 1] _ rfl).1 ?_ ?_⟩
  · have settled : ∀ (ticket : Nat) (call : Call 2),
        [(⟨some 7, 1, .returned⟩ : Call 2)][ticket]? = some call → call.Settled := by
      intro ticket call found
      rw [List.getElem?_singleton] at found
      split at found <;> cases found
      exact .inl rfl
    refine ⟨trivial, trivial, trivial, ?_, trivial, trivial, fun _ => settled, trivial, trivial, trivial,
      fun _ => settled, trivial⟩
    rintro _ _ _ _ found (left | left) <;> cases found <;> cases left
  · decide

/-- A coroutine on the first worker schedules another one on the second, which leaves before
the other one is in its queue. -/
theorem shutdown_loses :
    ¬ ∀ (threadNum : Nat) [NeZero threadNum] (enableWorkSteal : Bool)
      (steps : List (ThreadPoolStep threadNum)) (final : ThreadPool threadNum),
        run ThreadPool.step (.initial enableWorkSteal) steps = some final →
          final.AllExited → final.Drained := by
  intro drains
  have drained := drains 2 false [.scheduleById (some 7) 0, .push 0, .pop 0,
    .scheduleById (some 8) 1, .stop, .stopQueue, .stopQueue, .pop 1, .check 1, .push 1, .resume 0,
    .pop 0, .check 0] _ rfl (by decide)
  exact List.cons_ne_nil _ _ (drained.2 1)

end Luce.Co
