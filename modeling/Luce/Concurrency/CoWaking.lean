/-
This file models the pool of threads that resume coroutines at the grain of its condition
variables, and proves that it always comes to rest, with everything resumed or every worker
gone.

Only the worker of a queue sleeps in its `pop`, and whoever has pushed to the queue or has
stopped it notifies after the lock has been given back. An item may be stolen in between, so
a worker may be woken for nothing.
-/

import Luce.Concurrency.Shutdown
import Luce.Library.Waiting

namespace Luce.Co

open Library.Transition Library.Waiting

variable {threadNum : Nat}

/-- The steps that go on by themselves, once they are called for. -/
def ThreadPoolStep.Own : ThreadPoolStep threadNum → Prop
  | .tryPush .. | .choose .. | .push _ | .steal .. | .pop _ | .check _ | .resume _
  | .stopQueue => True
  | .scheduleById .. | .stop => False

namespace ThreadPool

/-- The queue that the step pushes an item to. -/
def pushesTo [NeZero threadNum] (pool : ThreadPool threadNum) :
    ThreadPoolStep threadNum → Option (Fin threadNum)
  | .tryPush ticket locked =>
    match pool.calls[ticket]?, locked with
    | some ⟨some _, _, .trying round⟩, true => some (Fin.ofNat threadNum round)
    | _, _ => none
  | .push ticket =>
    match pool.calls[ticket]? with
    | some ⟨some _, _, .pushing queue _⟩ => some queue
    | _ => none
  | .scheduleById .. | .choose .. | .steal .. | .pop _ | .check _ | .resume _ | .stop
  | .stopQueue => none

/-- The queue that the step stops. -/
def halts (pool : ThreadPool threadNum) : ThreadPoolStep threadNum → Option (Fin threadNum)
  | .stopQueue =>
    if inside : pool.stoppedQueues < threadNum then some ⟨pool.stoppedQueues, inside⟩ else none
  | .scheduleById .. | .tryPush .. | .choose .. | .push _ | .steal .. | .pop _ | .check _
  | .resume _ | .stop => none

end ThreadPool

/-- The pool, with who sleeps in the `pop` of its queue, and the calls of `notify_one` and
`notify_all` that are still to come, for each queue. -/
structure NotifiedPool (threadNum : Nat) where
  pool : ThreadPool threadNum
  asleep : Fin threadNum → Bool
  notifyOnes : Fin threadNum → Nat
  notifyAlls : Fin threadNum → Nat

inductive NotifiedStep (threadNum : Nat) where
  /-- Somebody who does not sleep goes on. -/
  | go (label : ThreadPoolStep threadNum)
  /-- A worker evaluates the condition of `pop`, and it does not hold. -/
  | sleep (worker : Fin threadNum)
  | notifyOne (queue : Fin threadNum)
  | notifyAll (queue : Fin threadNum)
  /-- A worker wakes up without being notified. -/
  | spurious (worker : Fin threadNum)

def NotifiedStep.Own : NotifiedStep threadNum → Prop
  | .go label => label.Own
  | .sleep _ | .notifyOne _ | .notifyAll _ => True
  | .spurious _ => False

/-- There is one more to come for this queue, if there is one. -/
def oneMore (counts : Fin threadNum → Nat) : Option (Fin threadNum) → Fin threadNum → Nat
  | some queue => Function.update counts queue (counts queue + 1)
  | none => counts

namespace NotifiedPool

def initial (enableWorkSteal : Bool) : NotifiedPool threadNum :=
  ⟨.initial enableWorkSteal, fun _ => false, fun _ => 0, fun _ => 0⟩

/-- The step is the `pop` of a worker that sleeps. -/
def sleepsThrough (shared : NotifiedPool threadNum) : ThreadPoolStep threadNum → Bool
  | .pop worker => shared.asleep worker
  | .scheduleById .. | .tryPush .. | .choose .. | .push _ | .steal .. | .check _ | .resume _
  | .stop | .stopQueue => false

def wake (shared : NotifiedPool threadNum) (worker : Fin threadNum) : NotifiedPool threadNum :=
  { shared with asleep := Function.update shared.asleep worker false }

def step [NeZero threadNum] (shared : NotifiedPool threadNum) (label : NotifiedStep threadNum) :
    Option (NotifiedPool threadNum) :=
  if shared.pool.aborted then none
  else
    match label with
    | .go label =>
      if shared.sleepsThrough label then none
      else
        match shared.pool.step label with
        | some pool =>
          some { shared with
            pool
            notifyOnes := oneMore shared.notifyOnes (shared.pool.pushesTo label)
            notifyAlls := oneMore shared.notifyAlls (shared.pool.halts label) }
        | none => none
    | .sleep worker =>
      match shared.pool.workers worker, (shared.pool.queues worker).pop with
      | .popping, none =>
        if shared.asleep worker then none
        else some { shared with asleep := Function.update shared.asleep worker true }
      | _, _ => none
    | .notifyOne queue =>
      if 0 < shared.notifyOnes queue then
        some ({ shared with
          notifyOnes := Function.update shared.notifyOnes queue
            (shared.notifyOnes queue - 1) }.wake queue)
      else none
    | .notifyAll queue =>
      if 0 < shared.notifyAlls queue then
        some ({ shared with
          notifyAlls := Function.update shared.notifyAlls queue
            (shared.notifyAlls queue - 1) }.wake queue)
      else none
    | .spurious worker => if shared.asleep worker then some (shared.wake worker) else none

/-! ### What a step can have done -/

inductive Takes [NeZero threadNum] (shared : NotifiedPool threadNum) :
    NotifiedStep threadNum → NotifiedPool threadNum → Prop
  | go {label : ThreadPoolStep threadNum} {pool : ThreadPool threadNum}
    (awake : shared.sleepsThrough label = false) (taken : shared.pool.step label = some pool) :
    Takes shared (.go label)
      { shared with
        pool
        notifyOnes := oneMore shared.notifyOnes (shared.pool.pushesTo label)
        notifyAlls := oneMore shared.notifyAlls (shared.pool.halts label) }
  | sleep {worker : Fin threadNum} (popping : shared.pool.workers worker = .popping)
    (waits : (shared.pool.queues worker).pop = none) (awake : shared.asleep worker = false) :
    Takes shared (.sleep worker)
      { shared with asleep := Function.update shared.asleep worker true }
  | notifyOne {queue : Fin threadNum} (under : 0 < shared.notifyOnes queue) :
    Takes shared (.notifyOne queue)
      ({ shared with
        notifyOnes := Function.update shared.notifyOnes queue
          (shared.notifyOnes queue - 1) }.wake queue)
  | notifyAll {queue : Fin threadNum} (under : 0 < shared.notifyAlls queue) :
    Takes shared (.notifyAll queue)
      ({ shared with
        notifyAlls := Function.update shared.notifyAlls queue
          (shared.notifyAlls queue - 1) }.wake queue)
  | spurious {worker : Fin threadNum} (asleep : shared.asleep worker = true) :
    Takes shared (.spurious worker) (shared.wake worker)

theorem takes_of_step [NeZero threadNum] {shared next : NotifiedPool threadNum}
    {label : NotifiedStep threadNum} (taken : shared.step label = some next) :
    shared.Takes label next := by
  unfold step at taken
  split at taken
  case isTrue => cases taken
  case isFalse =>
  cases label with
  | go label =>
    simp only at taken
    split at taken
    case isTrue => cases taken
    case isFalse awake =>
      split at taken <;> cases taken
      case h_1 went => exact .go (Bool.eq_false_iff.mpr awake) went
  | sleep worker =>
    simp only at taken
    split at taken
    case h_1 popping waits =>
      split at taken <;> cases taken
      case isFalse awake => exact .sleep popping waits (Bool.eq_false_iff.mpr awake)
    case h_2 => cases taken
  | notifyOne queue =>
    simp only at taken
    split at taken
    case isTrue under =>
      cases taken
      exact .notifyOne under
    case isFalse => cases taken
  | notifyAll queue =>
    simp only at taken
    split at taken
    case isTrue under =>
      cases taken
      exact .notifyAll under
    case isFalse => cases taken
  | spurious worker =>
    simp only at taken
    split at taken
    case isTrue asleep =>
      cases taken
      exact .spurious asleep
    case isFalse => cases taken

end NotifiedPool

/-! ### What a step of the pool does to its queues and its sleepers -/

namespace ThreadPool

variable [NeZero threadNum] (pool : ThreadPool threadNum)

omit [NeZero threadNum] in
theorem scheduleById_keeps (coro : Option CoroHandle) (id : Int) :
    (pool.scheduleById coro id).queues = pool.queues ∧
      (pool.scheduleById coro id).workers = pool.workers := by
  unfold ThreadPool.scheduleById
  repeat' split
  all_goals exact ⟨rfl, rfl⟩

theorem tryPush_unlocked (ticket : Nat) (handle : CoroHandle) (id : Int) (round : Nat) :
    pool.tryPush ticket ⟨handle, id, .trying round⟩ handle round false = pool.setCall ticket
      ⟨handle, id, if round + 1 < threadNum * 2 then .trying (round + 1) else .choosing⟩ := by
  simp only [ThreadPool.tryPush, BlockingQueue.tryPush, Bool.false_eq_true, if_false]
  split <;> rfl

theorem tryPush_locked (ticket : Nat) (handle : CoroHandle) (id : Int) (round : Nat) :
    pool.tryPush ticket ⟨handle, id, .trying round⟩ handle round true =
      (pool.setQueue (Fin.ofNat threadNum round) ((pool.queues (Fin.ofNat threadNum round)).push
        ⟨handle, true, ticket⟩)).setCall ticket ⟨handle, id, .returned⟩ :=
  rfl

/-- A worker that tries to steal takes the item at the front of the queue, or goes on. -/
theorem steal_cases (worker : Fin threadNum) (i : Nat) (locked : Bool) :
    (∃ (queue : Fin threadNum) (item : TaskItem) (items : List TaskItem),
        (pool.queues queue).items = item :: items ∧
        pool.steal worker i locked =
          (pool.setQueue queue ((pool.queues queue).popFront item items)).setWorker worker
            (.holding item)) ∨
      pool.steal worker i locked =
        pool.setWorker worker (if i + 1 < threadNum then .stealing (i + 1) else .popping) := by
  unfold ThreadPool.steal
  obtain ⟨item, items, front, -, taken⟩ | nothing :=
    (pool.queues (Fin.ofNat threadNum (worker + i))).tryPopIf_cases locked (·.canSteal)
  · exact .inl ⟨_, item, items, front, by simp only [taken]⟩
  · exact .inr (by simp only [nothing])

variable {pool} {next : ThreadPool threadNum} {label : ThreadPoolStep threadNum}

/-- Who pops goes on only by `pop`. -/
theorem Takes.popping (takes : pool.Takes label next) {worker : Fin threadNum}
    (popping : pool.workers worker = .popping) (other : label ≠ .pop worker) :
    next.workers worker = .popping := by
  have stays : ∀ {moving : Fin threadNum} {phase : WorkerPhase} (content : ThreadPool threadNum),
      content.workers = pool.workers → pool.workers moving ≠ .popping →
        (content.setWorker moving phase).workers worker = .popping := by
    intro moving phase content same busy
    have apart : worker ≠ moving := fun equal => busy (equal ▸ popping)
    rw [workers_setWorker_of_ne content apart, same, popping]
  cases takes with
  | scheduleById coro id =>
    exact (congrFun (pool.scheduleById_keeps coro id).2 worker).trans popping
  | tryPush found locked =>
    cases locked with
    | true => exact popping
    | false =>
      rw [tryPush_unlocked]
      exact popping
  | choose | push | stop | stopQueue => exact popping
  | @steal moving i stealing locked =>
    have busy : pool.workers moving ≠ .popping := by
      rw [stealing]
      exact nofun
    obtain ⟨queue, item, items, -, stolen⟩ | nothing := pool.steal_cases moving i locked
    · rw [stolen]
      exact stays _ rfl busy
    · rw [nothing]
      exact stays _ rfl busy
  | @popItem moving =>
    have apart : worker ≠ moving := fun same => other (same ▸ rfl)
    exact (workers_setWorker_of_ne (pool.setQueue moving _) apart _).trans popping
  | @popNothing moving =>
    have apart : worker ≠ moving := fun same => other (same ▸ rfl)
    exact (workers_setWorker_of_ne pool apart _).trans popping
  | check refused =>
    refine stays _ rfl ?_
    rw [refused]
    exact nofun
  | @resume _ item holding =>
    refine stays { pool with resumed := pool.resumed ++ [(item, _)] } rfl ?_
    rw [holding]
    exact nofun

/-- A queue gets an item only by a push, and then one. -/
theorem Takes.length_le (takes : pool.Takes label next) (queue : Fin threadNum) :
    (next.queues queue).items.length ≤
      oneMore (fun queue => (pool.queues queue).items.length) (pool.pushesTo label) queue := by
  have pushed : ∀ (target : Fin threadNum) (item : TaskItem),
      ((pool.setQueue target ((pool.queues target).push item)).queues queue).items.length ≤
        oneMore (fun queue => (pool.queues queue).items.length) (some target) queue := by
    intro target item
    by_cases same : queue = target
    · rw [same, queues_setQueue_self]
      simp [oneMore, BlockingQueue.push]
    · rw [queues_setQueue_of_ne pool same, oneMore, Function.update_of_ne same]
  have kept : ∀ (target : Fin threadNum) (content : BlockingQueue TaskItem),
      content.items.length ≤ (pool.queues target).items.length →
        ((pool.setQueue target content).queues queue).items.length ≤
          (pool.queues queue).items.length := by
    intro target content fewer
    exact forall_setQueue (fun other content =>
      content.items.length ≤ (pool.queues other).items.length) (fun _ => Nat.le_refl _) fewer queue
  have popped : ∀ (target : Fin threadNum) (item : TaskItem) (items : List TaskItem),
      (pool.queues target).items = item :: items →
        ((pool.setQueue target ((pool.queues target).popFront item items)).queues
          queue).items.length ≤ (pool.queues queue).items.length := by
    intro target item items front
    refine kept target _ ?_
    rw [front]
    exact Nat.le_succ _
  cases takes with
  | scheduleById coro id => exact (congrArg (fun queues : Fin threadNum → BlockingQueue TaskItem =>
      (queues queue).items.length) (pool.scheduleById_keeps coro id).1).le
  | tryPush found locked =>
    cases locked with
    | true =>
      simp only [pushesTo, found]
      exact pushed _ _
    | false =>
      rw [tryPush_unlocked]
      simp only [pushesTo, found]
      exact Nat.le_refl _
  | push found =>
    simp only [pushesTo, found]
    exact pushed _ _
  | choose | popNothing | check | resume | stop => exact Nat.le_refl _
  | @steal worker i stealing locked =>
    obtain ⟨target, item, items, front, stolen⟩ | nothing := pool.steal_cases worker i locked
    · rw [stolen]
      exact popped target item items front
    · rw [nothing]
      exact Nat.le_refl _
  | popItem popping front => exact popped _ _ _ front
  | stopQueue inside => exact kept _ _ (Nat.le_refl _)

/-- A queue is stopped only by the destructor. -/
theorem Takes.stopped_or (takes : pool.Takes label next) (queue : Fin threadNum)
    (halted : (next.queues queue).stop = true) :
    (pool.queues queue).stop = true ∨ pool.halts label = some queue := by
  have pushed : ∀ (target : Fin threadNum) (item : TaskItem),
      ((pool.setQueue target ((pool.queues target).push item)).queues queue).stop = true →
        (pool.queues queue).stop = true := by
    intro target item halted
    have same : ((pool.queues target).push item).stop = (pool.queues target).stop := rfl
    exact (stop_setQueue same queue).symm.trans halted
  have popped : ∀ (target : Fin threadNum) (item : TaskItem) (items : List TaskItem),
      ((pool.setQueue target ((pool.queues target).popFront item items)).queues queue).stop =
        true → (pool.queues queue).stop = true := by
    intro target item items halted
    have same : ((pool.queues target).popFront item items).stop = (pool.queues target).stop := rfl
    exact (stop_setQueue same queue).symm.trans halted
  cases takes with
  | scheduleById coro id =>
    rw [(pool.scheduleById_keeps coro id).1] at halted
    exact .inl halted
  | tryPush found locked =>
    cases locked with
    | true => exact .inl (pushed _ _ halted)
    | false =>
      rw [tryPush_unlocked] at halted
      exact .inl halted
  | push => exact .inl (pushed _ _ halted)
  | choose | popNothing | check | resume | stop => exact .inl halted
  | @steal worker i stealing locked =>
    obtain ⟨target, item, items, front, stolen⟩ | nothing := pool.steal_cases worker i locked
    · rw [stolen] at halted
      exact .inl (popped target item items halted)
    · rw [nothing] at halted
      exact .inl halted
  | popItem => exact .inl (popped _ _ _ halted)
  | stopQueue inside =>
    by_cases last : queue = ⟨pool.stoppedQueues, inside.2⟩
    · rw [last, halts, dif_pos inside.2]
      exact .inr rfl
    · exact .inl ((congrArg BlockingQueue.stop (queues_setQueue_of_ne pool last _)).symm.trans
        halted)

end ThreadPool

/-! ### What every step keeps -/

theorem le_oneMore (counts : Fin threadNum → Nat) (bumped : Option (Fin threadNum))
    (queue : Fin threadNum) : counts queue ≤ oneMore counts bumped queue := by
  cases bumped with
  | none => exact Nat.le_refl _
  | some other =>
    by_cases same : queue = other
    · rw [same, oneMore, Function.update_self]
      exact Nat.le_succ _
    · rw [oneMore, Function.update_of_ne same]

/-- Two counts that are bumped together stay in the same order. -/
theorem oneMore_le {fewer more : Fin threadNum → Nat} {queue : Fin threadNum}
    (below : fewer queue ≤ more queue) (bumped : Option (Fin threadNum)) :
    oneMore fewer bumped queue ≤ oneMore more bumped queue := by
  cases bumped with
  | none => exact below
  | some other =>
    by_cases same : queue = other
    · subst same
      rw [oneMore, oneMore, Function.update_self, Function.update_self]
      exact Nat.succ_le_succ below
    · rw [oneMore, oneMore, Function.update_of_ne same, Function.update_of_ne same]
      exact below

theorem oneMore_pos (counts : Fin threadNum → Nat) (queue : Fin threadNum) :
    0 < oneMore counts (some queue) queue := by
  rw [oneMore, Function.update_self]
  exact Nat.succ_pos _

namespace NotifiedPool

/-- Who sleeps pops from a queue for each of whose items a notification is to come, and so
is one if the queue is stopped. -/
structure Sound (shared : NotifiedPool threadNum) : Prop where
  scheduled : shared.pool.Sound
  stopping : shared.pool.Stopping
  popping : ∀ worker, shared.asleep worker = true → shared.pool.workers worker = .popping
  attended : ∀ queue, Attended (shared.asleep queue).toNat (shared.notifyOnes queue)
    (shared.pool.queues queue).items.length
  stopped : ∀ queue, shared.asleep queue = true → (shared.pool.queues queue).stop = true →
    0 < shared.notifyAlls queue

theorem Sound.initial (enableWorkSteal : Bool) :
    (NotifiedPool.initial enableWorkSteal : NotifiedPool threadNum).Sound where
  scheduled := .initial enableWorkSteal
  stopping := .initial enableWorkSteal
  popping _ asleep := absurd asleep Bool.false_ne_true
  attended _ := .of_empty
  stopped _ asleep := absurd asleep Bool.false_ne_true

/-- A worker that sleeps is woken, and notifications for its queue go. -/
theorem Sound.wake {shared : NotifiedPool threadNum} (sound : shared.Sound)
    (queue : Fin threadNum) {notifyOnes notifyAlls : Fin threadNum → Nat}
    (ones : ∀ other, other ≠ queue → notifyOnes other = shared.notifyOnes other)
    (alls : ∀ other, other ≠ queue → notifyAlls other = shared.notifyAlls other) :
    ({ shared with notifyOnes, notifyAlls }.wake queue).Sound := by
  have awake : ∀ other, Function.update shared.asleep queue false other = true →
      other ≠ queue ∧ shared.asleep other = true := by
    intro other asleep
    by_cases same : other = queue
    · rw [same, Function.update_self] at asleep
      cases asleep
    · rw [Function.update_of_ne same] at asleep
      exact ⟨same, asleep⟩
  constructor
  case scheduled => exact sound.scheduled
  case stopping => exact sound.stopping
  case popping => exact fun worker asleep => sound.popping worker (awake worker asleep).2
  case attended =>
    intro other
    by_cases same : other = queue
    · refine .inl ?_
      change (Function.update shared.asleep queue false other).toNat = 0
      rw [same, Function.update_self]
      rfl
    · change Attended (Function.update shared.asleep queue false other).toNat (notifyOnes other) _
      rw [Function.update_of_ne same, ones other same]
      exact sound.attended other
  case stopped =>
    intro other asleep halted
    obtain ⟨apart, slept⟩ := awake other asleep
    change 0 < notifyAlls other
    rw [alls other apart]
    exact sound.stopped other slept halted

theorem Sound.go [NeZero threadNum] {shared : NotifiedPool threadNum} (sound : shared.Sound)
    {label : ThreadPoolStep threadNum} {pool : ThreadPool threadNum}
    (awake : shared.sleepsThrough label = false) (taken : shared.pool.step label = some pool) :
    Sound { shared with
      pool
      notifyOnes := oneMore shared.notifyOnes (shared.pool.pushesTo label)
      notifyAlls := oneMore shared.notifyAlls (shared.pool.halts label) } where
  scheduled := sound.scheduled.step taken
  stopping := sound.stopping.step taken
  popping worker asleep := by
    refine (ThreadPool.takes_of_step taken).popping (sound.popping worker asleep) fun pops => ?_
    rw [pops, sleepsThrough] at awake
    exact absurd (asleep.symm.trans awake) (by decide)
  attended queue := by
    have fewer := (ThreadPool.takes_of_step taken).length_le queue
    exact (sound.attended queue).imp_right fun enough => fewer.trans (oneMore_le enough _)
  stopped queue asleep halted := by
    rcases (ThreadPool.takes_of_step taken).stopped_or queue halted with before | now
    · exact (sound.stopped queue asleep before).trans_le (le_oneMore _ _ _)
    · change 0 < oneMore shared.notifyAlls (shared.pool.halts label) queue
      rw [now]
      exact oneMore_pos _ _

theorem Sound.sleep {shared : NotifiedPool threadNum} (sound : shared.Sound)
    {worker : Fin threadNum} (popping : shared.pool.workers worker = .popping)
    (waits : (shared.pool.queues worker).pop = none) :
    Sound { shared with asleep := Function.update shared.asleep worker true } := by
  obtain ⟨empty, up⟩ : (shared.pool.queues worker).items = [] ∧
      (shared.pool.queues worker).stop = false := by
    unfold BlockingQueue.pop at waits
    split at waits
    case h_1 => cases waits
    case h_2 empty =>
      split at waits
      case isTrue => cases waits
      case isFalse up => exact ⟨empty, Bool.eq_false_iff.mpr up⟩
  have before : ∀ other, other ≠ worker →
      Function.update shared.asleep worker true other = shared.asleep other :=
    fun other apart => Function.update_of_ne apart _ _
  constructor
  case scheduled => exact sound.scheduled
  case stopping => exact sound.stopping
  case popping =>
    intro other asleep
    by_cases same : other = worker
    · exact same ▸ popping
    · exact sound.popping other ((before other same).symm.trans asleep)
  case attended =>
    intro other
    by_cases same : other = worker
    · refine .inr ?_
      rw [same, empty]
      exact Nat.zero_le _
    · change Attended (Function.update shared.asleep worker true other).toNat _ _
      rw [before other same]
      exact sound.attended other
  case stopped =>
    intro other asleep halted
    by_cases same : other = worker
    · rw [same, up] at halted
      cases halted
    · exact sound.stopped other ((before other same).symm.trans asleep) halted

theorem Sound.step [NeZero threadNum] {shared next : NotifiedPool threadNum}
    {label : NotifiedStep threadNum} (sound : shared.Sound)
    (taken : shared.step label = some next) : next.Sound := by
  cases takes_of_step taken with
  | go awake went => exact sound.go awake went
  | sleep popping waits => exact sound.sleep popping waits
  | notifyOne => exact sound.wake _ (fun _ apart => Function.update_of_ne apart _ _) fun _ _ => rfl
  | notifyAll => exact sound.wake _ (fun _ _ => rfl) fun _ apart => Function.update_of_ne apart _ _
  | spurious => exact sound.wake _ (fun _ _ => rfl) fun _ _ => rfl

end NotifiedPool

/-! ### How much the threads may still do by themselves -/

def Call.rank (call : Call threadNum) : Nat :=
  match call.phase with
  | .trying round => threadNum + 8 + (threadNum * 2 - round)
  | .choosing => threadNum + 7
  | .pushing .. => threadNum + 6
  | .returned | .rejected => 0

/-- A worker that goes on after it has resumed an item may try to steal from every queue. -/
def WorkerPhase.rank (threadNum : Nat) : WorkerPhase → Nat
  | .holding _ => threadNum + 4
  | .stealing i => threadNum - i + 3
  | .popping => 2
  | .refused => 1
  | .exited => 0

def itemsRank (threadNum : Nat) (queue : BlockingQueue TaskItem) : Nat :=
  (threadNum + 3) * queue.items.length

namespace ThreadPool

/-- How much what has been called for may still do, if nobody sleeps. -/
def rank (pool : ThreadPool threadNum) : Nat :=
  (pool.calls.map Call.rank).sum + weigh (itemsRank threadNum) pool.queues +
    weigh (WorkerPhase.rank threadNum) pool.workers + 3 * (threadNum - pool.stoppedQueues)

theorem rank_top_le (enableWorkSteal : Bool) :
    (top enableWorkSteal).rank threadNum < threadNum + 4 := by
  cases enableWorkSteal with
  | true => exact Nat.lt_succ_self _
  | false =>
    simp only [top, Bool.false_eq_true, if_false, WorkerPhase.rank]
    omega

theorem rank_setCall (pool : ThreadPool threadNum) {ticket : Nat} {call : Call threadNum}
    (found : pool.calls[ticket]? = some call) (next : Call threadNum) :
    (pool.setCall ticket next).rank + call.rank = pool.rank + next.rank := by
  have calls := sum_map_set Call.rank found next
  simp only [rank, setCall]
  omega

theorem rank_setWorker (pool : ThreadPool threadNum) (worker : Fin threadNum)
    (phase : WorkerPhase) :
    (pool.setWorker worker phase).rank + (pool.workers worker).rank threadNum =
      pool.rank + phase.rank threadNum := by
  have workers := weigh_update (WorkerPhase.rank threadNum) pool.workers worker phase
  simp only [rank, setWorker]
  omega

theorem rank_setQueue (pool : ThreadPool threadNum) (queue : Fin threadNum)
    (content : BlockingQueue TaskItem) :
    (pool.setQueue queue content).rank + itemsRank threadNum (pool.queues queue) =
      pool.rank + itemsRank threadNum content := by
  have queues := weigh_update (itemsRank threadNum) pool.queues queue content
  simp only [rank, setQueue]
  omega

theorem rank_push (pool : ThreadPool threadNum) (queue : Fin threadNum) (item : TaskItem) :
    (pool.setQueue queue ((pool.queues queue).push item)).rank = pool.rank + (threadNum + 3) := by
  have queues := rank_setQueue pool queue ((pool.queues queue).push item)
  have longer : itemsRank threadNum ((pool.queues queue).push item) =
      itemsRank threadNum (pool.queues queue) + (threadNum + 3) := by
    simp only [itemsRank, BlockingQueue.push, List.length_append, List.length_singleton,
      Nat.mul_add, Nat.mul_one]
  omega

theorem rank_popFront (pool : ThreadPool threadNum) {queue : Fin threadNum} {item : TaskItem}
    {items : List TaskItem} (front : (pool.queues queue).items = item :: items) :
    (pool.setQueue queue ((pool.queues queue).popFront item items)).rank + (threadNum + 3) =
      pool.rank := by
  have queues := rank_setQueue pool queue ((pool.queues queue).popFront item items)
  have shorter : itemsRank threadNum (pool.queues queue) =
      itemsRank threadNum ((pool.queues queue).popFront item items) + (threadNum + 3) := by
    simp only [itemsRank, BlockingQueue.popFront, front, List.length_cons, Nat.mul_add,
      Nat.mul_one]
  omega

/-- A call ends with its item in a queue. -/
theorem rank_insert (pool : ThreadPool threadNum) {ticket : Nat} {call : Call threadNum}
    (found : pool.calls[ticket]? = some call) (queue : Fin threadNum) (item : TaskItem)
    {next : Call threadNum} (returned : next.phase = .returned) :
    ((pool.setQueue queue ((pool.queues queue).push item)).setCall ticket next).rank + call.rank =
      pool.rank + (threadNum + 3) := by
  have moved := rank_setCall (pool.setQueue queue ((pool.queues queue).push item)) found next
  have ended : next.rank = 0 := by
    rw [Call.rank, returned]
  rw [rank_push, ended] at moved
  exact moved

/-- A worker takes an item, and may do less than the item and the worker before. -/
theorem rank_take (pool : ThreadPool threadNum) {worker queue : Fin threadNum} {item : TaskItem}
    {items : List TaskItem} (front : (pool.queues queue).items = item :: items)
    (awake : 1 < (pool.workers worker).rank threadNum) :
    ((pool.setQueue queue ((pool.queues queue).popFront item items)).setWorker worker
      (.holding item)).rank < pool.rank := by
  have popped := rank_popFront pool front
  have moved := rank_setWorker (pool.setQueue queue ((pool.queues queue).popFront item items))
    worker (.holding item)
  have same : ((pool.setQueue queue ((pool.queues queue).popFront item items)).workers worker) =
      pool.workers worker := rfl
  have holds : (WorkerPhase.holding item).rank threadNum = threadNum + 4 := rfl
  rw [same, holds] at moved
  omega

end ThreadPool

namespace ThreadPool

/-- How many notifications the step leads to. -/
def announced [NeZero threadNum] (pool : ThreadPool threadNum) (label : ThreadPoolStep threadNum) :
    Nat :=
  (pool.pushesTo label).isSome.toNat + (pool.halts label).isSome.toNat

/-- Whoever goes on by himself has less to do afterwards, and less by more than the
notification that is to come. -/
theorem Takes.rank_lt [NeZero threadNum] {pool next : ThreadPool threadNum}
    {label : ThreadPoolStep threadNum} (takes : pool.Takes label next) (own : label.Own)
    (stopping : pool.Stopping) : next.rank + 2 * pool.announced label < pool.rank := by
  cases takes with
  | scheduleById | stop => cases own
  | @tryPush ticket handle id round found locked =>
    have trying : (⟨handle, id, .trying round⟩ : Call threadNum).rank =
        threadNum + 8 + (threadNum * 2 - round) := rfl
    cases locked with
    | true =>
      have announces : pool.announced (.tryPush ticket true) = 1 := by
        simp [announced, pushesTo, halts, found]
      have inserted := rank_insert pool found (Fin.ofNat threadNum round) ⟨handle, true, ticket⟩
        (show (⟨handle, id, .returned⟩ : Call threadNum).phase = .returned from rfl)
      rw [tryPush_locked, announces]
      omega
    | false =>
      have announces : pool.announced (.tryPush ticket false) = 0 := by
        simp [announced, pushesTo, halts]
      have moved := rank_setCall pool found ⟨handle, id,
        if round + 1 < threadNum * 2 then .trying (round + 1) else .choosing⟩
      have less : Call.rank (⟨handle, id, if round + 1 < threadNum * 2 then .trying (round + 1)
          else .choosing⟩ : Call threadNum) < threadNum + 8 + (threadNum * 2 - round) := by
        split
        case isTrue again =>
          have later : (⟨handle, id, .trying (round + 1)⟩ : Call threadNum).rank =
              threadNum + 8 + (threadNum * 2 - (round + 1)) := rfl
          omega
        case isFalse =>
          have chooses : (⟨handle, id, .choosing⟩ : Call threadNum).rank = threadNum + 7 := rfl
          omega
      rw [tryPush_unlocked, announces]
      omega
  | @choose ticket coro id found queue =>
    have announces : pool.announced (.choose ticket queue) = 0 := rfl
    have moved := rank_setCall pool found ⟨coro, id, .pushing queue pool.enableWorkSteal⟩
    have chooses : (⟨coro, id, .choosing⟩ : Call threadNum).rank = threadNum + 7 := rfl
    have pushes : (⟨coro, id, .pushing queue pool.enableWorkSteal⟩ : Call threadNum).rank =
        threadNum + 6 := rfl
    omega
  | @push ticket handle id queue canSteal found =>
    have announces : pool.announced (.push ticket) = 1 := by
      simp [announced, pushesTo, halts, found]
    have inserted := rank_insert pool found queue ⟨handle, canSteal, ticket⟩
      (show (⟨handle, id, .returned⟩ : Call threadNum).phase = .returned from rfl)
    have pushes : (⟨handle, id, .pushing queue canSteal⟩ : Call threadNum).rank =
        threadNum + 6 := rfl
    omega
  | @steal worker i stealing locked =>
    have announces : pool.announced (.steal worker locked) = 0 := rfl
    have steals : (WorkerPhase.stealing i).rank threadNum = threadNum - i + 3 := rfl
    rw [announces, Nat.mul_zero, Nat.add_zero]
    obtain ⟨queue, item, items, front, stolen⟩ | nothing := pool.steal_cases worker i locked
    · rw [stolen]
      refine rank_take pool front ?_
      rw [stealing, steals]
      omega
    · have moved := rank_setWorker pool worker
        (if i + 1 < threadNum then .stealing (i + 1) else .popping)
      rw [stealing, steals] at moved
      rw [nothing]
      split at moved
      case isTrue more =>
        have later : (WorkerPhase.stealing (i + 1)).rank threadNum = threadNum - (i + 1) + 3 := rfl
        rw [if_pos more]
        omega
      case isFalse last =>
        have pops : WorkerPhase.popping.rank threadNum = 2 := rfl
        rw [if_neg last]
        omega
  | @popItem worker item items popping front =>
    refine rank_take pool front ?_
    rw [popping]
    exact Nat.one_lt_two
  | @popNothing worker popping empty stop =>
    have moved := rank_setWorker pool worker .refused
    rw [popping] at moved
    exact Nat.lt_of_succ_le (Nat.le_of_eq (Nat.succ.inj moved))
  | @check worker refused =>
    have stopped := stopping.stopped worker (stopping.left worker (.inl refused))
    have moved := rank_setWorker pool worker .exited
    rw [refused] at moved
    rw [if_pos stopped]
    exact Nat.lt_of_succ_le (Nat.le_of_eq moved)
  | @resume worker item holding =>
    have announces : pool.announced (.resume worker) = 0 := rfl
    have moved := rank_setWorker { pool with resumed := pool.resumed ++ [(item, worker)] } worker
      (top pool.enableWorkSteal)
    have holds : (pool.workers worker).rank threadNum = threadNum + 4 := by
      rw [holding]
      rfl
    have less : (top pool.enableWorkSteal).rank threadNum < threadNum + 4 :=
      rank_top_le pool.enableWorkSteal
    have same : ThreadPool.rank { pool with resumed := pool.resumed ++ [(item, worker)] } =
        pool.rank := rfl
    simp only [holds, same] at moved
    omega
  | stopQueue inside =>
    have announces : pool.announced .stopQueue = 1 := by
      simp [announced, pushesTo, halts, inside.2]
    have queues := rank_setQueue pool ⟨pool.stoppedQueues, inside.2⟩
      { pool.queues ⟨pool.stoppedQueues, inside.2⟩ with stop := true }
    have same : itemsRank threadNum
        { pool.queues ⟨pool.stoppedQueues, inside.2⟩ with stop := true } =
          itemsRank threadNum (pool.queues ⟨pool.stoppedQueues, inside.2⟩) := rfl
    have fewer := inside.2
    simp only [rank, setQueue, same] at queues ⊢
    omega

end ThreadPool

/-- All that the counts say together. -/
theorem weigh_oneMore (counts : Fin threadNum → Nat) (bumped : Option (Fin threadNum)) :
    weigh id (oneMore counts bumped) = weigh id counts + bumped.isSome.toNat := by
  cases bumped with
  | none => rfl
  | some queue =>
    have updated := weigh_update id counts queue (counts queue + 1)
    simp only [oneMore, id, Option.isSome, Bool.toNat, cond_true] at updated ⊢
    omega

theorem weigh_oneLess {counts : Fin threadNum → Nat} {queue : Fin threadNum}
    (under : 0 < counts queue) :
    weigh id (Function.update counts queue (counts queue - 1)) + 1 = weigh id counts := by
  have updated := weigh_update id counts queue (counts queue - 1)
  simp only [id] at updated
  omega

def awakeWeight (asleep : Bool) : Nat := (!asleep).toNat

namespace NotifiedPool

/-- How much what has been called for may still do. -/
def rank (shared : NotifiedPool threadNum) : Nat :=
  shared.pool.rank + weigh awakeWeight shared.asleep +
    2 * (weigh id shared.notifyOnes + weigh id shared.notifyAlls)

/-- Whoever is woken may go to sleep once more. -/
theorem awake_wake_le (shared : NotifiedPool threadNum) (worker : Fin threadNum) :
    weigh awakeWeight (shared.wake worker).asleep ≤ weigh awakeWeight shared.asleep + 1 := by
  have updated := weigh_update awakeWeight shared.asleep worker false
  exact (Nat.le_add_right _ _).trans (Nat.le_of_eq updated)

/-- What goes on by itself comes to an end. -/
theorem Sound.rank_lt [NeZero threadNum] {shared next : NotifiedPool threadNum}
    {label : NotifiedStep threadNum} (sound : shared.Sound) (own : label.Own)
    (taken : shared.step label = some next) : next.rank < shared.rank := by
  cases takes_of_step taken with
  | @go label pool awake went =>
    have lower := (ThreadPool.takes_of_step went).rank_lt own sound.stopping
    have ones := weigh_oneMore shared.notifyOnes (shared.pool.pushesTo label)
    have alls := weigh_oneMore shared.notifyAlls (shared.pool.halts label)
    simp only [rank, ThreadPool.announced] at lower ⊢
    omega
  | @sleep worker popping waits awake =>
    have updated := weigh_update awakeWeight shared.asleep worker true
    have fewer : weigh awakeWeight (Function.update shared.asleep worker true) + 1 =
        weigh awakeWeight shared.asleep := by
      rw [awake] at updated
      exact updated
    simp only [rank]
    omega
  | @notifyOne queue under =>
    have woken := awake_wake_le shared queue
    have less := weigh_oneLess under
    simp only [rank, NotifiedPool.wake] at woken ⊢
    omega
  | @notifyAll queue under =>
    have woken := awake_wake_le shared queue
    have less := weigh_oneLess under
    simp only [rank, NotifiedPool.wake] at woken ⊢
    omega
  | spurious => cases own

/-- Nothing goes on by itself. -/
def AtRest [NeZero threadNum] (shared : NotifiedPool threadNum) : Prop :=
  ∀ label : NotifiedStep threadNum, label.Own → shared.step label = none

/-! ### A pool at rest -/

variable [NeZero threadNum] {shared : NotifiedPool threadNum}

/-- At rest, nobody who is awake can go on. -/
theorem AtRest.pool (rest : shared.AtRest) (alive : shared.pool.aborted = false)
    (label : ThreadPoolStep threadNum) (own : label.Own)
    (awake : shared.sleepsThrough label = false) : shared.pool.step label = none := by
  have still := rest (.go label) own
  simp only [NotifiedPool.step, alive, awake, Bool.false_eq_true, if_false] at still
  split at still
  case h_1 => cases still
  case h_2 none => exact none

theorem AtRest.notified (rest : shared.AtRest) (alive : shared.pool.aborted = false)
    (queue : Fin threadNum) : shared.notifyOnes queue = 0 ∧ shared.notifyAlls queue = 0 := by
  constructor
  · refine Nat.eq_zero_of_not_pos fun under => ?_
    have still := rest (.notifyOne queue) trivial
    simp only [NotifiedPool.step, alive, Bool.false_eq_true, if_false, if_pos under] at still
    cases still
  · refine Nat.eq_zero_of_not_pos fun under => ?_
    have still := rest (.notifyAll queue) trivial
    simp only [NotifiedPool.step, alive, Bool.false_eq_true, if_false, if_pos under] at still
    cases still

/-- At rest, a worker sleeps or has left. -/
theorem AtRest.worker (rest : shared.AtRest) (alive : shared.pool.aborted = false)
    (worker : Fin threadNum) :
    shared.asleep worker = true ∨ shared.pool.workers worker = .exited := by
  cases phase : shared.pool.workers worker with
  | exited => exact .inr rfl
  | stealing i =>
    have still := rest.pool alive (.steal worker true) trivial rfl
    simp only [ThreadPool.step, alive, phase, Bool.false_eq_true, if_false] at still
    cases still
  | refused =>
    have still := rest.pool alive (.check worker) trivial rfl
    simp only [ThreadPool.step, alive, phase, Bool.false_eq_true, if_false] at still
    cases still
  | holding item =>
    have still := rest.pool alive (.resume worker) trivial rfl
    simp only [ThreadPool.step, alive, phase, Bool.false_eq_true, if_false] at still
    cases still
  | popping =>
    refine .inl (Bool.eq_true_of_not_eq_false fun awake => ?_)
    -- its queue either lets it pop or lets it go to sleep
    have pops := rest.pool alive (.pop worker) trivial awake
    have sleeps := rest (.sleep worker) trivial
    simp only [ThreadPool.step, NotifiedPool.step, alive, phase, awake, Bool.false_eq_true,
      if_false] at pops sleeps
    cases returned : (shared.pool.queues worker).pop with
    | none =>
      rw [returned] at sleeps
      cases sleeps
    | some result =>
      obtain ⟨item, content⟩ := result
      rw [returned] at pops
      cases item <;> cases pops

/-- At rest, every call is over. -/
theorem Sound.settled (sound : shared.Sound) (rest : shared.AtRest)
    (alive : shared.pool.aborted = false) {ticket : Nat} {call : Call threadNum}
    (found : shared.pool.calls[ticket]? = some call) : call.Settled := by
  have fits := sound.scheduled.fits ticket call found
  obtain ⟨coro, id, phase⟩ := call
  cases phase with
  | returned => exact .inl rfl
  | rejected => exact .inr rfl
  | trying round =>
    obtain ⟨handle, rfl⟩ := Option.ne_none_iff_exists'.mp fits.1
    have still := rest.pool alive (.tryPush ticket true) trivial rfl
    simp only [ThreadPool.step, alive, found, Bool.false_eq_true, if_false] at still
    cases still
  | choosing =>
    have still := rest.pool alive (.choose ticket 0) trivial rfl
    simp only [ThreadPool.step, alive, found, Bool.false_eq_true, if_false] at still
    cases still
  | pushing queue canSteal =>
    obtain ⟨handle, rfl⟩ := Option.ne_none_iff_exists'.mp fits.1
    have still := rest.pool alive (.push ticket) trivial rfl
    simp only [ThreadPool.step, alive, found, Bool.false_eq_true, if_false] at still
    cases still

/-- At rest in a pool that has not been stopped, every worker sleeps. -/
theorem Sound.asleep (sound : shared.Sound) (rest : shared.AtRest)
    (alive : shared.pool.aborted = false) (up : shared.pool.stopped = false)
    (worker : Fin threadNum) : shared.asleep worker = true := by
  refine (rest.worker alive worker).resolve_right fun exited => ?_
  have stopped := sound.stopping.stopped worker (sound.stopping.left worker (.inr exited))
  rw [up] at stopped
  cases stopped

/-- Who sleeps at rest has an empty queue. -/
theorem Sound.empty (sound : shared.Sound) (rest : shared.AtRest)
    (alive : shared.pool.aborted = false) {worker : Fin threadNum}
    (asleep : shared.asleep worker = true) : (shared.pool.queues worker).items = [] := by
  have attended := sound.attended worker
  rw [asleep, (rest.notified alive worker).1] at attended
  exact List.length_eq_zero_iff.mp (attended.eq_zero Nat.one_ne_zero)

/-- At rest in a pool that has not been stopped, what has been inserted has been resumed. -/
theorem Sound.drained (sound : shared.Sound) (rest : shared.AtRest)
    (alive : shared.pool.aborted = false) (up : shared.pool.stopped = false) :
    shared.pool.Drained := by
  have asleep := sound.asleep rest alive up
  have empty : ∀ queue, (shared.pool.queues queue).items = [] :=
    fun queue => sound.empty rest alive (asleep queue)
  refine ⟨fun ticket call found accepted => ?_, empty⟩
  have returned := (sound.settled rest alive found).resolve_right accepted
  have queued : shared.pool.queued = 0 := by
    simp only [ThreadPool.queued, empty, Multiset.coe_nil, Library.Holdings.total_zero]
  have held : shared.pool.held = 0 := by
    simp only [ThreadPool.held, sound.popping _ (asleep _), WorkerPhase.item,
      Library.Holdings.total_zero]
  have resumed : shared.pool.insertions ticket = shared.pool.resumptions ticket := by
    rw [ThreadPool.resumptions_eq, ThreadPool.insertions, sound.scheduled.accounted, queued, held,
      zero_add, zero_add]
  rw [← resumed, sound.scheduled.insertions, found]
  exact if_pos returned

/-- At rest in a pool that has been stopped, every worker has left. -/
theorem Sound.allExited (sound : shared.Sound) (rest : shared.AtRest)
    (alive : shared.pool.aborted = false) (stopped : shared.pool.stopped = true) :
    shared.pool.AllExited := by
  have all : threadNum ≤ shared.pool.stoppedQueues := by
    refine Nat.le_of_not_lt fun some => ?_
    have still := rest.pool alive .stopQueue trivial rfl
    simp only [ThreadPool.step, alive, Bool.false_eq_true, if_false,
      dif_pos (And.intro stopped some)] at still
    cases still
  intro worker
  refine (rest.worker alive worker).resolve_left fun asleep => ?_
  have halted := sound.stopping.inOrder worker (worker.isLt.trans_le all)
  have under := sound.stopped worker asleep halted
  rw [(rest.notified alive worker).2] at under
  exact Nat.lt_irrefl 0 under

/-- A pool is at rest where every worker sleeps, every call is over and nothing is left to be
notified. -/
theorem atRest_of_asleep (up : shared.pool.stopped = false)
    (asleep : ∀ worker, shared.asleep worker = true ∧ shared.pool.workers worker = .popping)
    (notified : ∀ queue, shared.notifyOnes queue = 0 ∧ shared.notifyAlls queue = 0)
    (settled : ∀ call ∈ shared.pool.calls, call.Settled) : shared.AtRest := by
  have still : ∀ label : ThreadPoolStep threadNum, label.Own →
      shared.sleepsThrough label = false → shared.pool.step label = none := by
    intro label own awake
    cases taken : shared.pool.step label with
    | none => rfl
    | some next =>
      exfalso
      have ended : ∀ {ticket : Nat} {call : Call threadNum},
          shared.pool.calls[ticket]? = some call →
            call.phase = .returned ∨ call.phase = .rejected :=
        fun found => settled _ (List.mem_of_getElem? found)
      cases ThreadPool.takes_of_step taken with
      | scheduleById | stop => cases own
      | tryPush found | choose found | push found =>
        rcases ended found with phase | phase <;> cases phase
      | steal phase | check phase | resume phase =>
        rw [(asleep _).2] at phase
        cases phase
      | popItem | popNothing =>
        rw [sleepsThrough, (asleep _).1] at awake
        cases awake
      | stopQueue inside =>
        rw [up] at inside
        exact Bool.false_ne_true inside.1
  intro label own
  cases taken : shared.step label with
  | none => rfl
  | some next =>
    exfalso
    cases takes_of_step taken with
    | go awake went =>
      rw [still _ own awake] at went
      cases went
    | @sleep worker _ _ awake =>
      rw [(asleep worker).1] at awake
      cases awake
    | @notifyOne queue under => exact absurd (notified queue).1 (Nat.ne_of_gt under)
    | @notifyAll queue under => exact absurd (notified queue).2 (Nat.ne_of_gt under)
    | spurious => cases own

/-- The threads do what they do in the pool where `pop` is one step. -/
theorem follows (shared : NotifiedPool threadNum) (label : NotifiedStep threadNum)
    (next : NotifiedPool threadNum) (taken : shared.step label = some next) :
    Reaches ThreadPool.step shared.pool next.pool := by
  cases takes_of_step taken with
  | go awake went => exact .single went
  | sleep | notifyOne | notifyAll | spurious => exact .refl _ _

end NotifiedPool

/-- Whatever the threads have done in whatever order, they have done what they can do where
`pop` is one step, and what goes on by itself then is at rest after boundedly many steps, in
whatever order. At rest, if no assertion has failed, every call is over; if the pool has not
been stopped, every worker sleeps, and whatever a call has not rejected has been resumed once;
and if it has, every worker has left. -/
theorem notifiedPool_rests [NeZero threadNum] (enableWorkSteal : Bool)
    (steps : List (NotifiedStep threadNum)) (reached : NotifiedPool threadNum)
    (ran : run NotifiedPool.step (.initial enableWorkSteal) steps = some reached)
    (own : List (NotifiedStep threadNum)) (owned : ∀ label ∈ own, label.Own)
    (final : NotifiedPool threadNum) (went : run NotifiedPool.step reached own = some final) :
    Reaches ThreadPool.step (ThreadPool.initial enableWorkSteal) final.pool ∧
      own.length ≤ reached.rank ∧
      (final.AtRest → final.pool.aborted = false →
        (∀ (ticket : Nat) (call : Call threadNum), final.pool.calls[ticket]? = some call →
          call.Settled) ∧
        (final.pool.stopped = false →
          (∀ worker, final.asleep worker = true) ∧ final.pool.Drained) ∧
        (final.pool.stopped = true → final.pool.AllExited)) := by
  have preserved : ∀ (shared : NotifiedPool threadNum) (label : NotifiedStep threadNum)
      (next : NotifiedPool threadNum), shared.Sound → shared.step label = some next →
        next.Sound := fun _ _ _ sound taken => sound.step taken
  have sound : reached.Sound :=
    invariant_run NotifiedPool.step preserved (.initial enableWorkSteal) ran
  have soundFinal : final.Sound := invariant_run NotifiedPool.step preserved sound went
  have bounded := length_add_rank_le NotifiedPool.step
    (fun pool label next sound _ taken => preserved pool label next sound taken)
    (fun _ _ _ sound own taken => sound.rank_lt own taken) sound owned went
  have coarse := (reaches_of_simulation NotifiedPool.follows ran).trans
    (reaches_of_simulation NotifiedPool.follows went)
  refine ⟨coarse, Nat.le_of_add_right_le bounded, fun rest alive => ⟨?_, ?_, ?_⟩⟩
  · exact fun _ _ found => soundFinal.settled rest alive found
  · exact fun up => ⟨soundFinal.asleep rest alive up, soundFinal.drained rest alive up⟩
  · exact soundFinal.allExited rest alive

/-- A coroutine is pushed to the queue of a worker that sleeps. -/
theorem notifiedPool_rests_two :
    ∃ reached final : NotifiedPool 2,
      run NotifiedPool.step (.initial false)
        [.sleep 0, .sleep 1, .go (.scheduleById (some 7) (-1))] = some reached ∧
      run NotifiedPool.step reached
        [.go (.choose 0 1), .go (.push 0), .notifyOne 1, .go (.pop 1), .go (.resume 1), .sleep 1] =
          some final ∧
      6 ≤ reached.rank ∧ final.AtRest ∧ final.pool.Drained := by
  obtain ⟨reached, final, ran, went, up, alive, asleep, notified, calls⟩ :
      ∃ reached final : NotifiedPool 2,
        run NotifiedPool.step (.initial false)
          [.sleep 0, .sleep 1, .go (.scheduleById (some 7) (-1))] = some reached ∧
        run NotifiedPool.step reached
          [.go (.choose 0 1), .go (.push 0), .notifyOne 1, .go (.pop 1), .go (.resume 1),
            .sleep 1] = some final ∧
        final.pool.stopped = false ∧ final.pool.aborted = false ∧
        (∀ worker, final.asleep worker = true ∧ final.pool.workers worker = .popping) ∧
        (∀ queue, final.notifyOnes queue = 0 ∧ final.notifyAlls queue = 0) ∧
        final.pool.calls = [⟨some 7, -1, .returned⟩] :=
    ⟨_, _, rfl, rfl, rfl, rfl, by decide, by decide, rfl⟩
  have rest : final.AtRest := NotifiedPool.atRest_of_asleep up asleep notified (by
    rw [calls]
    exact List.forall_mem_singleton.mpr (.inl rfl))
  obtain ⟨-, bounded, rests⟩ := notifiedPool_rests false _ reached ran _
    (by simp [NotifiedStep.Own, ThreadPoolStep.Own]) final went
  exact ⟨reached, final, ran, went, bounded, rest, ((rests rest alive).2.1 up).2⟩

end Luce.Co
