/-
This file models the blocking queue, and the pool of threads that resume coroutines.

A step is one pass through a section that holds the lock of one queue, or something that
a thread does between two of them. `try_push` and `try_pop_if` may find the lock taken at
any time; `pop` waits until the queue has an item or is stopped. A call of `ScheduleById`
is known by its ticket, its place among the calls, which its item carries along.
-/

import Luce.Library.Holdings
import Luce.Library.Transition
import Mathlib.Algebra.GroupWithZero.Nat

namespace Luce

/-! ### The blocking queue -/

/-- A queue, with what has been pushed to it and what has been popped from it so far. -/
structure BlockingQueue (Item : Type) where
  items : List Item
  stop : Bool
  pushed : List Item
  popped : List Item
deriving DecidableEq, Repr

namespace BlockingQueue

variable {Item : Type}

def new : BlockingQueue Item := ⟨[], false, [], []⟩

def push (queue : BlockingQueue Item) (value : Item) : BlockingQueue Item :=
  { queue with items := queue.items ++ [value], pushed := queue.pushed ++ [value] }

/-- `try_push`, which succeeds if it gets the lock. -/
def tryPush (queue : BlockingQueue Item) (locked : Bool) (value : Item) :
    Bool × BlockingQueue Item :=
  if locked then (true, queue.push value) else (false, queue)

/-- The item at the front goes. -/
def popFront (queue : BlockingQueue Item) (item : Item) (items : List Item) :
    BlockingQueue Item :=
  { queue with items, popped := queue.popped ++ [item] }

/-- `pop`, unless it waits: the item, or none from a stopped queue. -/
def pop (queue : BlockingQueue Item) : Option (Option Item × BlockingQueue Item) :=
  match queue.items with
  | item :: items => some (some item, queue.popFront item items)
  | [] => if queue.stop then some (none, queue) else none

/-- `try_pop_if`, which succeeds if it gets the lock and the front meets the condition. -/
def tryPopIf (queue : BlockingQueue Item) (locked : Bool) (predict : Item → Bool) :
    Option Item × BlockingQueue Item :=
  match queue.items with
  | item :: items =>
    if locked && predict item then (some item, queue.popFront item items) else (none, queue)
  | [] => (none, queue)

/-- An item that `pop` has returned was at the front. -/
theorem pop_eq_item {queue content : BlockingQueue Item} {item : Item}
    (returned : queue.pop = some (some item, content)) :
    ∃ items, queue.items = item :: items ∧ content = queue.popFront item items := by
  unfold pop at returned
  split at returned
  case h_1 first items front =>
    cases returned
    exact ⟨items, front, rfl⟩
  case h_2 => split at returned <;> cases returned

/-- When `pop` has returned nothing, the queue is empty and stopped. -/
theorem pop_eq_nothing {queue content : BlockingQueue Item}
    (returned : queue.pop = some (none, content)) :
    queue.items = [] ∧ queue.stop = true ∧ content = queue := by
  unfold pop at returned
  split at returned
  case h_1 => cases returned
  case h_2 empty =>
    split at returned
    case isTrue stop =>
      cases returned
      exact ⟨empty, stop, rfl⟩
    case isFalse => cases returned

/-- What `try_pop_if` has returned: the item at the front, if it meets the condition, or
nothing. -/
theorem tryPopIf_cases (queue : BlockingQueue Item) (locked : Bool) (predict : Item → Bool) :
    (∃ item items, queue.items = item :: items ∧ predict item = true ∧
        queue.tryPopIf locked predict = (some item, queue.popFront item items)) ∨
      queue.tryPopIf locked predict = (none, queue) := by
  unfold tryPopIf
  split
  case h_1 item items front =>
    split
    case isTrue allowed =>
      exact .inl ⟨item, items, front, (Bool.and_eq_true_iff.mp allowed).2, rfl⟩
    case isFalse => exact .inr rfl
  case h_2 => exact .inr rfl

end BlockingQueue

namespace Co

/-! ### The pool -/

/-- The address of a coroutine. -/
abbrev CoroHandle := Nat

structure TaskItem where
  handle : CoroHandle
  canSteal : Bool
  /-- Which call of `ScheduleById` has made the item. -/
  ticket : Nat
deriving DecidableEq, Repr

/-- How far a call of `ScheduleById` is. -/
inductive CallPhase (threadNum : Nat) where
  /-- It tries to push to one queue after the other. -/
  | trying (round : Nat)
  /-- It is about to draw a queue. -/
  | choosing
  | pushing (queue : Fin threadNum) (canSteal : Bool)
  | returned
  /-- The handle is null, or the pool has been stopped. -/
  | rejected
deriving DecidableEq, Repr

structure Call (threadNum : Nat) where
  coro : Option CoroHandle
  id : Int
  phase : CallPhase threadNum
deriving DecidableEq, Repr

/-- Where a worker is in its loop. -/
inductive WorkerPhase where
  /-- It tries to steal from the queue this far behind its own. -/
  | stealing (i : Nat)
  /-- It pops from its own queue. -/
  | popping
  /-- Its own queue has returned nothing. -/
  | refused
  | holding (item : TaskItem)
  | exited
deriving DecidableEq, Repr

/-- The pool, with all calls of `ScheduleById` and which worker has resumed which item. -/
structure ThreadPool (threadNum : Nat) where
  enableWorkSteal : Bool
  queues : Fin threadNum → BlockingQueue TaskItem
  workers : Fin threadNum → WorkerPhase
  stopped : Bool
  /-- How many queues the destructor has stopped. -/
  stoppedQueues : Nat
  calls : List (Call threadNum)
  resumed : List (TaskItem × Fin threadNum)
  /-- An assertion has failed. -/
  aborted : Bool

inductive ThreadPoolStep (threadNum : Nat) where
  /-- A call of `ScheduleById`, up to its first section. -/
  | scheduleById (coro : Option CoroHandle) (id : Int)
  /-- A call tries to push, and gets the lock or does not. -/
  | tryPush (ticket : Nat) (locked : Bool)
  /-- A call draws this queue. -/
  | choose (ticket : Nat) (queue : Fin threadNum)
  | push (ticket : Nat)
  /-- A worker tries to steal, and gets the lock or does not. -/
  | steal (worker : Fin threadNum) (locked : Bool)
  | pop (worker : Fin threadNum)
  /-- A worker whose queue has returned nothing looks whether the pool is stopped. -/
  | check (worker : Fin threadNum)
  | resume (worker : Fin threadNum)
  /-- The destructor sets `stopped_`. -/
  | stop
  /-- The destructor stops the next queue. -/
  | stopQueue
deriving DecidableEq, Repr

namespace ThreadPool

variable {threadNum : Nat}

/-- Where the loop of a worker begins. -/
def top (enableWorkSteal : Bool) : WorkerPhase := if enableWorkSteal then .stealing 0 else .popping

def initial (enableWorkSteal : Bool) : ThreadPool threadNum :=
  ⟨enableWorkSteal, fun _ => .new, fun _ => top enableWorkSteal, false, 0, [], [], false⟩

def setQueue (pool : ThreadPool threadNum) (queue : Fin threadNum)
    (content : BlockingQueue TaskItem) : ThreadPool threadNum :=
  { pool with queues := Function.update pool.queues queue content }

def setWorker (pool : ThreadPool threadNum) (worker : Fin threadNum) (phase : WorkerPhase) :
    ThreadPool threadNum :=
  { pool with workers := Function.update pool.workers worker phase }

def setCall (pool : ThreadPool threadNum) (ticket : Nat) (call : Call threadNum) :
    ThreadPool threadNum :=
  { pool with calls := pool.calls.set ticket call }

section

variable (pool : ThreadPool threadNum)

@[simp] theorem queues_setQueue_self (queue : Fin threadNum) (content : BlockingQueue TaskItem) :
    (pool.setQueue queue content).queues queue = content :=
  Function.update_self ..

theorem queues_setQueue_of_ne {queue other : Fin threadNum} (apart : other ≠ queue)
    (content : BlockingQueue TaskItem) :
    (pool.setQueue queue content).queues other = pool.queues other :=
  Function.update_of_ne apart ..

@[simp] theorem workers_setWorker_self (worker : Fin threadNum) (phase : WorkerPhase) :
    (pool.setWorker worker phase).workers worker = phase :=
  Function.update_self ..

theorem workers_setWorker_of_ne {worker other : Fin threadNum} (apart : other ≠ worker)
    (phase : WorkerPhase) : (pool.setWorker worker phase).workers other = pool.workers other :=
  Function.update_of_ne apart ..

end

/-- How `ScheduleById` begins. A negative identity is a large one as a `size_t`. -/
def scheduleById (pool : ThreadPool threadNum) (coro : Option CoroHandle) (id : Int) :
    ThreadPool threadNum :=
  let begin phase := { pool with calls := pool.calls ++ [⟨coro, id, phase⟩] }
  if coro = none then begin .rejected
  else if pool.stopped then begin .rejected
  else if id = -1 then begin (if pool.enableWorkSteal then .trying 0 else .choosing)
  else if inside : id.toNat < threadNum ∧ 0 ≤ id then begin (.pushing ⟨id.toNat, inside.1⟩ false)
  else { pool with aborted := true }

/-- A round of the loop that tries to push. -/
def tryPush [NeZero threadNum] (pool : ThreadPool threadNum) (ticket : Nat)
    (call : Call threadNum) (handle : CoroHandle) (round : Nat) (locked : Bool) :
    ThreadPool threadNum :=
  let queue := Fin.ofNat threadNum round
  let (success, content) := (pool.queues queue).tryPush locked ⟨handle, true, ticket⟩
  if success then (pool.setQueue queue content).setCall ticket { call with phase := .returned }
  else if round + 1 < threadNum * 2 then
    pool.setCall ticket { call with phase := .trying (round + 1) }
  else pool.setCall ticket { call with phase := .choosing }

/-- A round of the loop that tries to steal. -/
def steal [NeZero threadNum] (pool : ThreadPool threadNum) (worker : Fin threadNum) (i : Nat)
    (locked : Bool) : ThreadPool threadNum :=
  let queue := Fin.ofNat threadNum (worker + i)
  let (taskItem, content) := (pool.queues queue).tryPopIf locked (·.canSteal)
  match taskItem with
  | some item => (pool.setQueue queue content).setWorker worker (.holding item)
  | none => pool.setWorker worker (if i + 1 < threadNum then .stealing (i + 1) else .popping)

def step [NeZero threadNum] (pool : ThreadPool threadNum) (label : ThreadPoolStep threadNum) :
    Option (ThreadPool threadNum) :=
  if pool.aborted then none
  else
    match label with
    | .scheduleById coro id => some (pool.scheduleById coro id)
    | .tryPush ticket locked =>
      match pool.calls[ticket]? with
      | some ⟨some handle, id, .trying round⟩ =>
        some (pool.tryPush ticket ⟨handle, id, .trying round⟩ handle round locked)
      | _ => none
    | .choose ticket queue =>
      match pool.calls[ticket]? with
      | some ⟨coro, id, .choosing⟩ =>
        some (pool.setCall ticket ⟨coro, id, .pushing queue pool.enableWorkSteal⟩)
      | _ => none
    | .push ticket =>
      match pool.calls[ticket]? with
      | some ⟨some handle, id, .pushing queue canSteal⟩ =>
        some ((pool.setQueue queue ((pool.queues queue).push ⟨handle, canSteal, ticket⟩)).setCall
          ticket ⟨handle, id, .returned⟩)
      | _ => none
    | .steal worker locked =>
      match pool.workers worker with
      | .stealing i => some (pool.steal worker i locked)
      | _ => none
    | .pop worker =>
      match pool.workers worker, (pool.queues worker).pop with
      | .popping, some (some item, content) =>
        some ((pool.setQueue worker content).setWorker worker (.holding item))
      | .popping, some (none, _) => some (pool.setWorker worker .refused)
      | _, _ => none
    | .check worker =>
      match pool.workers worker with
      | .refused =>
        some (pool.setWorker worker (if pool.stopped then .exited else top pool.enableWorkSteal))
      | _ => none
    | .resume worker =>
      match pool.workers worker with
      | .holding item =>
        some ({ pool with resumed := pool.resumed ++ [(item, worker)] }.setWorker worker
          (top pool.enableWorkSteal))
      | _ => none
    | .stop => some { pool with stopped := true }
    | .stopQueue =>
      if inside : pool.stopped ∧ pool.stoppedQueues < threadNum then
        let queue := ⟨pool.stoppedQueues, inside.2⟩
        some { pool.setQueue queue { pool.queues queue with stop := true } with
          stoppedQueues := pool.stoppedQueues + 1 }
      else none

/-- What a step can have done. -/
inductive Takes [NeZero threadNum] (pool : ThreadPool threadNum) :
    ThreadPoolStep threadNum → ThreadPool threadNum → Prop
  | scheduleById (coro : Option CoroHandle) (id : Int) :
    Takes pool (.scheduleById coro id) (pool.scheduleById coro id)
  | tryPush {ticket : Nat} {handle : CoroHandle} {id : Int} {round : Nat}
    (found : pool.calls[ticket]? = some ⟨some handle, id, .trying round⟩) (locked : Bool) :
    Takes pool (.tryPush ticket locked)
      (pool.tryPush ticket ⟨handle, id, .trying round⟩ handle round locked)
  | choose {ticket : Nat} {coro : Option CoroHandle} {id : Int}
    (found : pool.calls[ticket]? = some ⟨coro, id, .choosing⟩) (queue : Fin threadNum) :
    Takes pool (.choose ticket queue)
      (pool.setCall ticket ⟨coro, id, .pushing queue pool.enableWorkSteal⟩)
  | push {ticket : Nat} {handle : CoroHandle} {id : Int} {queue : Fin threadNum} {canSteal : Bool}
    (found : pool.calls[ticket]? = some ⟨some handle, id, .pushing queue canSteal⟩) :
    Takes pool (.push ticket)
      ((pool.setQueue queue ((pool.queues queue).push ⟨handle, canSteal, ticket⟩)).setCall ticket
        ⟨handle, id, .returned⟩)
  | steal {worker : Fin threadNum} {i : Nat} (stealing : pool.workers worker = .stealing i)
    (locked : Bool) : Takes pool (.steal worker locked) (pool.steal worker i locked)
  | popItem {worker : Fin threadNum} {item : TaskItem} {items : List TaskItem}
    (popping : pool.workers worker = .popping)
    (front : (pool.queues worker).items = item :: items) :
    Takes pool (.pop worker)
      ((pool.setQueue worker ((pool.queues worker).popFront item items)).setWorker worker
        (.holding item))
  | popNothing {worker : Fin threadNum} (popping : pool.workers worker = .popping)
    (empty : (pool.queues worker).items = []) (stop : (pool.queues worker).stop = true) :
    Takes pool (.pop worker) (pool.setWorker worker .refused)
  | check {worker : Fin threadNum} (refused : pool.workers worker = .refused) :
    Takes pool (.check worker)
      (pool.setWorker worker (if pool.stopped then .exited else top pool.enableWorkSteal))
  | resume {worker : Fin threadNum} {item : TaskItem}
    (holding : pool.workers worker = .holding item) :
    Takes pool (.resume worker)
      ({ pool with resumed := pool.resumed ++ [(item, worker)] }.setWorker worker
        (top pool.enableWorkSteal))
  | stop : Takes pool .stop { pool with stopped := true }
  | stopQueue (inside : pool.stopped = true ∧ pool.stoppedQueues < threadNum) :
    Takes pool .stopQueue
      { pool.setQueue ⟨pool.stoppedQueues, inside.2⟩
          { pool.queues ⟨pool.stoppedQueues, inside.2⟩ with stop := true } with
        stoppedQueues := pool.stoppedQueues + 1 }

theorem takes_of_step [NeZero threadNum] {pool next : ThreadPool threadNum}
    {label : ThreadPoolStep threadNum} (taken : pool.step label = some next) :
    pool.Takes label next := by
  unfold step at taken
  split at taken
  case isTrue => cases taken
  case isFalse =>
  cases label with
  | scheduleById coro id =>
    cases taken
    exact .scheduleById coro id
  | tryPush ticket locked =>
    simp only at taken
    split at taken <;> cases taken
    case h_1 found => exact .tryPush found locked
  | choose ticket queue =>
    simp only at taken
    split at taken <;> cases taken
    case h_1 found => exact .choose found queue
  | push ticket =>
    simp only at taken
    split at taken <;> cases taken
    case h_1 found => exact .push found
  | steal worker locked =>
    simp only at taken
    split at taken <;> cases taken
    case h_1 stealing => exact .steal stealing locked
  | pop worker =>
    simp only at taken
    split at taken <;> cases taken
    case h_1 popping popped =>
      obtain ⟨items, front, rfl⟩ := BlockingQueue.pop_eq_item popped
      exact .popItem popping front
    case h_2 popping popped =>
      obtain ⟨empty, stop, -⟩ := BlockingQueue.pop_eq_nothing popped
      exact .popNothing popping empty stop
  | check worker =>
    simp only at taken
    split at taken <;> cases taken
    case h_1 refused => exact .check refused
  | resume worker =>
    simp only at taken
    split at taken <;> cases taken
    case h_1 holding => exact .resume holding
  | stop =>
    cases taken
    exact .stop
  | stopQueue =>
    simp only at taken
    split at taken
    case isTrue inside =>
      cases taken
      exact .stopQueue inside
    case isFalse => cases taken

end ThreadPool

end Co

end Luce
