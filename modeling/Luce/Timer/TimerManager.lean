/-
This file models the timer manager: a binary heap of timers ordered by expiry,
an id counter, and the four calls that touch them. Every call runs under the
manager's mutex, so a run is a sequence of calls.

The heap is the vector `timers_`, an array here. Its indices are `uint32_t`, so
the child indices of `HeapifyDown` and the index that `RemoveTimer` and `Push`
hand on are taken modulo `2 ^ 32`. `pop` returns through a reference to slot `0`
of the vector, so what it copies is whatever occupies that slot once `Erase` is
done with it.
-/

import Luce.Library.Heap
import Luce.Library.Run
import Mathlib.Algebra.Group.Nat.Defs
import Mathlib.Data.Int.Order.Basic

namespace Luce

/-- Nanoseconds on the system clock. -/
abbrev TimePoint := Int

/-- A pending timer. -/
structure Timer (Task : Type) where
  expiryTime : TimePoint
  timerId : Nat
  task : Task
deriving DecidableEq, Repr

/-- The heap, the id counter and the stop flag. -/
structure TimerManager (Task : Type) where
  timers : Array (Timer Task)
  timerId : Nat
  stop : Bool

/-- What the local copy that `pop` returns is made from. -/
inductive Popped (Task : Type) where
  /-- A default-constructed timer: the heap was empty. -/
  | fresh
  /-- The timer that occupies slot `0` after the erasure. -/
  | copied (timer : Timer Task)
  /-- The storage of a destroyed timer: the erasure emptied the vector. -/
  | dangling
deriving DecidableEq, Repr

/-- The calls of the public interface; `tick` is one iteration of the loop. -/
inductive TimerCall (Task : Type) where
  | addTimer (now : TimePoint) (milliseconds : UInt32) (callback : Task)
  | removeTimer (timerId : Nat)
  | tick (now : TimePoint)
  | shutdown

namespace TimerManager

variable {Task : Type}

/-! ### The heap -/

/-- Whether both entries exist and the first expires before the second. -/
def expiresBefore (timers : Array (Timer Task)) (first second : Nat) : Bool :=
  if bounds : first < timers.size ∧ second < timers.size then
    have := bounds.1
    have := bounds.2
    decide (timers[first].expiryTime < timers[second].expiryTime)
  else false

def heapifyUp (timers : Array (Timer Task)) (index : Nat) : Array (Timer Task) :=
  if root : index = 0 then timers
  else
    let parentIndex := (index - 1) / 2
    if expiresBefore timers index parentIndex then
      heapifyUp (timers.swapIfInBounds index parentIndex) parentIndex
    else timers
termination_by index
decreasing_by omega

/-- The local `smallest_index` of `HeapifyDown`. -/
def smallestIndex (timers : Array (Timer Task)) (index : Nat) : Nat :=
  let leftChildIndex := (index * 2 + 1) % 2 ^ 32
  let rightChildIndex := (index * 2 + 2) % 2 ^ 32
  let smallest := if expiresBefore timers leftChildIndex index then leftChildIndex else index
  if expiresBefore timers rightChildIndex smallest then rightChildIndex else smallest

/-- The fuel bounds the depth of the recursion; `erase` passes enough of it for
every heap whose child indices do not wrap. -/
def heapifyDown : Nat → Array (Timer Task) → Nat → Array (Timer Task)
  | 0, timers, _ => timers
  | fuel + 1, timers, index =>
    let smallest := smallestIndex timers index
    if smallest ≠ index then
      heapifyDown fuel (timers.swapIfInBounds smallest index) smallest
    else timers

def erase (timers : Array (Timer Task)) (index : Nat) : Array (Timer Task) :=
  let remaining := (timers.swapIfInBounds index (timers.size - 1)).pop
  heapifyDown remaining.size remaining index

def push (timers : Array (Timer Task)) (timer : Timer Task) : Array (Timer Task) :=
  let extended := timers.push timer
  heapifyUp extended ((extended.size - 1) % 2 ^ 32)

def pop (timers : Array (Timer Task)) : Popped Task × Array (Timer Task) :=
  if timers.isEmpty then (.fresh, timers)
  else
    let remaining := erase timers 0
    match remaining[0]? with
    | some timer => (.copied timer, remaining)
    | none => (.dangling, remaining)

/-! ### The calls -/

def addTimer (manager : TimerManager Task) (now : TimePoint) (milliseconds : UInt32)
    (callback : Task) : TimerManager Task :=
  let expiryTime := now + milliseconds.toNat * 1000000
  { manager with
    timers := push manager.timers ⟨expiryTime, manager.timerId, callback⟩
    timerId := (manager.timerId + 1) % 2 ^ 64 }

def removeTimer (manager : TimerManager Task) (timerId : Nat) : TimerManager Task :=
  match manager.timers.findIdx? fun timer => timer.timerId == timerId with
  | some index => { manager with timers := erase manager.timers (index % 2 ^ 32) }
  | none => manager

/-- The guard of an iteration: the heap has a top and its expiry has come. -/
def due (manager : TimerManager Task) (now : TimePoint) : Bool :=
  match manager.timers[0]? with
  | some top => decide (top.expiryTime ≤ now)
  | none => false

/-- One iteration of the loop, with the local timer whose task it spawns. -/
def tick (manager : TimerManager Task) (now : TimePoint) :
    TimerManager Task × Option (Popped Task) :=
  if manager.stop then (manager, none)
  else if manager.due now then
    let popped := pop manager.timers
    ({ manager with timers := popped.2 }, some popped.1)
  else (manager, none)

/-- The manager after a call. -/
def step (manager : TimerManager Task) : TimerCall Task → TimerManager Task
  | .addTimer now milliseconds callback => manager.addTimer now milliseconds callback
  | .removeTimer timerId => manager.removeTimer timerId
  | .tick now => (manager.tick now).1
  | .shutdown => { manager with stop := true }

/-- The timer whose task a call spawns. -/
def spawned (manager : TimerManager Task) : TimerCall Task → Option (Popped Task)
  | .tick now => (manager.tick now).2
  | _ => none

/-- A manager nobody has called yet. -/
def initial : TimerManager Task := ⟨#[], 0, false⟩

end TimerManager

end Luce
