/-
This file models who owns the frame of a `Task` coroutine, from its creation to its end.

A `Task` object has the handle of a frame or none. Code outside the coroutines and the
bodies of coroutines create, move, destroy, detach, run and await tasks in any order. What a
body does besides is left open: at any point it may suspend itself at a leaf, where some
awaiter keeps the handle, or return. Whoever calls `resume` gets control back when what is
executed suspends itself or is done and nobody awaits it; calls of `resume` nest.
-/

import Luce.Coroutine.Task
import Luce.Library.Transition

namespace Luce.Co

/-- Where a coroutine is that is not done. -/
inductive LifePoint where
  | unstarted
  | leaf
  | awaiting (task : FrameHandle)
  | executing
deriving DecidableEq, Repr

/-- A call of `resume` that has not returned. -/
structure Resumption where
  /-- The coroutine that is executed now. -/
  executing : FrameHandle
  /-- The handle that `run` has resumed, if it was `run` that called. -/
  runs : Option FrameHandle
deriving DecidableEq, Repr

structure Coroutines (Value : Type) where
  frames : Frames LifePoint Value
  /-- How many frames have been created; the next handle. -/
  created : FrameHandle
  /-- The handle of each `Task` object that has not been destroyed. -/
  tasks : Nat → Option (Option FrameHandle)
  /-- How many `Task` objects there have been. -/
  objects : Nat
  /-- The handles that awaiters at leaves and the scheduler keep. -/
  saved : List FrameHandle
  /-- The calls of `resume`, the innermost first. -/
  resumptions : List Resumption
  /-- What each coroutine has returned. -/
  coReturned : FrameHandle → Option Value
  /-- What `run` has returned for tasks that are not void. -/
  returned : List (FrameHandle × Option Value)
  /-- A frame has been touched that was not there, or resumed that was not suspended. -/
  faulted : Bool

inductive CoroutinesStep (Value : Type) where
  /-- A coroutine function is called, and returns a task. -/
  | construct
  | move (task : Nat)
  /-- `~Task`. -/
  | destroy (task : Nat)
  | detach (task : Nat)
  | run (task : Nat)
  /-- The coroutine that is executed awaits the task. -/
  | await (task : Nat)
  /-- `co_spawn`. -/
  | spawn (task : Nat)
  /-- A handle that has been saved is resumed. -/
  | resume (handle : FrameHandle)
  /-- The coroutine that is executed suspends itself at a leaf. -/
  | suspend
  | coReturn (value : Value)

namespace Coroutines

variable {Value : Type} (isVoid : FrameHandle → Bool)

def initial : Coroutines Value :=
  ⟨fun _ => none, 0, fun _ => none, 0, [], [], fun _ => none, [], false⟩

def setTask (world : Coroutines Value) (task : Nat) (object : Option (Option FrameHandle)) :
    Coroutines Value :=
  { world with tasks := Function.update world.tasks task object }

/-- `handle.resume()`. A coroutine that awaits a task goes on with `await_resume`, which takes
the result out of the task's promise. -/
def enter (world : Coroutines Value) (handle : FrameHandle) : Option (Coroutines Value) := do
  let frame ← world.frames handle
  match frame.point with
  | some .unstarted | some .leaf =>
    return { world with frames := ← world.frames.setPoint handle .executing }
  | some (.awaiting task) =>
    let _ ← world.frames task
    return { world with frames := ← world.frames.setPoint handle .executing }
  | some .executing | none => none

/-- `promise().result()` in `run`. -/
def readResult (world : Coroutines Value) (handle : FrameHandle) : Option (Coroutines Value) := do
  let frame ← world.frames handle
  if isVoid handle then return world
  else return { world with returned := world.returned ++ [(handle, frame.promise.value)] }

/-- The innermost call of `resume` returns, and `run` reads the result if it has called. -/
def leave (world : Coroutines Value) : Option (Coroutines Value) :=
  match world.resumptions with
  | [] => none
  | resumption :: resumptions =>
    let world := { world with resumptions }
    match resumption.runs with
    | none => some world
    | some handle => world.readResult isVoid handle

/-- The innermost call of `resume` executes this coroutine from now on. -/
def transfer (world : Coroutines Value) (handle : FrameHandle) : Coroutines Value :=
  match world.resumptions with
  | [] => world
  | resumption :: resumptions =>
    { world with resumptions := { resumption with executing := handle } :: resumptions }

def construct (world : Coroutines Value) : Coroutines Value :=
  { world.setTask world.objects (some (some world.created)) with
    frames := world.frames.create world.created .unstarted
    created := world.created + 1
    objects := world.objects + 1 }

def move (world : Coroutines Value) (task : Nat) (object : Option FrameHandle) :
    Coroutines Value :=
  { (world.setTask task (some none)).setTask world.objects (some object) with
    objects := world.objects + 1 }

/-- The frame of a coroutine that is executed cannot be destroyed. -/
def destroy (world : Coroutines Value) (task : Nat) (object : Option FrameHandle) :
    Option (Coroutines Value) :=
  match object with
  | none => some (world.setTask task none)
  | some handle => do
    let frame ← world.frames handle
    if frame.point = some .executing then none
    else
      let frames ← world.frames.destroy handle
      return { world.setTask task none with frames }

/-- A task without a handle has no promise. -/
def detach (world : Coroutines Value) (task : Nat) (object : Option FrameHandle) :
    Option (Coroutines Value) := do
  let handle ← object
  let frames ← world.frames.detach handle
  return { world.setTask task (some none) with frames }

def run (world : Coroutines Value) (task : Nat) (object : Option FrameHandle) :
    Option (Coroutines Value) := do
  let handle ← object
  let ready ← world.frames.done handle
  if ready then world.readResult isVoid handle
  else
    let world ← world.detach task object
    let world ← world.enter handle
    return { world with resumptions := ⟨handle, some handle⟩ :: world.resumptions }

def await (world : Coroutines Value) (current : FrameHandle) (object : Option FrameHandle) :
    Option (Coroutines Value) := do
  let handle ← object
  let ready ← world.frames.done handle
  if ready then return world
  else
    let frames ← world.frames.setPoint current (.awaiting handle)
    let frames ← frames.setContinuation handle current
    let world ← { world with frames }.enter handle
    return world.transfer handle

def spawn (world : Coroutines Value) (task : Nat) (object : Option FrameHandle) :
    Option (Coroutines Value) := do
  let handle ← object
  let world ← world.detach task object
  return { world with saved := handle :: world.saved }

def resume (world : Coroutines Value) (handle : FrameHandle) : Option (Coroutines Value) := do
  let world ← { world with saved := world.saved.erase handle }.enter handle
  return { world with resumptions := ⟨handle, none⟩ :: world.resumptions }

def suspend (world : Coroutines Value) (current : FrameHandle) : Option (Coroutines Value) := do
  let frames ← world.frames.setPoint current .leaf
  { world with frames, saved := current :: world.saved }.leave isVoid

def coReturn (world : Coroutines Value) (current : FrameHandle) (value : Value) :
    Option (Coroutines Value) := do
  let (continuation, frames) ← world.frames.returnValue current value
  let world := { world with
    frames, coReturned := Function.update world.coReturned current (some value) }
  match continuation with
  | some awaiter =>
    let world ← world.enter awaiter
    return world.transfer awaiter
  | none => world.leave isVoid

/-- What the step does, if it can be taken; there is none where it faults. -/
def perform (world : Coroutines Value) (label : CoroutinesStep Value) :
    Option (Option (Coroutines Value)) :=
  match label with
  | .construct => some (some world.construct)
  | .move task => (world.tasks task).map fun object => some (world.move task object)
  | .destroy task => (world.tasks task).map (world.destroy task)
  | .detach task => (world.tasks task).map (world.detach task)
  | .run task => (world.tasks task).map (world.run isVoid task)
  | .await task => do
    let resumption ← world.resumptions.head?
    let object ← world.tasks task
    return world.await resumption.executing object
  | .spawn task => (world.tasks task).map (world.spawn task)
  | .resume handle => if handle ∈ world.saved then some (world.resume handle) else none
  | .suspend => world.resumptions.head?.map fun resumption =>
      world.suspend isVoid resumption.executing
  | .coReturn value => world.resumptions.head?.map fun resumption =>
      world.coReturn isVoid resumption.executing value

def step (world : Coroutines Value) (label : CoroutinesStep Value) : Option (Coroutines Value) :=
  if world.faulted then none
  else (world.perform isVoid label).map (·.getD { world with faulted := true })

end Coroutines

end Luce.Co
