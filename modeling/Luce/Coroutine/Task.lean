/-
This file models the frames of `Task` coroutines, and a machine that executes them.

A frame holds the promise and the point where the coroutine is suspended. The functions of
the promise and of the awaiters touch the frame of a handle, which has to be there. The
machine has no stack: one coroutine is executed, and when it is suspended, `await_suspend`
says which one is executed instead. An awaiter at a leaf saves the handle of the coroutine
that it suspends, and control goes back to whoever has resumed the outermost one.
-/

import Luce.Library.Procedure
import Mathlib.Logic.Function.Basic

namespace Luce.Co

open Library.Procedure (Body Event Label)

/-- A `std::coroutine_handle` that is not null. -/
abbrev FrameHandle := Nat

/-! ### Frames -/

structure Promise (Value : Type) where
  /-- `value_`, once it is set. -/
  value : Option Value
  /-- `continuation_`, or none for the coroutine that does nothing. -/
  continuation : Option FrameHandle
  isDetached : Bool
deriving DecidableEq, Repr

/-- A frame is suspended at some point, or done. -/
structure Frame (Point Value : Type) where
  promise : Promise Value
  point : Option Point
deriving DecidableEq, Repr

/-- The frames that have been created and not yet destroyed. -/
abbrev Frames (Point Value : Type) := FrameHandle → Option (Frame Point Value)

namespace Frames

variable {Point Value : Type}

/-- `get_return_object`, with the coroutine suspended at `initial_suspend`. -/
def create (frames : Frames Point Value) (handle : FrameHandle) (point : Point) :
    Frames Point Value :=
  Function.update frames handle (some ⟨⟨none, none, false⟩, some point⟩)

def destroy (frames : Frames Point Value) (handle : FrameHandle) :
    Option (Frames Point Value) := do
  let _ ← frames handle
  return Function.update frames handle none

def done (frames : Frames Point Value) (handle : FrameHandle) : Option Bool := do
  let frame ← frames handle
  return frame.point.isNone

def setPoint (frames : Frames Point Value) (handle : FrameHandle) (point : Point) :
    Option (Frames Point Value) := do
  let frame ← frames handle
  return Function.update frames handle (some { frame with point := some point })

def detach (frames : Frames Point Value) (handle : FrameHandle) : Option (Frames Point Value) := do
  let frame ← frames handle
  return Function.update frames handle
    (some { frame with promise := { frame.promise with isDetached := true } })

def setContinuation (frames : Frames Point Value) (handle continuation : FrameHandle) :
    Option (Frames Point Value) := do
  let frame ← frames handle
  return Function.update frames handle
    (some { frame with promise := { frame.promise with continuation := some continuation } })

/-- `promise().result()`. -/
def result (frames : Frames Point Value) (handle : FrameHandle) : Option Value := do
  let frame ← frames handle
  frame.promise.value

/-- `return_value`, and then `final_suspend`: the coroutine is done, and is destroyed if it is
detached. The one that is executed next has been read before. -/
def returnValue (frames : Frames Point Value) (handle : FrameHandle) (value : Value) :
    Option (Option FrameHandle × Frames Point Value) := do
  let frame ← frames handle
  let promise := { frame.promise with value := some value }
  let frames : Frames Point Value := Function.update frames handle (some ⟨promise, none⟩)
  let frames ← if promise.isDetached then frames.destroy handle else some frames
  return (promise.continuation, frames)

end Frames

/-! ### The machine -/

/-- Where a coroutine is suspended. -/
inductive SuspendPoint (Effect Answer Value : Type) where
  /-- Before this part of its body. -/
  | before (body : Body Effect Answer Value)
  /-- In an awaiter that takes an answer from outside. -/
  | leaf (rest : Answer → Body Effect Answer Value)
  /-- In the awaiter of a task. -/
  | awaiting (handle : FrameHandle) (rest : Value → Body Effect Answer Value)

structure TaskMachine (Effect Answer Value : Type) where
  frames : Frames (SuspendPoint Effect Answer Value) Value
  /-- How many frames have been created; the next handle. -/
  created : FrameHandle
  /-- The coroutine that is executed, unless control is outside. -/
  running : Option FrameHandle
  /-- The handle that the awaiter at the leaf has saved. -/
  saved : Option FrameHandle
  trace : List (Event Effect Value)

namespace TaskMachine

variable {Effect Answer Value : Type}

/-- The outermost coroutine is resumed for the first time. -/
def initial (body : Body Effect Answer Value) (isDetached : Bool) :
    TaskMachine Effect Answer Value where
  frames := Function.update (fun _ => none) 0 (some ⟨⟨none, none, isDetached⟩, some (.before body)⟩)
  created := 1
  running := some 0
  saved := none
  trace := [.started 0]

/-- `co_await` of a new task: the coroutine is suspended, the task gets it as its
continuation and is executed, unless it is done. -/
def await (machine : TaskMachine Effect Answer Value) (handle : FrameHandle)
    (body : Body Effect Answer Value) (rest : Value → Body Effect Answer Value) :
    Option (TaskMachine Effect Answer Value) := do
  let task := machine.created
  let frames := machine.frames.create task (.before body)
  let ready ← frames.done task
  let frames ← frames.setPoint handle (.awaiting task rest)
  if ready then return { machine with frames, created := task + 1 }
  else
    let frames ← frames.setContinuation task handle
    return { machine with
      frames
      created := task + 1
      running := some task
      trace := machine.trace ++ [.started task] }

/-- `await_resume`, after which the task goes out of scope. -/
def resumeAwait (machine : TaskMachine Effect Answer Value) (handle task : FrameHandle)
    (rest : Value → Body Effect Answer Value) : Option (TaskMachine Effect Answer Value) := do
  let value ← machine.frames.result task
  let frames ← machine.frames.destroy task
  let frames ← frames.setPoint handle (.before (rest value))
  return { machine with frames, trace := machine.trace ++ [.continued handle task value] }

/-- The coroutine that is executed goes on. -/
def proceed (machine : TaskMachine Effect Answer Value) :
    Option (TaskMachine Effect Answer Value) := do
  let handle ← machine.running
  let frame ← machine.frames handle
  match frame.point with
  | some (.before (.perform effect rest)) =>
    let frames ← machine.frames.setPoint handle (.before rest)
    return { machine with frames, trace := machine.trace ++ [.performed handle effect] }
  | some (.before (.ask rest)) =>
    let frames ← machine.frames.setPoint handle (.leaf rest)
    return { machine with frames, running := none, saved := some handle }
  | some (.before (.call body rest)) => machine.await handle body rest
  | some (.before (.ret value)) =>
    let (continuation, frames) ← machine.frames.returnValue handle value
    return { machine with
      frames, running := continuation, trace := machine.trace ++ [.finished handle value] }
  | some (.awaiting task rest) => machine.resumeAwait handle task rest
  | some (.leaf _) | none => none

/-- The coroutine at the leaf is resumed through the handle that has been saved. -/
def answer (machine : TaskMachine Effect Answer Value) (given : Answer) :
    Option (TaskMachine Effect Answer Value) := do
  let handle ← machine.saved
  let frame ← machine.frames handle
  match machine.running, frame.point with
  | none, some (.leaf rest) =>
    let frames ← machine.frames.setPoint handle (.before (rest given))
    return { machine with frames, running := some handle, saved := none }
  | _, _ => none

def step (machine : TaskMachine Effect Answer Value) : Label Answer →
    Option (TaskMachine Effect Answer Value)
  | .proceed => machine.proceed
  | .answer given => machine.answer given

end TaskMachine

end Luce.Co
