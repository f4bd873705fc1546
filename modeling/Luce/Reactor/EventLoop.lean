/-
This file models the event loop with the connections whose coroutines it resumes, and with
the ready list of epoll.

A coroutine tries to read or to write, and waits only if there was nothing to read or no
room to write. `epoll_ctl` puts a descriptor on the ready list if what it registers is
there, and so does whatever comes later; `epoll_wait` takes descriptors from the list, and
reports what is there by then. The coroutine of a connection starts on a thread of its own,
and runs on the thread of the loop once it has waited. How many bytes can be read, or how
much room there is, is all that is told of the stream.

The manager is not shut down here, the number of a descriptor that has been closed does not
come back, and a connection is left as it is when its coroutine has ended: its destructor, which
detaches the socket, belongs to `Luce.Reactor.Lifetime`.
-/

import Luce.Library.Transition
import Luce.Reactor.Dispatch

namespace Luce

open Library.Transition

/-- What the coroutine of a connection is doing. -/
inductive CoroPhase where
  /-- It awaits nothing. -/
  | running
  /-- `await_ready` is about to read or to write. -/
  | asking (direction : Direction)
  /-- `await_ready` has found nothing. -/
  | suspending (direction : Direction)
  /-- `await_suspend` is in `AddRecv` or `AddSend`. -/
  | adding (call : OpenCall)
  | waiting (direction : Direction)
  /-- `await_resume` is in `DelRecv` or `DelSend`. -/
  | deleting (call : OpenCall)
  /-- `await_resume` is about to read or to write. -/
  | retrying (direction : Direction)
  | ended
deriving DecidableEq, Repr

/-- The coroutine does not run until it is resumed. -/
def CoroPhase.stops : CoroPhase → Bool
  | .waiting _ | .ended => true
  | .running | .asking _ | .suspending _ | .adding _ | .deleting _ | .retrying _ => false

/-- A `TcpConnection` with its socket, its coroutine and what its peer has done. -/
structure Connection where
  socket : Socket
  phase : CoroPhase
  /-- How many bytes can be read, or how many there is room for. -/
  supply : Direction → Nat
  /-- There will be no more of them, and whoever tries is told so. -/
  hungUp : Direction → Bool
  isClosed : Bool

namespace Connection

/-- A connection that has been accepted on this descriptor. -/
def new (fd : Fd) : Connection := ⟨.new fd, .running, fun _ => 0, fun _ => false, false⟩

/-- A call of `::read` or `::write` does not fail with `EAGAIN`. -/
def ready (conn : Connection) (direction : Direction) : Bool :=
  decide (0 < conn.supply direction) || conn.hungUp direction

/-- `::read` or `::write` of so many bytes, or else the end, or `EAGAIN`. -/
def move (conn : Connection) (direction : Direction) (count : Nat) (otherwise : CoroPhase) :
    Option Connection :=
  if 0 < conn.supply direction then
    if 0 < count ∧ count ≤ conn.supply direction then
      some { conn with
        phase := .running
        supply := Function.update conn.supply direction (conn.supply direction - count) }
    else none
  else some { conn with phase := if conn.hungUp direction then .running else otherwise }

end Connection

/-- The loop and its connections. -/
structure EventLoop where
  manager : EventManager
  connections : Fd → Connection
  /-- The ready list of epoll. -/
  listed : List Fd
  /-- What `epoll_wait` has reported, and the direction that is resumed for it. -/
  batch : List (Fd × Direction)
  /-- The connection whose coroutine runs on the loop's thread. -/
  current : Option Fd
  /-- The loop has resumed a handle behind which no coroutine waits. -/
  overtaken : Bool

inductive LoopStep where
  /-- The coroutine awaits a read or a write. -/
  | ask (fd : Fd) (direction : Direction)
  /-- `await_ready`, with how many bytes it moves. -/
  | attempt (fd : Fd) (count : Nat)
  /-- `await_suspend` looks whether the connection is closed. -/
  | suspend (fd : Fd) (coro : Coroutine)
  /-- The call of the event manager takes its next step. -/
  | proceed (fd : Fd)
  /-- The end of `await_resume`, with how many bytes it moves. -/
  | retry (fd : Fd) (count : Nat)
  | finish (fd : Fd)
  /-- `epoll_wait` goes through so many of the listed descriptors. -/
  | fetch (count : Nat)
  /-- The loop resumes a coroutine for the next event. -/
  | dispatch
  /-- Bytes can be read that could not, or there is room that was not. -/
  | supply (fd : Fd) (direction : Direction) (count : Nat)
  | hangUp (fd : Fd) (direction : Direction)
  /-- A timer calls `TcpConnection::Close`. -/
  | close (fd : Fd)
deriving DecidableEq, Repr

/-- The steps that go on by themselves, once a coroutine awaits something. -/
def LoopStep.Own : LoopStep → Prop
  | .attempt .. | .suspend .. | .proceed _ | .retry .. | .fetch _ | .dispatch => True
  | .ask .. | .finish _ | .supply .. | .hangUp .. | .close _ => False

/-- The step of a call changes what the descriptor is registered with. -/
def OpenCall.registers (socket : Socket) : OpenCall → Bool
  | .attach _ _ => !socket.attached
  | .rearm _ _ _ | .disarm _ => true
  | .store _ _ _ | .clear _ => false

namespace EventLoop

def initial : EventLoop :=
  ⟨⟨false, ⟨fun _ => true, fun _ => none, []⟩, false⟩, Connection.new, [], [], none, false⟩

def setConnection (loop : EventLoop) (fd : Fd) (conn : Connection) : EventLoop :=
  { loop with connections := Function.update loop.connections fd conn }

def setPhase (loop : EventLoop) (fd : Fd) (phase : CoroPhase) : EventLoop :=
  loop.setConnection fd { loop.connections fd with phase }

/-- The loop goes on if the coroutine it has resumed has stopped. -/
def handBack (loop : EventLoop) (fd : Fd) : EventLoop :=
  { loop with
    current := if loop.current = some fd && (loop.connections fd).phase.stops then none
      else loop.current }

/-! ### epoll -/

/-- The descriptor is registered for the direction. -/
def armed (loop : EventLoop) (fd : Fd) (direction : Direction) : Bool :=
  (loop.manager.kernel.interest fd).any (·.meet direction.events)

/-- The event of the direction, if it is registered and there. -/
def event (loop : EventLoop) (fd : Fd) (direction : Direction) : Events :=
  if loop.armed fd direction && (loop.connections fd).ready direction then direction.events else 0

/-- Which handle the loop resumes for the events that are there. -/
def reports (loop : EventLoop) (fd : Fd) : Option Direction :=
  selected (loop.event fd .recv ||| loop.event fd .send)

/-- The descriptor is on the ready list, at its end if it was not. -/
def enlist (loop : EventLoop) (fd : Fd) : EventLoop :=
  { loop with listed := if fd ∈ loop.listed then loop.listed else loop.listed ++ [fd] }

/-- What `epoll_ctl` does about a descriptor that it has registered. -/
def recheck (loop : EventLoop) (fd : Fd) : EventLoop :=
  if (loop.reports fd).isSome then loop.enlist fd else loop

/-- What epoll does when the descriptor becomes ready. -/
def signal (loop : EventLoop) (fd : Fd) (direction : Direction) : EventLoop :=
  if loop.armed fd direction then loop.enlist fd else loop

/-- `epoll_wait` takes descriptors from the ready list, and leaves those on it that it has
reported and that are not edge-triggered. -/
def fetch (loop : EventLoop) (count : Nat) : EventLoop :=
  let level fd :=
    (loop.reports fd).isSome && !(loop.manager.kernel.interest fd).any (·.meet epollet)
  { loop with
    batch := (loop.listed.take count).filterMap fun fd => (loop.reports fd).map (fd, ·)
    listed := loop.listed.drop count ++ (loop.listed.take count).filter level }

/-! ### Steps -/

/-- A call of the event manager takes its next step, and the coroutine is in this phase
behind it. -/
def advance (loop : EventLoop) (fd : Fd) (call : OpenCall) (phase : Option OpenCall → CoroPhase) :
    EventLoop :=
  let conn := loop.connections fd
  let ((manager, socket), next) := call.advance loop.manager conn.socket
  let after := { loop with manager }.setConnection fd { conn with socket, phase := phase next }
  (if call.registers conn.socket then after.recheck fd else after).handBack fd

/-- `resume()` of the handle; the coroutine looks whether the connection is closed. -/
def resume (loop : EventLoop) (fd : Fd) (direction : Direction) : EventLoop :=
  let conn := loop.connections fd
  match conn.phase, conn.socket.handle.get direction with
  | .waiting awaited, some _ =>
    { loop with current := some fd }.setPhase fd
      (if conn.isClosed then .running else .deleting (.clear awaited))
  | _, _ => { loop with overtaken := true }

/-- `TcpConnection::Close`; a descriptor that is closed leaves the ready list. -/
def close (loop : EventLoop) (fd : Fd) : EventLoop :=
  let conn := loop.connections fd
  if conn.isClosed then loop
  else
    let kernel := loop.manager.kernel.perform (.close conn.socket.fd)
    { loop with
      manager := { loop.manager with kernel }
      listed := loop.listed.erase conn.socket.fd }.setConnection fd
        { conn with socket := { conn.socket with isClosed := true }, isClosed := true }

def step (loop : EventLoop) (label : LoopStep) : Option EventLoop :=
  if loop.manager.exited || loop.overtaken then none
  else
    match label with
    | .ask fd direction =>
      if (loop.connections fd).phase = .running then some (loop.setPhase fd (.asking direction))
      else none
    | .attempt fd count =>
      match (loop.connections fd).phase with
      | .asking direction =>
        if (loop.connections fd).isClosed then some (loop.setPhase fd .running)
        else
          ((loop.connections fd).move direction count (.suspending direction)).map
            (loop.setConnection fd)
      | _ => none
    | .suspend fd coro =>
      match (loop.connections fd).phase with
      | .suspending direction =>
        if (loop.connections fd).isClosed then
          some ((loop.setPhase fd (.waiting direction)).handBack fd)
        else some (loop.setPhase fd (.adding (.attach direction coro)))
      | _ => none
    | .proceed fd =>
      match (loop.connections fd).phase with
      | .adding call =>
        some (loop.advance fd call (·.elim (.waiting call.direction) .adding))
      | .deleting call => some (loop.advance fd call (·.elim (.retrying call.direction) .deleting))
      | _ => none
    | .retry fd count =>
      match (loop.connections fd).phase with
      | .retrying direction =>
        if (loop.connections fd).isClosed then some (loop.setPhase fd .running)
        else
          ((loop.connections fd).move direction count (.asking direction)).map
            (loop.setConnection fd)
      | _ => none
    | .finish fd =>
      if (loop.connections fd).phase = .running then some ((loop.setPhase fd .ended).handBack fd)
      else none
    | .fetch count =>
      if loop.current = none ∧ loop.batch = [] ∧ 0 < count ∧ loop.listed ≠ [] then
        some (loop.fetch count)
      else none
    | .dispatch =>
      match loop.current, loop.batch with
      | none, (fd, direction) :: batch => some ({ loop with batch }.resume fd direction)
      | _, _ => none
    | .supply fd direction count =>
      let conn := loop.connections fd
      if 0 < count then
        some ((loop.setConnection fd
          { conn with
            supply := Function.update conn.supply direction (conn.supply direction + count) }
          ).signal fd direction)
      else none
    | .hangUp fd direction =>
      let conn := loop.connections fd
      some ((loop.setConnection fd
        { conn with hungUp := Function.update conn.hungUp direction true }).signal fd direction)
    | .close fd => some (loop.close fd)

end EventLoop

end Luce
