/-
This file models the sockets and the event manager that registers them with epoll.

The kernel knows which descriptors are open and with which events each of them is
registered; closing a descriptor ends its registration. It keeps the system calls
made so far, in order. A call that the kernel does not admit fails, and the failure
of `epoll_ctl` ends the process.

`AddRecv`, `AddSend`, `DelRecv` and `DelSend` are one function of the direction each.
Without a lock, what they do can be observed in three steps: attaching the socket,
storing or clearing its coroutine handle, and updating its events.
-/

import Mathlib.Logic.Function.Basic
import Mathlib.Data.BitVec

namespace Luce

/-! ### Events -/

/-- An epoll event mask. -/
abbrev Events := BitVec 32

def epollin : Events := 0x001
def epollout : Events := 0x004
def epollet : Events := 1 <<< 31

/-- A set of events shares an event with a mask. -/
def Events.meet (events mask : Events) : Bool := events &&& mask != 0

/-- Receiving or sending. -/
inductive Direction where
  | recv | send
deriving DecidableEq, Repr

def Direction.events : Direction → Events
  | .recv => epollin
  | .send => epollout

/-- A direction's event is a single bit. -/
def Direction.bit : Direction → Nat
  | .recv => 0
  | .send => 2

theorem Direction.events_eq (direction : Direction) :
    direction.events = BitVec.twoPow 32 direction.bit := by
  cases direction <;> rfl

theorem meet_events (events : Events) (direction : Direction) :
    events.meet direction.events = events.getLsbD direction.bit := by
  rw [Events.meet, direction.events_eq, BitVec.and_twoPow]
  cases events.getLsbD direction.bit
  · rfl
  · cases direction <;> rfl

@[simp] theorem meet_set (events : Events) (set direction : Direction) :
    (events ||| set.events).meet direction.events =
      (events.meet direction.events || decide (set = direction)) := by
  rw [meet_events, meet_events, BitVec.getLsbD_or]
  cases set <;> cases direction <;> rfl

@[simp] theorem meet_clear (events : Events) (cleared direction : Direction) :
    (events &&& ~~~cleared.events).meet direction.events =
      (events.meet direction.events && decide (cleared ≠ direction)) := by
  rw [meet_events, meet_events, BitVec.getLsbD_and]
  cases cleared <;> cases direction <;> rfl

/-- The events that a socket is attached with. -/
@[simp] theorem meet_attached (attached direction : Direction) :
    (attached.events ||| epollet).meet direction.events = decide (attached = direction) := by
  cases attached <;> cases direction <;> rfl

/-! ### The kernel -/

/-- A file descriptor. -/
abbrev Fd := Nat

inductive SystemCall where
  | epollCtlAdd (fd : Fd) (events : Events)
  | epollCtlMod (fd : Fd) (events : Events)
  | epollCtlDel (fd : Fd)
  | close (fd : Fd)
deriving DecidableEq, Repr

structure Kernel where
  opened : Fd → Bool
  interest : Fd → Option Events
  calls : List SystemCall

namespace Kernel

/-- The call does not fail with `EBADF`, `EEXIST` or `ENOENT`. -/
def admits (kernel : Kernel) : SystemCall → Bool
  | .epollCtlAdd fd _ => kernel.opened fd && (kernel.interest fd).isNone
  | .epollCtlMod fd _ => kernel.opened fd && (kernel.interest fd).isSome
  | .epollCtlDel fd => kernel.opened fd && (kernel.interest fd).isSome
  | .close fd => kernel.opened fd

/-- What a call that is admitted does. -/
def execute (kernel : Kernel) : SystemCall → Kernel
  | .epollCtlAdd fd events | .epollCtlMod fd events =>
    { kernel with interest := Function.update kernel.interest fd (some events) }
  | .epollCtlDel fd => { kernel with interest := Function.update kernel.interest fd none }
  | .close fd =>
    { kernel with
      opened := Function.update kernel.opened fd false
      interest := Function.update kernel.interest fd none }

/-- A call is made, whether it is admitted or not. -/
def perform (kernel : Kernel) (call : SystemCall) : Kernel :=
  let kernel := if kernel.admits call then kernel.execute call else kernel
  { kernel with calls := kernel.calls ++ [call] }

theorem calls_perform (kernel : Kernel) (call : SystemCall) :
    (kernel.perform call).calls = kernel.calls ++ [call] := by
  unfold perform
  split
  · cases call <;> rfl
  · rfl

end Kernel

/-! ### Sockets -/

/-- The address of a coroutine. -/
abbrev Coroutine := Nat

/-- The handles of the coroutines that wait for the socket, if not null. -/
structure Handle where
  recvCoro : Option Coroutine
  sendCoro : Option Coroutine
deriving DecidableEq, Repr

def Handle.get (handle : Handle) : Direction → Option Coroutine
  | .recv => handle.recvCoro
  | .send => handle.sendCoro

def Handle.set (handle : Handle) : Direction → Option Coroutine → Handle
  | .recv, coro => { handle with recvCoro := coro }
  | .send, coro => { handle with sendCoro := coro }

@[simp] theorem Handle.get_set (handle : Handle) (set direction : Direction)
    (coro : Option Coroutine) :
    (handle.set set coro).get direction = if set = direction then coro else handle.get direction := by
  cases set <;> cases direction <;> rfl

structure Socket where
  handle : Handle
  fd : Fd
  ioState : Events
  detached : Bool
  isClosed : Bool
deriving DecidableEq, Repr

/-- A socket of an open descriptor. -/
def Socket.new (fd : Fd) : Socket := ⟨⟨none, none⟩, fd, 0, true, false⟩

def Socket.attached (socket : Socket) : Bool := !socket.detached

/-- `SetRecvCoro` and `DelRecvCoro`, `SetSendCoro` and `DelSendCoro`. -/
def Socket.setCoro (socket : Socket) (direction : Direction) (coro : Option Coroutine) : Socket :=
  { socket with handle := socket.handle.set direction coro }

/-! ### The event manager -/

/-- An event manager with the kernel that it calls; the process exits with `LOG_FATAL`. -/
structure EventManager where
  isShutdown : Bool
  kernel : Kernel
  exited : Bool

namespace EventManager

/-- `epoll_ctl`, whose failure is fatal. -/
def epollCtl (manager : EventManager) (call : SystemCall) : EventManager :=
  { manager with
    kernel := manager.kernel.perform call
    exited := manager.exited || !manager.kernel.admits call }

@[simp] theorem calls_epollCtl (manager : EventManager) (call : SystemCall) :
    (manager.epollCtl call).kernel.calls = manager.kernel.calls ++ [call] :=
  manager.kernel.calls_perform call

def attach (manager : EventManager) (socket : Socket) (events : Events) : EventManager × Socket :=
  let socket := { socket with ioState := events, detached := false }
  (manager.epollCtl (.epollCtlAdd socket.fd events), socket)

def detach (manager : EventManager) (socket : Socket) : EventManager × Socket :=
  let socket := { socket with detached := true }
  (manager.epollCtl (.epollCtlDel socket.fd), socket)

def updateEvent (manager : EventManager) (socket : Socket) (newState : Events) : EventManager :=
  manager.epollCtl (.epollCtlMod socket.fd newState)

/-- The first step of `AddRecv` and `AddSend`. -/
def attachFirst (direction : Direction) (manager : EventManager) (socket : Socket) :
    EventManager × Socket :=
  if socket.attached then (manager, socket)
  else manager.attach socket (direction.events ||| epollet)

/-- The last step of `AddRecv` and `AddSend`. -/
def rearm (direction : Direction) (manager : EventManager) (socket : Socket) :
    EventManager × Socket :=
  let newState := socket.ioState ||| direction.events
  let socket := { socket with ioState := newState }
  (manager.updateEvent socket newState, socket)

/-- The last step of `DelRecv` and `DelSend`. -/
def disarm (direction : Direction) (manager : EventManager) (socket : Socket) :
    EventManager × Socket :=
  let newState := socket.ioState &&& ~~~direction.events
  let socket := { socket with ioState := newState }
  (manager.updateEvent socket newState, socket)

def add (direction : Direction) (coro : Coroutine) (manager : EventManager) (socket : Socket) :
    EventManager × Socket :=
  if manager.isShutdown then (manager, socket)
  else
    let (manager, socket) := attachFirst direction manager socket
    if manager.exited then (manager, socket)
    else rearm direction manager (socket.setCoro direction (some coro))

def del (direction : Direction) (manager : EventManager) (socket : Socket) :
    EventManager × Socket :=
  if manager.isShutdown then (manager, socket)
  else disarm direction manager (socket.setCoro direction none)

def addRecv : Coroutine → EventManager → Socket → EventManager × Socket := add .recv
def addSend : Coroutine → EventManager → Socket → EventManager × Socket := add .send
def delRecv : EventManager → Socket → EventManager × Socket := del .recv
def delSend : EventManager → Socket → EventManager × Socket := del .send

end EventManager

/-! ### What the kernel knows of a socket -/

/-- The descriptor is open, and registered with the socket's events while the socket is
attached. -/
structure Registered (manager : EventManager) (socket : Socket) : Prop where
  opened : manager.kernel.opened socket.fd = true
  interest : manager.kernel.interest socket.fd =
    if socket.attached then some socket.ioState else none

/-- The event of the direction is among those the socket is registered with. -/
def Socket.armed (socket : Socket) (direction : Direction) : Bool :=
  socket.attached && socket.ioState.meet direction.events

/-- The call registers the descriptor with these events. -/
structure Registers (manager : EventManager) (fd : Fd) (events : Events)
    (after : EventManager) : Prop where
  exited : after.exited = manager.exited
  isShutdown : after.isShutdown = manager.isShutdown
  opened : after.kernel.opened = manager.kernel.opened
  interest : after.kernel.interest = Function.update manager.kernel.interest fd (some events)

theorem registers_add {manager : EventManager} {socket : Socket}
    (registered : Registered manager socket) (detached : socket.attached = false)
    (events : Events) :
    Registers manager socket.fd events
      (manager.epollCtl (.epollCtlAdd socket.fd events)) := by
  have admitted : manager.kernel.admits (.epollCtlAdd socket.fd events) = true := by
    rw [Kernel.admits, registered.opened, registered.interest, detached]
    rfl
  constructor <;> simp only [EventManager.epollCtl, Kernel.perform, admitted, if_true,
    Kernel.execute, Bool.not_true, Bool.or_false]

theorem registers_mod {manager : EventManager} {socket : Socket}
    (registered : Registered manager socket) (attached : socket.attached = true)
    (events : Events) :
    Registers manager socket.fd events
      (manager.epollCtl (.epollCtlMod socket.fd events)) := by
  have admitted : manager.kernel.admits (.epollCtlMod socket.fd events) = true := by
    rw [Kernel.admits, registered.opened, registered.interest, attached]
    rfl
  constructor <;> simp only [EventManager.epollCtl, Kernel.perform, admitted, if_true,
    Kernel.execute, Bool.not_true, Bool.or_false]

/-! ### Calls in progress -/

/-- Where a call of `AddRecv` or `AddSend`, or of `DelRecv` or `DelSend`, goes on. A call
that has attached the socket itself is its first one. -/
inductive OpenCall where
  | attach (direction : Direction) (coro : Coroutine)
  | store (direction : Direction) (coro : Coroutine) (first : Bool)
  | rearm (direction : Direction) (coro : Coroutine) (first : Bool)
  | clear (direction : Direction)
  | disarm (direction : Direction)
deriving DecidableEq, Repr

namespace OpenCall

/-- The next step of a call. -/
def advance (manager : EventManager) (socket : Socket) :
    OpenCall → (EventManager × Socket) × Option OpenCall
  | .attach direction coro =>
    (EventManager.attachFirst direction manager socket,
      some (.store direction coro (!socket.attached)))
  | .store direction coro first =>
    ((manager, socket.setCoro direction (some coro)), some (.rearm direction coro first))
  | .rearm direction _ _ => (EventManager.rearm direction manager socket, none)
  | .clear direction => ((manager, socket.setCoro direction none), some (.disarm direction))
  | .disarm direction => (EventManager.disarm direction manager socket, none)

/-- The steps of a call one after the other, until it returns or the process exits. -/
def finish : Nat → EventManager × Socket → Option OpenCall → EventManager × Socket
  | 0, world, _ => world
  | _, world, none => world
  | steps + 1, world, some call =>
    if world.1.exited then world
    else finish steps (call.advance world.1 world.2).1 (call.advance world.1 world.2).2

end OpenCall

/-- `AddRecv` and `AddSend` are their steps. -/
theorem EventManager.add_eq_finish {manager : EventManager} (running : manager.exited = false)
    (up : manager.isShutdown = false) (direction : Direction) (coro : Coroutine)
    (socket : Socket) :
    EventManager.add direction coro manager socket =
      OpenCall.finish 3 (manager, socket) (some (.attach direction coro)) := by
  simp only [EventManager.add, up, OpenCall.finish, running, OpenCall.advance]
  cases exited : (EventManager.attachFirst direction manager socket).1.exited <;> rfl

/-- `DelRecv` and `DelSend` are their steps. -/
theorem EventManager.del_eq_finish {manager : EventManager} (running : manager.exited = false)
    (up : manager.isShutdown = false) (direction : Direction) (socket : Socket) :
    EventManager.del direction manager socket =
      OpenCall.finish 2 (manager, socket) (some (.clear direction)) := by
  simp only [EventManager.del, up, OpenCall.finish, running, OpenCall.advance]
  rfl

/-- The direction that a call is about. -/
def OpenCall.direction : OpenCall → Direction
  | .attach direction _ | .store direction _ _ | .rearm direction _ _ | .clear direction
  | .disarm direction => direction

/-- Every step but the first of `AddRecv` and `AddSend` is about a socket that has been
attached. -/
def OpenCall.Attached (socket : Socket) : OpenCall → Prop
  | .attach _ _ => True
  | _ => socket.attached = true

/-- What a step of a call leaves as it was, and what the kernel knows behind it. -/
structure Advanced (manager : EventManager) (socket : Socket) (direction : Direction)
    (after : EventManager) (moved : Socket) : Prop where
  exited : after.exited = manager.exited
  isShutdown : after.isShutdown = manager.isShutdown
  opened : after.kernel.opened = manager.kernel.opened
  others : ∀ fd, fd ≠ socket.fd → after.kernel.interest fd = manager.kernel.interest fd
  fd : moved.fd = socket.fd
  registered : Registered after moved
  attached : socket.attached = true → moved.attached = true
  handle : ∀ other, other ≠ direction → moved.handle.get other = socket.handle.get other
  armed : ∀ other, other ≠ direction → moved.armed other = socket.armed other

theorem Registers.advanced {manager after : EventManager} {socket moved : Socket}
    {direction : Direction} (registers : Registers manager socket.fd moved.ioState after)
    (registered : Registered manager socket) (fd : moved.fd = socket.fd)
    (attached : moved.attached = true) (handle : moved.handle = socket.handle)
    (armed : ∀ other, other ≠ direction → moved.armed other = socket.armed other) :
    Advanced manager socket direction after moved where
  exited := registers.exited
  isShutdown := registers.isShutdown
  opened := registers.opened
  others other distinct := by rw [registers.interest, Function.update_of_ne distinct]
  fd := fd
  registered := by
    refine ⟨?_, ?_⟩
    · rw [registers.opened, fd]
      exact registered.opened
    · rw [registers.interest, fd, Function.update_self, if_pos attached]
  attached _ := attached
  handle other _ := by rw [handle]
  armed := armed

/-- A step that stores or clears the handle does not call the kernel. -/
theorem advanced_setCoro {manager : EventManager} {socket : Socket}
    (registered : Registered manager socket) (direction : Direction) (coro : Option Coroutine) :
    Advanced manager socket direction manager (socket.setCoro direction coro) where
  exited := rfl
  isShutdown := rfl
  opened := rfl
  others _ _ := rfl
  fd := rfl
  registered := ⟨registered.opened, registered.interest⟩
  attached := id
  handle other distinct := by
    rw [Socket.setCoro, Handle.get_set, if_neg distinct.symm]
  armed _ _ := rfl

theorem OpenCall.advanced {manager : EventManager} {socket : Socket}
    (registered : Registered manager socket) {call : OpenCall} (attached : call.Attached socket) :
    Advanced manager socket call.direction (call.advance manager socket).1.1
      (call.advance manager socket).1.2 := by
  cases call with
  | attach direction coro =>
    by_cases before : socket.attached = true
    · simp only [OpenCall.advance, EventManager.attachFirst, before, if_true]
      exact ⟨rfl, rfl, rfl, fun _ _ => rfl, rfl, registered, id, fun _ _ => rfl, fun _ _ => rfl⟩
    · rw [Bool.not_eq_true] at before
      simp only [OpenCall.advance, EventManager.attachFirst, before, Bool.false_eq_true, if_false]
      refine Registers.advanced (registers_add registered before _) registered ?_ ?_ ?_ ?_
      · rfl
      · rfl
      · rfl
      · intro other distinct
        change (direction.events ||| epollet).meet other.events = socket.armed other
        have apart : direction ≠ other := distinct.symm
        rw [Socket.armed, before, meet_attached, decide_eq_false apart]
        rfl
  | store direction coro first => exact advanced_setCoro registered direction _
  | rearm direction coro first =>
    refine Registers.advanced (registers_mod registered attached _) registered ?_ ?_ ?_ ?_
    · rfl
    · exact attached
    · rfl
    · intro other distinct
      change (socket.attached && (socket.ioState ||| direction.events).meet other.events) =
        (socket.attached && socket.ioState.meet other.events)
      have apart : direction ≠ other := distinct.symm
      rw [meet_set, decide_eq_false apart, Bool.or_false]
  | clear direction => exact advanced_setCoro registered direction _
  | disarm direction =>
    refine Registers.advanced (registers_mod registered attached _) registered ?_ ?_ ?_ ?_
    · rfl
    · exact attached
    · rfl
    · intro other distinct
      change (socket.attached && (socket.ioState &&& ~~~direction.events).meet other.events) =
        (socket.attached && socket.ioState.meet other.events)
      have apart : direction ≠ other := distinct.symm
      rw [meet_clear, decide_eq_true apart, Bool.and_true]

end Luce
