/-
This file models the life of a connection that a timer may close at any time, and
decides when its descriptor is left alone once it is closed.

The coroutine of the connection looks whether it is closed before it calls the event
manager, and the call takes its steps after that. `Close` closes the descriptor and
leaves the socket attached; the destructor detaches a socket that is attached, closed
or not. So everything is well as long as `Close` finds the socket detached and no call
in progress. A descriptor that has been closed may come back under the same number.
-/

import Luce.Library.Transition
import Luce.Reactor.EventManager

namespace Luce

open Library.Transition

/-- What the coroutine of a connection is doing. -/
inductive ConnectionPhase where
  | running
  /-- It has found the connection open, and calls the event manager. -/
  | calling (call : OpenCall)
  | suspended (direction : Direction)
  | destroyed
deriving DecidableEq, Repr

/-- A `TcpConnection` with its socket, its event manager and its coroutine. -/
structure Lifetime where
  manager : EventManager
  socket : Socket
  isClosed : Bool
  phase : ConnectionPhase

inductive LifetimeStep where
  /-- A read or write ends in `await_ready`. -/
  | immediate (direction : Direction)
  /-- `await_suspend` of a read or write looks whether the connection is closed. -/
  | suspend (direction : Direction) (coro : Coroutine)
  /-- The call of the event manager takes its next step. -/
  | proceed
  /-- The event loop resumes the coroutine, and `await_resume` looks again. -/
  | resume
  /-- The timer calls `TcpConnection::Close`. -/
  | close
  /-- The number of the closed descriptor is given to another one, which may be
  registered. -/
  | reuse (events : Option Events)
  | shutdown
  /-- The destructors of the connection and of its socket. -/
  | destroy
deriving DecidableEq, Repr

namespace Lifetime

/-- A connection that has been accepted on this descriptor. -/
def initial (fd : Fd) : Lifetime :=
  ⟨⟨false, ⟨fun _ => true, fun _ => none, []⟩, false⟩, Socket.new fd, false, .running⟩

/-- The coroutine enters a call of the event manager, unless that is shut down. -/
def enter (life : Lifetime) (call : OpenCall) (otherwise : ConnectionPhase) : Lifetime :=
  { life with phase := if life.manager.isShutdown then otherwise else .calling call }

/-- Where the coroutine is after a step of a call: in the call, suspended by `AddRecv` or
`AddSend`, or running again after `DelRecv` or `DelSend`. -/
def afterwards : OpenCall → Option OpenCall → ConnectionPhase
  | _, some next => .calling next
  | .attach direction _, none | .store direction _ _, none | .rearm direction _ _, none =>
    .suspended direction
  | .clear _, none | .disarm _, none => .running

/-- `::close` of the descriptor. -/
def closeFd (life : Lifetime) : Lifetime :=
  { life with manager := { life.manager with
    kernel := life.manager.kernel.perform (.close life.socket.fd) } }

/-- `TcpConnection::Close`. -/
def close (life : Lifetime) : Lifetime :=
  let life := if life.isClosed then life
    else { life.closeFd with socket := { life.socket with isClosed := true } }
  { life with isClosed := true }

/-- `~TcpConnection`. -/
def release (life : Lifetime) : Lifetime :=
  if life.socket.attached then
    let (manager, socket) := life.manager.detach life.socket
    { life with manager, socket }
  else life

/-- `~TcpConnection` and then `~Socket`. -/
def destroy (life : Lifetime) : Lifetime :=
  let life := { life.release with phase := .destroyed }
  if life.manager.exited || life.socket.isClosed then life else life.closeFd

def step (life : Lifetime) (label : LifetimeStep) : Option Lifetime :=
  if life.manager.exited || life.phase = .destroyed then none
  else
    match label with
    | .immediate _ => if life.phase = .running then some life else none
    | .suspend direction coro =>
      if life.phase = .running then
        if life.isClosed then some { life with phase := .suspended direction }
        else some (life.enter (.attach direction coro) (.suspended direction))
      else none
    | .proceed =>
      match life.phase with
      | .calling call =>
        let ((manager, socket), next) := call.advance life.manager life.socket
        some { life with manager, socket, phase := afterwards call next }
      | _ => none
    | .resume =>
      match life.phase with
      | .suspended direction =>
        if life.isClosed then some { life with phase := .running }
        else some (life.enter (.clear direction) .running)
      | _ => none
    | .close => some life.close
    | .reuse events =>
      if life.manager.kernel.opened life.socket.fd then none
      else
        let kernel := { life.manager.kernel with
          opened := Function.update life.manager.kernel.opened life.socket.fd true
          interest := Function.update life.manager.kernel.interest life.socket.fd events }
        some { life with manager := { life.manager with kernel } }
    | .shutdown => some { life with manager := { life.manager with isShutdown := true } }
    | .destroy =>
      match life.phase with
      | .running | .suspended _ => some life.destroy
      | _ => none

/-- A call of `Close` that closes the descriptor finds the socket detached and the
coroutine in no call. -/
def Spares (life : Lifetime) : LifetimeStep → Prop
  | .close => life.isClosed = true ∨
      life.socket.attached = false ∧ ∀ call, life.phase ≠ .calling call
  | _ => True

end Lifetime

/-- A call of `epoll_ctl` that expects the descriptor to be registered. -/
def SystemCall.expects (fd : Fd) : SystemCall → Prop
  | .epollCtlMod other _ | .epollCtlDel other => other = fd
  | _ => False

/-- Behind the end of a descriptor there is no `EPOLL_CTL_MOD` or `EPOLL_CTL_DEL` of it. -/
def LeftAlone (fd : Fd) (calls : List SystemCall) : Prop :=
  ∀ before after, calls = before ++ .close fd :: after → ∀ call ∈ after, ¬ call.expects fd

theorem leftAlone_of_not_mem {fd : Fd} {calls : List SystemCall} (absent : .close fd ∉ calls) :
    LeftAlone fd calls := by
  rintro before after rfl
  exact absurd (List.mem_append_right before (List.mem_cons_self ..)) absent

/-- The first end of the descriptor is the last call. -/
theorem leftAlone_concat {fd : Fd} {calls : List SystemCall} (absent : .close fd ∉ calls) :
    LeftAlone fd (calls ++ [.close fd]) := by
  intro before after same
  obtain rfl | ⟨init, last, rfl⟩ := List.eq_nil_or_concat after
  · exact nofun
  · rw [List.concat_eq_append, ← List.cons_append, ← List.append_assoc] at same
    have earlier := (List.append_inj' same rfl).1
    exact absurd (earlier ▸ List.mem_append_right before (List.mem_cons_self ..)) absent

theorem not_leftAlone {fd : Fd} {call : SystemCall} (expects : call.expects fd)
    (before between : List SystemCall) :
    ¬ LeftAlone fd (before ++ .close fd :: (between ++ [call])) := fun leftAlone =>
  leftAlone before _ rfl call (List.mem_append_right between (List.mem_cons_self ..)) expects

namespace OpenCall

variable (manager : EventManager) (socket : Socket) (call : OpenCall)

/-- A step of a call of the event manager closes nothing. -/
theorem calls_advance : ∃ issued,
    (call.advance manager socket).1.1.kernel.calls = manager.kernel.calls ++ issued ∧
      ∀ fd, .close fd ∉ issued := by
  cases call with
  | attach direction coro =>
    by_cases attached : socket.attached = true
    · simp only [advance, EventManager.attachFirst, attached, if_true]
      exact ⟨[], (List.append_nil _).symm, fun _ => List.not_mem_nil⟩
    · rw [Bool.not_eq_true] at attached
      simp only [advance, EventManager.attachFirst, attached, Bool.false_eq_true, if_false]
      exact ⟨_, EventManager.calls_epollCtl _ _, by simp⟩
  | store => exact ⟨[], (List.append_nil _).symm, fun _ => List.not_mem_nil⟩
  | clear => exact ⟨[], (List.append_nil _).symm, fun _ => List.not_mem_nil⟩
  | rearm => exact ⟨_, EventManager.calls_epollCtl _ _, by simp⟩
  | disarm => exact ⟨_, EventManager.calls_epollCtl _ _, by simp⟩

theorem fd_advance : (call.advance manager socket).1.2.fd = socket.fd := by
  cases call with
  | attach =>
    simp only [advance, EventManager.attachFirst]
    split <;> rfl
  | _ => rfl

theorem isClosed_advance : (call.advance manager socket).1.2.isClosed = socket.isClosed := by
  cases call with
  | attach =>
    simp only [advance, EventManager.attachFirst]
    split <;> rfl
  | _ => rfl

end OpenCall

/-! ### What every step keeps -/

namespace Lifetime

/-- The connection has not been closed. -/
structure Open (fd : Fd) (life : Lifetime) : Prop where
  descriptor : life.socket.fd = fd
  isClosed : life.isClosed = false
  socket : life.socket.isClosed = false
  calls : .close fd ∉ life.manager.kernel.calls

/-- The connection has been closed, and nothing of it is left with the kernel. -/
structure Ended (fd : Fd) (life : Lifetime) : Prop where
  descriptor : life.socket.fd = fd
  isClosed : life.isClosed = true
  socket : life.socket.isClosed = true
  attached : life.socket.attached = false
  phase : ∀ call, life.phase ≠ .calling call
  calls : LeftAlone fd life.manager.kernel.calls

/-- The connection is open, or left alone from its end on. -/
inductive Sound (fd : Fd) (life : Lifetime) : Prop where
  | «open» (isOpen : life.Open fd)
  | ended (ended : life.Ended fd)
  | destroyed (phase : life.phase = .destroyed) (calls : LeftAlone fd life.manager.kernel.calls)

theorem Sound.leftAlone {fd : Fd} {life : Lifetime} (sound : life.Sound fd) :
    LeftAlone fd life.manager.kernel.calls := by
  cases sound with
  | «open» isOpen => exact leftAlone_of_not_mem isOpen.calls
  | ended ended => exact ended.calls
  | destroyed _ calls => exact calls

theorem Sound.initial (fd : Fd) : (Lifetime.initial fd).Sound fd :=
  .open ⟨rfl, rfl, rfl, List.not_mem_nil⟩

/-- The coroutine goes on without the kernel. -/
theorem Sound.phase {fd : Fd} {life : Lifetime} (sound : life.Sound fd)
    (alive : life.phase ≠ .destroyed) {phase : ConnectionPhase}
    (idle : life.isClosed = true → ∀ call, phase ≠ .calling call) :
    Sound fd { life with phase } := by
  cases sound with
  | «open» isOpen => exact .open ⟨isOpen.descriptor, isOpen.isClosed, isOpen.socket, isOpen.calls⟩
  | ended ended =>
    exact .ended ⟨ended.descriptor, ended.isClosed, ended.socket, ended.attached,
      idle ended.isClosed, ended.calls⟩
  | destroyed phase => exact absurd phase alive

/-- The kernel or the event manager changes without a system call. -/
theorem Sound.world {fd : Fd} {life : Lifetime} (sound : life.Sound fd) {manager : EventManager}
    (calls : manager.kernel.calls = life.manager.kernel.calls) :
    Sound fd { life with manager } := by
  cases sound with
  | «open» isOpen =>
    exact .open ⟨isOpen.descriptor, isOpen.isClosed, isOpen.socket, calls ▸ isOpen.calls⟩
  | ended ended =>
    exact .ended ⟨ended.descriptor, ended.isClosed, ended.socket, ended.attached, ended.phase,
      calls ▸ ended.calls⟩
  | destroyed phase leftAlone => exact .destroyed phase (calls ▸ leftAlone)

/-- A call of the event manager takes a step. -/
theorem Sound.proceed {fd : Fd} {life : Lifetime} (sound : life.Sound fd) {call : OpenCall}
    (calling : life.phase = .calling call) (phase : ConnectionPhase) :
    Sound fd { life with
      manager := (call.advance life.manager life.socket).1.1
      socket := (call.advance life.manager life.socket).1.2, phase } := by
  cases sound with
  | «open» isOpen =>
    obtain ⟨issued, calls, closes⟩ := call.calls_advance life.manager life.socket
    refine .open ⟨?_, isOpen.isClosed, ?_, ?_⟩
    · exact (call.fd_advance life.manager life.socket).trans isOpen.descriptor
    · exact (call.isClosed_advance life.manager life.socket).trans isOpen.socket
    · change _ ∉ (call.advance life.manager life.socket).1.1.kernel.calls
      rw [calls, List.mem_append, not_or]
      exact ⟨isOpen.calls, closes fd⟩
  | ended ended => exact absurd calling (ended.phase call)
  | destroyed phase =>
    rw [calling] at phase
    cases phase

/-- The timer closes the connection. -/
theorem Sound.close {fd : Fd} {life : Lifetime} (sound : life.Sound fd)
    (alive : life.phase ≠ .destroyed) (spares : life.Spares .close) : Sound fd life.close := by
  cases sound with
  | «open» isOpen =>
    obtain isClosed | ⟨detached, idle⟩ := spares
    · rw [isOpen.isClosed] at isClosed
      cases isClosed
    · simp only [Lifetime.close, isOpen.isClosed, Bool.false_eq_true, if_false]
      refine .ended ⟨isOpen.descriptor, rfl, rfl, detached, idle, ?_⟩
      simp only [closeFd, Kernel.calls_perform, isOpen.descriptor]
      exact leftAlone_concat isOpen.calls
  | ended ended =>
    simp only [Lifetime.close, ended.isClosed, if_true]
    exact .ended ⟨ended.descriptor, rfl, ended.socket, ended.attached, ended.phase, ended.calls⟩
  | destroyed phase => exact absurd phase alive

/-- The connection and its socket are destroyed. -/
theorem Sound.destroy {fd : Fd} {life : Lifetime} (sound : life.Sound fd)
    (alive : life.phase ≠ .destroyed) : Sound fd life.destroy := by
  cases sound with
  | «open» isOpen =>
    have released : life.release.socket.fd = fd ∧
        .close fd ∉ life.release.manager.kernel.calls := by
      unfold release
      split
      · refine ⟨isOpen.descriptor, ?_⟩
        simp only [EventManager.detach, EventManager.calls_epollCtl, List.mem_append, not_or]
        exact ⟨isOpen.calls, by simp⟩
      · exact ⟨isOpen.descriptor, isOpen.calls⟩
    simp only [Lifetime.destroy]
    split
    · exact .destroyed rfl (leftAlone_of_not_mem released.2)
    · refine .destroyed rfl ?_
      simp only [closeFd, Kernel.calls_perform, released.1]
      exact leftAlone_concat released.2
  | ended ended =>
    simp only [Lifetime.destroy, release, ended.attached, Bool.false_eq_true, if_false,
      ended.socket, Bool.or_true, if_true]
    exact .destroyed rfl ended.calls
  | destroyed phase => exact absurd phase alive

theorem Sound.step {fd : Fd} {life next : Lifetime} {label : LifetimeStep}
    (sound : life.Sound fd) (spares : life.Spares label)
    (taken : life.step label = some next) : next.Sound fd := by
  unfold Lifetime.step at taken
  split at taken
  case isTrue => cases taken
  case isFalse going =>
    have alive : life.phase ≠ .destroyed := fun destroyed =>
      going (Bool.or_eq_true_iff.mpr (.inr (decide_eq_true destroyed)))
    cases label with
    | immediate direction =>
      simp only at taken
      split at taken
      case isTrue => exact Option.some.inj taken ▸ sound
      case isFalse => cases taken
    | suspend direction coro =>
      simp only at taken
      split at taken
      case isFalse => cases taken
      case isTrue =>
        split at taken <;> cases taken
        case isTrue => exact sound.phase alive fun _ => nofun
        case isFalse isOpen => exact sound.phase alive fun isClosed => absurd isClosed isOpen
    | proceed =>
      simp only at taken
      split at taken
      case h_1 call calling => exact Option.some.inj taken ▸ sound.proceed calling _
      case h_2 => cases taken
    | resume =>
      simp only at taken
      split at taken
      case h_1 direction suspended =>
        split at taken <;> cases taken
        case isTrue => exact sound.phase alive fun _ => nofun
        case isFalse isOpen => exact sound.phase alive fun isClosed => absurd isClosed isOpen
      case h_2 => cases taken
    | close => exact Option.some.inj taken ▸ sound.close alive spares
    | reuse events =>
      simp only at taken
      split at taken <;> cases taken
      exact sound.world rfl
    | shutdown => exact Option.some.inj taken ▸ sound.world rfl
    | destroy =>
      simp only at taken
      split at taken
      case h_1 => exact Option.some.inj taken ▸ sound.destroy alive
      case h_2 => exact Option.some.inj taken ▸ sound.destroy alive
      case h_3 => cases taken

/-! ### A descriptor that is not left alone -/

/-- Some continuation does not leave the descriptor alone. -/
def Disturbs (fd : Fd) (life : Lifetime) : Prop :=
  ∃ later final, run step life later = some final ∧ ¬ LeftAlone fd final.manager.kernel.calls

theorem Disturbs.of_step {fd : Fd} {life next : Lifetime} {label : LifetimeStep}
    (taken : life.step label = some next) (disturbs : next.Disturbs fd) : life.Disturbs fd := by
  obtain ⟨later, final, reached, disturbed⟩ := disturbs
  exact ⟨label :: later, final, (run_cons step).mpr ⟨next, taken, reached⟩, disturbed⟩

/-- The descriptor has been closed, and the process goes on. -/
structure Haunted (fd : Fd) (life : Lifetime) : Prop where
  descriptor : life.socket.fd = fd
  running : life.manager.exited = false
  calls : ∃ before between, life.manager.kernel.calls = before ++ .close fd :: between

/-- Another system call that expects the descriptor to be registered. -/
theorem Haunted.disturbed {fd : Fd} {life : Lifetime} (haunted : life.Haunted fd)
    {call : SystemCall} (expects : call.expects fd) :
    ¬ LeftAlone fd (life.manager.kernel.calls ++ [call]) := by
  obtain ⟨before, between, calls⟩ := haunted.calls
  rw [calls, List.append_assoc, List.cons_append]
  exact not_leftAlone expects before between

theorem step_proceed {life : Lifetime} {call : OpenCall} (running : life.manager.exited = false)
    (calling : life.phase = .calling call) :
    life.step .proceed = some { life with
      manager := (call.advance life.manager life.socket).1.1
      socket := (call.advance life.manager life.socket).1.2
      phase := afterwards call (call.advance life.manager life.socket).2 } := by
  simp [step, running, calling]

/-- The last step of a call updates the events of the descriptor. -/
theorem Haunted.last {fd : Fd} {life : Lifetime} (haunted : life.Haunted fd) {call : OpenCall}
    (calling : life.phase = .calling call) (last : (call.advance life.manager life.socket).2 = none) :
    life.Disturbs fd := by
  refine ⟨[.proceed], _, (run_cons step).mpr ⟨_, step_proceed haunted.running calling, rfl⟩, ?_⟩
  cases call with
  | rearm direction =>
    change ¬ LeftAlone fd ((EventManager.updateEvent life.manager _ _).kernel.calls)
    rw [EventManager.updateEvent, EventManager.calls_epollCtl]
    exact haunted.disturbed haunted.descriptor
  | disarm direction =>
    change ¬ LeftAlone fd ((EventManager.updateEvent life.manager _ _).kernel.calls)
    rw [EventManager.updateEvent, EventManager.calls_epollCtl]
    exact haunted.disturbed haunted.descriptor
  | attach => cases last
  | store => cases last
  | clear => cases last

/-- The step before it stores or clears the handle. -/
theorem Haunted.store {fd : Fd} {life : Lifetime} (haunted : life.Haunted fd)
    {direction : Direction} {coro : Coroutine} {first : Bool}
    (calling : life.phase = .calling (.store direction coro first)) : life.Disturbs fd := by
  have next : Haunted fd { life with
      socket := life.socket.setCoro direction (some coro)
      phase := .calling (.rearm direction coro first) } :=
    ⟨haunted.descriptor, haunted.running, haunted.calls⟩
  exact .of_step (step_proceed haunted.running calling) (next.last rfl rfl)

theorem Haunted.clear {fd : Fd} {life : Lifetime} (haunted : life.Haunted fd)
    {direction : Direction} (calling : life.phase = .calling (.clear direction)) :
    life.Disturbs fd := by
  have next : Haunted fd { life with
      socket := life.socket.setCoro direction none, phase := .calling (.disarm direction) } :=
    ⟨haunted.descriptor, haunted.running, haunted.calls⟩
  exact .of_step (step_proceed haunted.running calling) (next.last rfl rfl)

/-- A call in progress goes on to its last step, the number of the descriptor having been
given to another one. -/
theorem Haunted.calling {fd : Fd} {life : Lifetime} (haunted : life.Haunted fd) {call : OpenCall}
    (calling : life.phase = .calling call) (opened : life.manager.kernel.opened fd = true)
    (vacant : life.manager.kernel.interest fd = none) : life.Disturbs fd := by
  cases call with
  | attach direction coro =>
    refine .of_step (step_proceed haunted.running calling) (Haunted.store ?_ rfl)
    simp only [OpenCall.advance, EventManager.attachFirst]
    split
    · exact ⟨haunted.descriptor, haunted.running, haunted.calls⟩
    · refine ⟨haunted.descriptor, ?_, ?_⟩
      · simp [EventManager.attach, EventManager.epollCtl, haunted.running, Kernel.admits,
          haunted.descriptor, opened, vacant]
      · obtain ⟨before, between, calls⟩ := haunted.calls
        refine ⟨before, between ++ [.epollCtlAdd life.socket.fd (direction.events ||| epollet)], ?_⟩
        simp [EventManager.attach, calls]
  | store => exact haunted.store calling
  | clear => exact haunted.clear calling
  | rearm => exact haunted.last calling rfl
  | disarm => exact haunted.last calling rfl

/-- The number of the descriptor comes back before a call in progress goes on. -/
theorem Haunted.reused {fd : Fd} {life : Lifetime} (haunted : life.Haunted fd) {call : OpenCall}
    (calling : life.phase = .calling call) (ended : life.manager.kernel.opened fd = false) :
    life.Disturbs fd := by
  have reuse : life.step (.reuse none) = some { life with
      manager := { life.manager with
        kernel := { life.manager.kernel with
          opened := Function.update life.manager.kernel.opened fd true
          interest := Function.update life.manager.kernel.interest fd none } } } := by
    simp [step, haunted.running, calling, haunted.descriptor, ended]
  refine .of_step reuse (@Haunted.calling fd _ ?_ call calling ?_ ?_)
  · exact ⟨haunted.descriptor, haunted.running, haunted.calls⟩
  · exact Function.update_self ..
  · exact Function.update_self ..

/-- The destructor detaches a socket that has been closed. -/
theorem Haunted.destroyed {fd : Fd} {life : Lifetime} (haunted : life.Haunted fd)
    (alive : life.phase ≠ .destroyed) (idle : ∀ call, life.phase ≠ .calling call)
    (isClosed : life.socket.isClosed = true) (attached : life.socket.attached = true) :
    life.Disturbs fd := by
  have destroy : life.step .destroy = some life.destroy := by
    unfold step
    cases phase : life.phase with
    | running => simp [haunted.running]
    | suspended => simp [haunted.running]
    | calling call => exact absurd phase (idle call)
    | destroyed => exact absurd phase alive
  have calls : life.destroy.manager.kernel.calls =
      life.manager.kernel.calls ++ [.epollCtlDel fd] := by
    simp [Lifetime.destroy, release, attached, EventManager.detach, isClosed, haunted.descriptor]
  refine .of_step destroy ⟨[], _, rfl, ?_⟩
  rw [calls]
  exact haunted.disturbed rfl

theorem opened_close (kernel : Kernel) (fd : Fd) :
    (kernel.perform (.close fd)).opened fd = false := by
  unfold Kernel.perform
  split
  case isTrue => exact Function.update_self ..
  case isFalse closed => exact Bool.not_eq_true _ ▸ closed

/-- `Close` of a connection that is open. -/
theorem close_of_open {life : Lifetime} (isOpen : life.isClosed = false) :
    life.close = { life with
      manager := { life.manager with
        kernel := life.manager.kernel.perform (.close life.socket.fd) }
      socket := { life.socket with isClosed := true }
      isClosed := true } := by
  simp [close, isOpen, closeFd]

/-- A call of `Close` that closes the descriptor of a socket that is attached, or one that
is about to be, has consequences. -/
theorem Sound.disturbs {fd : Fd} {life next : Lifetime} (sound : life.Sound fd)
    (taken : life.step .close = some next) (unspared : ¬ life.Spares .close) :
    next.Disturbs fd := by
  unfold Lifetime.step at taken
  split at taken
  case isTrue => cases taken
  case isFalse going =>
  simp only [Bool.or_eq_true, decide_eq_true_eq, not_or, Bool.not_eq_true] at going
  obtain ⟨running, alive⟩ := going
  obtain ⟨isOpen, busy⟩ := not_or.mp unspared
  rw [Bool.not_eq_true] at isOpen
  have descriptor : life.socket.fd = fd := by
    cases sound with
    | «open» isOpen => exact isOpen.descriptor
    | ended ended => exact ended.descriptor
    | destroyed phase => exact absurd phase alive
  obtain rfl : life.close = next := Option.some.inj taken
  rw [close_of_open isOpen, descriptor]
  have haunted : Haunted fd { life with
      manager := { life.manager with kernel := life.manager.kernel.perform (.close fd) }
      socket := { life.socket with isClosed := true }
      isClosed := true } :=
    ⟨descriptor, running, life.manager.kernel.calls, [], Kernel.calls_perform _ _⟩
  by_cases calling : ∃ call, life.phase = .calling call
  · obtain ⟨call, calling⟩ := calling
    exact haunted.reused calling (opened_close _ _)
  · have idle : ∀ call, life.phase ≠ .calling call := fun call called => calling ⟨call, called⟩
    have attached : life.socket.attached = true := by
      by_contra detached
      exact busy ⟨Bool.not_eq_true _ ▸ detached, idle⟩
    exact haunted.destroyed alive idle rfl attached

end Lifetime

/-- A descriptor is left alone from its end on as long as `Close` finds the socket
detached and the coroutine in no call of the event manager; a `Close` that does not is
followed by a call on the closed descriptor, in some continuation. -/
theorem descriptor_leftAlone (fd : Fd) (steps : List LifetimeStep) (final : Lifetime)
    (spares : Along Lifetime.step Lifetime.Spares (.initial fd) steps)
    (ran : run Lifetime.step (.initial fd) steps = some final) :
    LeftAlone fd final.manager.kernel.calls ∧
      ∀ next, final.step .close = some next → ¬ final.Spares .close →
        ∃ later last, run Lifetime.step next later = some last ∧
          ¬ LeftAlone fd last.manager.kernel.calls := by
  have sound : final.Sound fd := invariant_along Lifetime.step
    (fun _ _ _ sound spares taken => sound.step spares taken) (.initial fd) spares ran
  exact ⟨sound.leftAlone, fun next taken unspared => sound.disturbs taken unspared⟩

/-- The timer closes a connection that has been written to at once and has never waited, so that
its coroutine ends at its next read; the number of the descriptor comes back. -/
theorem descriptor_leftAlone_unclosed :
    ∃ final, run Lifetime.step (.initial 5)
      [.immediate .send, .close, .reuse (some epollin), .suspend .recv 7, .resume, .destroy] =
        some final ∧ LeftAlone 5 final.manager.kernel.calls :=
  ⟨_, rfl, (descriptor_leftAlone 5 [.immediate .send, .close, .reuse (some epollin),
    .suspend .recv 7, .resume, .destroy] _
    ⟨trivial, .inr ⟨rfl, nofun⟩, trivial, trivial, trivial, trivial, trivial⟩ rfl).1⟩

/-- The timer closes a connection that has waited for a read, and the destructor then
detaches it. -/
theorem descriptor_disturbed :
    ∃ final, run Lifetime.step (.initial 5)
      [.suspend .recv 7, .proceed, .proceed, .proceed, .resume, .proceed, .proceed, .close,
        .destroy] = some final ∧ ¬ LeftAlone 5 final.manager.kernel.calls :=
  ⟨_, rfl, not_leftAlone (show SystemCall.expects 5 (.epollCtlDel 5) from rfl)
    [.epollCtlAdd 5 (epollin ||| epollet), .epollCtlMod 5 (epollin ||| epollet ||| epollin),
      .epollCtlMod 5 ((epollin ||| epollet ||| epollin) &&& ~~~epollin)] []⟩

end Luce
