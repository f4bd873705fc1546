/-
This file models the loop that accepts connections and decides when it only updates
the events of a socket that is registered.

`await_resume` of `AcceptAwaiter` calls `DelRecv` whether or not the attempt to accept
has been suspended, but only `AddRecv`, for an attempt that is suspended, attaches the
listening socket. So everything is well as long as the first attempt is suspended.
-/

import Luce.Library.Transition
import Luce.Reactor.EventManager

namespace Luce

open Library.Transition

/-- `AcceptLoop` is between two attempts, suspended in one, or at its end. -/
inductive AcceptPhase where
  | looping | suspended | left
deriving DecidableEq, Repr

/-- The server's loop with its main reactor and the socket of its acceptor. -/
structure AcceptLoop where
  manager : EventManager
  socket : Socket
  isShutdown : Bool
  phase : AcceptPhase

inductive AcceptStep where
  /-- `accept4` succeeds in `await_ready`. -/
  | ready
  /-- `accept4` fails in `await_ready`, and the coroutine is suspended. -/
  | suspend (coro : Coroutine)
  /-- The event loop resumes the coroutine; `accept4` may fail again. -/
  | resume
  /-- The loop finds that the server is shut down. -/
  | leave
  /-- `TcpServer::Shutdown`, and then its call of `EventManager::Shutdown`. -/
  | shutdownServer
  | shutdownReactor
deriving DecidableEq, Repr

namespace AcceptLoop

/-- A server that listens, with a reactor that nothing is registered with. -/
def initial (fd : Fd) : AcceptLoop :=
  ⟨⟨false, ⟨fun _ => true, fun _ => none, []⟩, false⟩, Socket.new fd, false, .looping⟩

/-- The loop after an awaiter has called the event manager. -/
def enter (loop : AcceptLoop) (phase : AcceptPhase) (world : EventManager × Socket) : AcceptLoop :=
  { loop with manager := world.1, socket := world.2, phase }

/-- The socket is registered for receiving with a coroutine to resume. -/
def awaited (loop : AcceptLoop) : Bool :=
  (loop.manager.kernel.interest loop.socket.fd).any (·.meet epollin) &&
    loop.socket.handle.recvCoro.isSome

def step (loop : AcceptLoop) : AcceptStep → Option AcceptLoop
  | .ready =>
    if !loop.manager.exited && loop.phase = .looping && !loop.isShutdown then
      some (loop.enter .looping (EventManager.delRecv loop.manager loop.socket))
    else none
  | .suspend coro =>
    if !loop.manager.exited && loop.phase = .looping && !loop.isShutdown then
      some (loop.enter .suspended (EventManager.addRecv coro loop.manager loop.socket))
    else none
  | .resume =>
    if !loop.manager.exited && loop.phase = .suspended && loop.awaited then
      some (loop.enter .looping (EventManager.delRecv loop.manager loop.socket))
    else none
  | .leave =>
    if !loop.manager.exited && loop.phase = .looping && loop.isShutdown then
      some { loop with phase := .left }
    else none
  | .shutdownServer => if !loop.manager.exited then some { loop with isShutdown := true } else none
  | .shutdownReactor =>
    if !loop.manager.exited && loop.isShutdown then
      some { loop with manager := { loop.manager with isShutdown := true } }
    else none

end AcceptLoop

/-- Whatever has its events updated has been added before. -/
def ModsRegistered (calls : List SystemCall) : Prop :=
  ∀ before fd events after, calls = before ++ .epollCtlMod fd events :: after →
    ∃ added, .epollCtlAdd fd added ∈ before

/-- No attempt succeeds at once before one has been suspended, unless the reactor has
been shut down by then. -/
def SuspendsFirst : List AcceptStep → Prop
  | [] => True
  | .ready :: _ => False
  | .suspend _ :: _ => True
  | .shutdownReactor :: _ => True
  | _ :: steps => SuspendsFirst steps

/-! ### The calls that have been made -/

theorem modsRegistered_nil : ModsRegistered [] := by
  intro before fd events after split
  cases before <;> cases split

/-- One more call keeps what has been updated registered, if the call does. -/
theorem ModsRegistered.concat {calls : List SystemCall} (registered : ModsRegistered calls)
    {call : SystemCall}
    (last : ∀ fd events, call = .epollCtlMod fd events → ∃ added, .epollCtlAdd fd added ∈ calls) :
    ModsRegistered (calls ++ [call]) := by
  intro before fd events after split
  rcases List.eq_nil_or_concat after with rfl | ⟨init, other, rfl⟩
  · obtain ⟨rfl, same⟩ := List.append_inj' split rfl
    exact last fd events (List.head_eq_of_cons_eq same)
  · rw [List.concat_eq_append, ← List.cons_append, ← List.append_assoc] at split
    exact registered before fd events init (List.append_inj' split rfl).1

namespace AcceptLoop

/-- The listening socket has been added, and so is whatever is updated. -/
structure Settled (loop : AcceptLoop) : Prop where
  attached : loop.socket.attached = true
  added : ∃ events, .epollCtlAdd loop.socket.fd events ∈ loop.manager.kernel.calls
  registered : ModsRegistered loop.manager.kernel.calls

/-- Nothing has been done with the listening socket. -/
structure Fresh (loop : AcceptLoop) : Prop where
  detached : loop.socket.attached = false
  unknown : loop.manager.kernel.interest loop.socket.fd = none
  opened : loop.manager.kernel.opened loop.socket.fd = true
  running : loop.manager.exited = false
  up : loop.manager.isShutdown = false
  silent : loop.manager.kernel.calls = []
  phase : loop.phase ≠ .suspended

theorem Settled.update {loop : AcceptLoop} (settled : loop.Settled) {socket : Socket}
    (same : socket.fd = loop.socket.fd) (attached : socket.attached = true) (phase : AcceptPhase)
    (newState : Events) :
    (loop.enter phase (loop.manager.updateEvent socket newState, socket)).Settled := by
  obtain ⟨events, member⟩ := settled.added
  rw [← same] at member
  refine ⟨attached, ⟨events, ?_⟩, ?_⟩
  · exact EventManager.calls_epollCtl _ _ ▸ List.mem_append_left _ member
  · refine EventManager.calls_epollCtl loop.manager _ ▸ settled.registered.concat ?_
    rintro fd updated ⟨⟩
    exact ⟨events, member⟩

theorem Settled.delRecv {loop : AcceptLoop} (settled : loop.Settled) (phase : AcceptPhase) :
    (loop.enter phase (EventManager.delRecv loop.manager loop.socket)).Settled := by
  simp only [EventManager.delRecv, EventManager.del, EventManager.disarm]
  split
  · exact ⟨settled.attached, settled.added, settled.registered⟩
  · refine settled.update ?_ ?_ phase _
    · rfl
    · exact settled.attached

theorem Settled.addRecv {loop : AcceptLoop} (settled : loop.Settled) (phase : AcceptPhase)
    (coro : Coroutine) :
    (loop.enter phase (EventManager.addRecv coro loop.manager loop.socket)).Settled := by
  simp only [EventManager.addRecv, EventManager.add, EventManager.attachFirst, settled.attached,
    if_true, EventManager.rearm]
  split
  · exact ⟨settled.attached, settled.added, settled.registered⟩
  split
  · exact ⟨settled.attached, settled.added, settled.registered⟩
  · refine settled.update ?_ ?_ phase _
    · rfl
    · exact settled.attached

theorem Settled.step {loop next : AcceptLoop} {label : AcceptStep} (settled : loop.Settled)
    (taken : loop.step label = some next) : next.Settled := by
  cases label <;> simp only [AcceptLoop.step] at taken <;> split at taken <;> cases taken
  case ready => exact settled.delRecv _
  case suspend coro _ => exact settled.addRecv _ coro
  case resume => exact settled.delRecv _
  case leave => exact ⟨settled.attached, settled.added, settled.registered⟩
  case shutdownServer => exact ⟨settled.attached, settled.added, settled.registered⟩
  case shutdownReactor => exact ⟨settled.attached, settled.added, settled.registered⟩

/-- A loop whose process has exited takes no step. -/
theorem step_of_exited {loop : AcceptLoop} (exited : loop.manager.exited = true)
    (label : AcceptStep) : loop.step label = none := by
  cases label <;> simp [AcceptLoop.step, exited]

/-- The reactor has been shut down before any call. -/
structure Silent (loop : AcceptLoop) : Prop where
  down : loop.manager.isShutdown = true
  calls : loop.manager.kernel.calls = []

theorem Silent.step {loop next : AcceptLoop} {label : AcceptStep} (silent : loop.Silent)
    (taken : loop.step label = some next) : next.Silent := by
  obtain ⟨down, calls⟩ := silent
  have noRecv : EventManager.delRecv loop.manager loop.socket = (loop.manager, loop.socket) :=
    if_pos down
  cases label <;> simp only [AcceptLoop.step] at taken <;> split at taken <;> cases taken
  case ready => exact noRecv ▸ ⟨down, calls⟩
  case suspend coro _ =>
    have noAdd : EventManager.addRecv coro loop.manager loop.socket = (loop.manager, loop.socket) :=
      if_pos down
    exact noAdd ▸ ⟨down, calls⟩
  case resume => exact noRecv ▸ ⟨down, calls⟩
  case leave => exact ⟨down, calls⟩
  case shutdownServer => exact ⟨down, calls⟩
  case shutdownReactor => exact ⟨rfl, calls⟩

/-- An attempt that succeeds at once updates a socket that has not been added. -/
theorem Fresh.ready {loop next : AcceptLoop} (fresh : loop.Fresh)
    (taken : loop.step .ready = some next) :
    next.manager.exited = true ∧ ¬ ModsRegistered next.manager.kernel.calls := by
  simp only [AcceptLoop.step] at taken
  split at taken <;> cases taken
  have unknown : loop.manager.kernel.admits
      (.epollCtlMod loop.socket.fd (loop.socket.ioState &&& ~~~epollin)) = false := by
    rw [Kernel.admits, fresh.unknown, Option.isSome_none, Bool.and_false]
  simp only [enter, EventManager.delRecv, EventManager.del, fresh.up]
  constructor
  · change (loop.manager.exited || !loop.manager.kernel.admits _) = true
    rw [fresh.running]
    exact congrArg (!·) unknown
  · intro registered
    have calls : _ = loop.manager.kernel.calls ++ [_] :=
      EventManager.calls_epollCtl loop.manager
        (.epollCtlMod loop.socket.fd (loop.socket.ioState &&& ~~~epollin))
    rw [fresh.silent] at calls
    obtain ⟨added, member⟩ := registered [] _ _ [] calls
    cases member

/-- An attempt that is suspended adds the socket. -/
theorem Fresh.suspend {loop next : AcceptLoop} {coro : Coroutine} (fresh : loop.Fresh)
    (taken : loop.step (.suspend coro) = some next) : next.Settled := by
  simp only [AcceptLoop.step] at taken
  split at taken <;> cases taken
  have admitted : loop.manager.kernel.admits
      (.epollCtlAdd loop.socket.fd (epollin ||| epollet)) = true := by
    rw [Kernel.admits, fresh.unknown, fresh.opened]
    rfl
  have calls := EventManager.calls_epollCtl loop.manager
    (.epollCtlAdd loop.socket.fd (epollin ||| epollet))
  rw [fresh.silent] at calls
  have attached : (loop.enter .suspended
      (loop.manager.attach loop.socket (epollin ||| epollet))).Settled := by
    refine ⟨rfl, ⟨epollin ||| epollet, ?_⟩, ?_⟩
    · exact calls ▸ List.mem_cons_self
    · exact calls ▸ modsRegistered_nil.concat fun _ _ same => by cases same
  have running : (loop.manager.attach loop.socket (epollin ||| epollet)).1.exited = false := by
    change (loop.manager.exited || !loop.manager.kernel.admits _) = false
    rw [fresh.running]
    exact congrArg (!·) admitted
  simp only [EventManager.addRecv, EventManager.add, EventManager.attachFirst, fresh.up,
    fresh.detached, Direction.events, Bool.false_eq_true, if_false, running, EventManager.rearm]
  refine attached.update ?_ ?_ .suspended _
  · rfl
  · rfl

theorem Fresh.registered_iff {loop final : AcceptLoop} {steps : List AcceptStep}
    (fresh : loop.Fresh) (ran : run AcceptLoop.step loop steps = some final) :
    ModsRegistered final.manager.kernel.calls ↔ SuspendsFirst steps := by
  induction steps generalizing loop with
  | nil =>
    cases ran
    rw [fresh.silent]
    exact iff_of_true modsRegistered_nil trivial
  | cons label steps inductionHypothesis =>
    obtain ⟨next, taken, rest⟩ := (run_cons _).mp ran
    cases label with
    | ready =>
      obtain ⟨exited, unregistered⟩ := fresh.ready taken
      cases steps with
      | nil =>
        cases rest
        exact iff_of_false unregistered not_false
      | cons label steps =>
        rw [run, step_of_exited exited] at rest
        cases rest
    | suspend coro =>
      have settled := invariant_run AcceptLoop.step (fun _ _ _ => Settled.step)
        (fresh.suspend taken) rest
      exact iff_of_true settled.registered trivial
    | resume => simp [AcceptLoop.step, fresh.phase] at taken
    | leave =>
      simp only [AcceptLoop.step] at taken
      split at taken <;> cases taken
      have still : AcceptLoop.Fresh { loop with phase := .left } :=
        ⟨fresh.detached, fresh.unknown, fresh.opened, fresh.running, fresh.up, fresh.silent,
          AcceptPhase.noConfusion⟩
      exact inductionHypothesis still rest
    | shutdownServer =>
      simp only [AcceptLoop.step] at taken
      split at taken <;> cases taken
      have still : AcceptLoop.Fresh { loop with isShutdown := true } :=
        ⟨fresh.detached, fresh.unknown, fresh.opened, fresh.running, fresh.up, fresh.silent,
          fresh.phase⟩
      exact inductionHypothesis still rest
    | shutdownReactor =>
      simp only [AcceptLoop.step] at taken
      split at taken <;> cases taken
      have down : Silent { loop with manager := { loop.manager with isShutdown := true } } :=
        ⟨rfl, fresh.silent⟩
      have silent : Silent final :=
        invariant_run AcceptLoop.step (fun _ _ _ => Silent.step) down rest
      rw [silent.calls]
      exact iff_of_true modsRegistered_nil trivial

end AcceptLoop

/-- A loop only updates what it has added exactly if its first attempt is suspended. -/
theorem acceptLoop_registered_iff (fd : Fd) (steps : List AcceptStep) (final : AcceptLoop)
    (ran : run AcceptLoop.step (AcceptLoop.initial fd) steps = some final) :
    ModsRegistered final.manager.kernel.calls ↔ SuspendsFirst steps := by
  have fresh : (AcceptLoop.initial fd).Fresh := ⟨rfl, rfl, rfl, rfl, rfl, rfl, nofun⟩
  exact fresh.registered_iff ran

/-- Two attempts, of which the first is suspended. -/
theorem acceptLoop_registered_suspended :
    ∃ final, run AcceptLoop.step (AcceptLoop.initial 3) [.suspend 1, .resume, .ready] =
        some final ∧ ModsRegistered final.manager.kernel.calls :=
  ⟨_, rfl, (acceptLoop_registered_iff 3 [.suspend 1, .resume, .ready] _ rfl).mpr trivial⟩

/-- A connection is pending when the loop begins. -/
theorem acceptLoop_unregistered :
    ∃ final, run AcceptLoop.step (AcceptLoop.initial 3) [.ready] = some final ∧
      ¬ ModsRegistered final.manager.kernel.calls := by
  refine ⟨_, rfl, fun registered => ?_⟩
  obtain ⟨added, member⟩ := registered [] 3 0 [] rfl
  cases member

end Luce
