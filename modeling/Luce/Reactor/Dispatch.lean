/-
This file models the event loop that resumes coroutines beside a thread that makes
them wait, and decides when the loop resumes a coroutine that is not null.

Any number of sockets are registered with the manager. A coroutine is resumed on the
loop's thread, where it takes its handle back and may wait again. It is the only one
to wait in its direction of its socket, so it waits again only when its handle has
been cleared and no call in that direction is in progress.

The manager has no `work_thread_pool_`: `Start` resumes the coroutine itself. That is the main
reactor, with which all sockets are registered; the sub reactors, which would commit the
resumption to the pool, are given no sockets and never started.

The first call on a socket attaches it with its event before its handle is stored,
and registers the event a second time behind that. An event that is dispatched before
the handle is stored finds null; one that is dispatched between the two leaves the
event registered for a handle that has been taken back. Later calls store the handle
before they register the event.
-/

import Luce.Library.Transition
import Luce.Reactor.EventManager

namespace Luce

open Library.Transition

/-- The thread that makes coroutines wait, and that of the event loop. -/
inductive Thread where
  | caller | loop
deriving DecidableEq, Repr

/-- The sockets with their manager, and what the two threads are doing. -/
structure Reactor where
  manager : EventManager
  sockets : Fd → Socket
  /-- The calls that the threads are in. -/
  calls : Thread → Option (Fd × OpenCall)
  /-- The loop waits for events; else a coroutine runs on its thread. -/
  polling : Bool
  /-- The loop has resumed a coroutine that is null. -/
  resumedNull : Bool

inductive ReactorStep where
  /-- A coroutine on this thread begins to wait for the socket. -/
  | begin (thread : Thread) (fd : Fd) (direction : Direction) (coro : Coroutine)
  /-- The call that this thread is in takes its next step. -/
  | proceed (thread : Thread)
  /-- `epoll_wait` reports events of the socket, and the loop resumes a coroutine. -/
  | dispatch (fd : Fd) (events : Events)
  /-- The coroutine on the loop's thread is suspended or at its end. -/
  | poll
  | shutdown
deriving DecidableEq, Repr

/-- Which handle the loop resumes for these events. -/
def selected (events : Events) : Option Direction :=
  if events.meet epollin then some .recv
  else if events.meet epollout then some .send
  else none

namespace Reactor

/-- Open sockets that nothing waits for. -/
def initial : Reactor :=
  ⟨⟨false, ⟨fun _ => true, fun _ => none, []⟩, false⟩, Socket.new, fun _ => none, true, false⟩

/-- The thread is in a call on this direction of the socket. -/
def busy (reactor : Reactor) (fd : Fd) (direction : Direction) (thread : Thread) : Bool :=
  (reactor.calls thread).any fun call => call.1 = fd && call.2.direction = direction

/-- Nothing waits in this direction of the socket. -/
def vacant (reactor : Reactor) (fd : Fd) (direction : Direction) : Bool :=
  ((reactor.sockets fd).handle.get direction).isNone && !reactor.busy fd direction .caller &&
    !reactor.busy fd direction .loop

/-- The thread can run a coroutine that begins to wait. -/
def idle (reactor : Reactor) (thread : Thread) : Bool :=
  (reactor.calls thread).isNone && (thread = .caller || !reactor.polling)

/-- The events may be reported: the socket is registered with them. -/
def reports (reactor : Reactor) (fd : Fd) (events : Events) : Bool :=
  (reactor.manager.kernel.interest fd).any fun mask =>
    (!events.meet epollin || mask.meet epollin) && (!events.meet epollout || mask.meet epollout)

/-- The thread is in this call, or in none. -/
def setCall (reactor : Reactor) (thread : Thread) (call : Option (Fd × OpenCall)) : Reactor :=
  { reactor with calls := Function.update reactor.calls thread call }

/-- `resume()` of a handle; the coroutine begins with `DelRecv` or `DelSend`. -/
def resume (reactor : Reactor) (fd : Fd) (direction : Direction) : Reactor :=
  match (reactor.sockets fd).handle.get direction with
  | none => { reactor with resumedNull := true }
  | some _ =>
    { reactor with polling := false }.setCall .loop
      (if reactor.manager.isShutdown then none else some (fd, .clear direction))

/-- The thread's call takes its next step. -/
def advance (reactor : Reactor) (thread : Thread) (fd : Fd) (call : OpenCall) : Reactor :=
  let ((manager, socket), next) := call.advance reactor.manager (reactor.sockets fd)
  { reactor with manager, sockets := Function.update reactor.sockets fd socket }.setCall thread
    (next.map (fd, ·))

def step (reactor : Reactor) (label : ReactorStep) : Option Reactor :=
  if reactor.manager.exited || reactor.resumedNull then none
  else
    match label with
    | .begin thread fd direction coro =>
      if reactor.idle thread && reactor.vacant fd direction then
        if reactor.manager.isShutdown then some reactor
        else some (reactor.setCall thread (some (fd, .attach direction coro)))
      else none
    | .proceed thread =>
      (reactor.calls thread).map fun call => reactor.advance thread call.1 call.2
    | .dispatch fd events =>
      if reactor.polling && reactor.reports fd events then
        some ((selected events).elim reactor (reactor.resume fd))
      else none
    | .poll =>
      if !reactor.polling && (reactor.calls .loop).isNone then
        some { reactor with polling := true }
      else none
    | .shutdown => some { reactor with manager := { reactor.manager with isShutdown := true } }

/-- The caller's thread is not in the first call on this direction of the socket, or has
not attached it yet. Once the handle is stored, a manager that is shut down no longer
takes it back. -/
def settled (reactor : Reactor) (fd : Fd) (direction : Direction) : Bool :=
  match reactor.calls .caller with
  | some (other, .store attached _ true) => !(other = fd && attached = direction)
  | some (other, .rearm attached _ true) =>
    !(other = fd && attached = direction) || reactor.manager.isShutdown
  | _ => true

/-- No event is dispatched to a handle whose first call is in progress. -/
def Dispatches (reactor : Reactor) : ReactorStep → Prop
  | .dispatch fd events => (selected events).all (reactor.settled fd) = true
  | _ => True

end Reactor

/-! ### What a call finds -/

/-- What a call in progress can rely on: the handle of its direction, and whether the
socket is armed for it. -/
def OpenCall.Fits (socket : Socket) : OpenCall → Prop
  | .attach direction _ => socket.handle.get direction = none ∧ socket.armed direction = false
  | .store direction _ first =>
    socket.attached = true ∧ socket.handle.get direction = none ∧
      (first = false → socket.armed direction = false)
  | .rearm direction coro first =>
    socket.attached = true ∧ socket.handle.get direction = some coro ∧
      (first = false → socket.armed direction = false)
  | .clear direction => socket.attached = true ∧ socket.handle.get direction ≠ none
  | .disarm direction => socket.attached = true ∧ socket.handle.get direction = none

namespace OpenCall

theorem Fits.attached {socket : Socket} {call : OpenCall} (fits : call.Fits socket) :
    call.Attached socket := by
  cases call with
  | attach => trivial
  | store => exact fits.1
  | rearm => exact fits.1
  | clear => exact fits.1
  | disarm => exact fits.1

/-- The next step finds what it relies on. -/
theorem Fits.advance {manager : EventManager} {socket : Socket} {call next : OpenCall}
    (fits : call.Fits socket) (more : (call.advance manager socket).2 = some next) :
    next.direction = call.direction ∧ next.Fits (call.advance manager socket).1.2 := by
  cases call with
  | attach direction coro =>
    cases more
    refine ⟨rfl, ?_⟩
    simp only [OpenCall.advance, EventManager.attachFirst]
    split
    case isTrue attached => exact ⟨attached, fits.1, fun _ => fits.2⟩
    case isFalse detached =>
      exact ⟨rfl, fits.1, fun first => absurd (by simpa using first) detached⟩
  | store direction coro first =>
    cases more
    refine ⟨rfl, fits.1, ?_, fits.2.2⟩
    rw [OpenCall.advance, Socket.setCoro, Handle.get_set, if_pos rfl]
  | rearm => cases more
  | clear direction =>
    cases more
    refine ⟨rfl, fits.1, ?_⟩
    rw [OpenCall.advance, Socket.setCoro, Handle.get_set, if_pos rfl]
  | disarm => cases more

/-- A call that returns leaves the socket armed for a handle that is not null. -/
theorem Fits.returns {manager : EventManager} {socket : Socket} {call : OpenCall}
    (fits : call.Fits socket) (last : (call.advance manager socket).2 = none)
    (armed : (call.advance manager socket).1.2.armed call.direction = true) :
    (call.advance manager socket).1.2.handle.get call.direction ≠ none := by
  cases call with
  | attach => cases last
  | store => cases last
  | rearm direction coro first =>
    have stored : socket.handle.get direction = some coro := fits.2.1
    exact stored ▸ Option.some_ne_none coro
  | clear => cases last
  | disarm direction =>
    have cleared : (socket.attached && (socket.ioState &&& ~~~direction.events).meet
        direction.events) = true := armed
    rw [meet_clear, decide_eq_false (not_not.mpr rfl), Bool.and_false, Bool.and_false] at cleared
    cases cleared

/-- A call in the other direction finds what it did. -/
theorem Fits.beside {manager after : EventManager} {socket moved : Socket} {direction : Direction}
    {call : OpenCall} (fits : call.Fits socket)
    (advanced : Advanced manager socket direction after moved)
    (apart : call.direction ≠ direction) : call.Fits moved := by
  have handle := advanced.handle _ apart
  have armed := advanced.armed _ apart
  cases call with
  | attach => exact ⟨handle.trans fits.1, armed.trans fits.2⟩
  | store =>
    exact ⟨advanced.attached fits.1, handle.trans fits.2.1,
      fun later => armed.trans (fits.2.2 later)⟩
  | rearm =>
    exact ⟨advanced.attached fits.1, handle.trans fits.2.1,
      fun later => armed.trans (fits.2.2 later)⟩
  | clear => exact ⟨advanced.attached fits.1, fun none => fits.2 (handle.symm.trans none)⟩
  | disarm => exact ⟨advanced.attached fits.1, handle.trans fits.2⟩

/-- A call of the caller's thread is one of `AddRecv` or `AddSend`. -/
def adds : OpenCall → Bool
  | .attach _ _ | .store _ _ _ | .rearm _ _ _ => true
  | .clear _ | .disarm _ => false

theorem adds_advance {manager : EventManager} {socket : Socket} {call next : OpenCall}
    (more : (call.advance manager socket).2 = some next) : next.adds = call.adds := by
  cases call <;> cases more <;> rfl

end OpenCall

/-! ### What every step keeps -/

/-- As long as no event is dispatched to a handle whose first call is in progress, a
socket is armed only for handles that are not null, unless a call is about to see to
it, and two calls are never about the same direction of a socket. -/
structure Reactor.Sound (reactor : Reactor) : Prop where
  running : reactor.manager.exited = false
  alive : reactor.resumedNull = false
  fd : ∀ fd, (reactor.sockets fd).fd = fd
  registered : ∀ fd, Registered reactor.manager (reactor.sockets fd)
  fits : ∀ thread fd call, reactor.calls thread = some (fd, call) →
    call.Fits (reactor.sockets fd)
  adds : ∀ fd call, reactor.calls .caller = some (fd, call) → call.adds = true
  apart : ∀ thread other fd first second, thread ≠ other →
    reactor.calls thread = some (fd, first) → reactor.calls other = some (fd, second) →
    first.direction ≠ second.direction
  guarded : ∀ fd direction, (reactor.sockets fd).armed direction = true →
    (reactor.sockets fd).handle.get direction ≠ none ∨
      ∃ thread call, reactor.calls thread = some (fd, call) ∧ call.direction = direction
  polling : reactor.polling = true → reactor.calls .loop = none

namespace Reactor

theorem Sound.initial : initial.Sound where
  running := rfl
  alive := rfl
  fd _ := rfl
  registered _ := ⟨rfl, rfl⟩
  fits := nofun
  adds := nofun
  apart := nofun
  guarded _ _ := nofun
  polling _ := rfl

theorem calls_setCall_self (reactor : Reactor) (thread : Thread)
    (call : Option (Fd × OpenCall)) : (reactor.setCall thread call).calls thread = call :=
  Function.update_self _ _ _

theorem calls_setCall_of_ne (reactor : Reactor) {thread other : Thread} (distinct : other ≠ thread)
    (call : Option (Fd × OpenCall)) :
    (reactor.setCall thread call).calls other = reactor.calls other :=
  Function.update_of_ne distinct _ _

/-- A call of some thread is the one that has been set, or was there before. -/
theorem calls_setCall_cases {reactor : Reactor} {thread other : Thread}
    {next : Option (Fd × OpenCall)} {call : Fd × OpenCall}
    (calls : (reactor.setCall thread next).calls other = some call) :
    other = thread ∧ next = some call ∨ other ≠ thread ∧ reactor.calls other = some call := by
  by_cases same : other = thread
  · rw [same, calls_setCall_self] at calls
    exact Or.inl ⟨same, calls⟩
  · rw [calls_setCall_of_ne reactor same] at calls
    exact Or.inr ⟨same, calls⟩

/-- Two calls stay apart if the one that is set is apart from those of the other threads. -/
theorem Sound.apart_setCall {reactor : Reactor} (sound : reactor.Sound) {thread : Thread}
    {next : Option (Fd × OpenCall)}
    (distinct : ∀ other fd call second, other ≠ thread → next = some (fd, call) →
      reactor.calls other = some (fd, second) → call.direction ≠ second.direction)
    (one other : Thread) (fd : Fd) (first second : OpenCall) (ne : one ≠ other)
    (calls₁ : (reactor.setCall thread next).calls one = some (fd, first))
    (calls₂ : (reactor.setCall thread next).calls other = some (fd, second)) :
    first.direction ≠ second.direction := by
  obtain ⟨rfl, set₁⟩ | ⟨ne₁, old₁⟩ := calls_setCall_cases calls₁
  · obtain ⟨rfl, -⟩ | ⟨ne₂, old₂⟩ := calls_setCall_cases calls₂
    · exact absurd rfl ne
    · exact distinct other fd first second ne₂ set₁ old₂
  · obtain ⟨rfl, set₂⟩ | ⟨-, old₂⟩ := calls_setCall_cases calls₂
    · exact (distinct one fd second first ne₁ set₂ old₁).symm
    · exact sound.apart one other fd first second ne old₁ old₂

/-- Some thread is in a call on this direction of the socket. -/
def Guards (reactor : Reactor) (fd : Fd) (direction : Direction) : Prop :=
  ∃ thread call, reactor.calls thread = some (fd, call) ∧ call.direction = direction

/-- A call that ends leaves a direction guarded that it is not about. -/
theorem Guards.setCall {reactor : Reactor} {fd : Fd} {direction : Direction}
    (guards : reactor.Guards fd direction) {thread : Thread}
    (different : ∀ call, reactor.calls thread = some (fd, call) → call.direction ≠ direction)
    (next : Option (Fd × OpenCall)) : (reactor.setCall thread next).Guards fd direction := by
  obtain ⟨other, call, calls, about⟩ := guards
  refine ⟨other, call, ?_, about⟩
  rw [calls_setCall_of_ne reactor ?_]
  · exact calls
  · rintro rfl
    exact different call calls about

/-- Nothing waits in a direction that is vacant. -/
theorem vacant_spec {reactor : Reactor} {fd : Fd} {direction : Direction}
    (vacant : reactor.vacant fd direction = true) :
    (reactor.sockets fd).handle.get direction = none ∧ ∀ thread call,
      reactor.calls thread = some (fd, call) → call.direction ≠ direction := by
  simp only [Reactor.vacant, Bool.and_eq_true, Option.isNone_iff_eq_none, Bool.not_eq_true'] at vacant
  obtain ⟨⟨handle, caller⟩, loop⟩ := vacant
  refine ⟨handle, fun thread call calls same => ?_⟩
  have busy : reactor.busy fd direction thread = true := by
    rw [Reactor.busy, calls, Option.any_some, same]
    simp
  cases thread with
  | caller => exact Bool.noConfusion (busy.symm.trans caller)
  | loop => exact Bool.noConfusion (busy.symm.trans loop)

/-- A coroutine that begins to wait. -/
theorem Sound.begin {reactor : Reactor} (sound : reactor.Sound) {thread : Thread} {fd : Fd}
    {direction : Direction} (idle : reactor.idle thread = true)
    (vacant : reactor.vacant fd direction = true) (coro : Coroutine) :
    (reactor.setCall thread (some (fd, .attach direction coro))).Sound := by
  obtain ⟨handle, others⟩ := vacant_spec vacant
  simp only [Reactor.idle, Bool.and_eq_true, Option.isNone_iff_eq_none] at idle
  have unarmed : (reactor.sockets fd).armed direction = false := by
    rw [← Bool.not_eq_true]
    intro armed
    obtain stored | ⟨other, call, calls, same⟩ := sound.guarded fd direction armed
    · exact stored handle
    · exact others other call calls same
  have free : reactor.calls thread = none := idle.1
  refine { sound with fits := ?_, adds := ?_, apart := ?_, guarded := ?_, polling := ?_ }
  · intro other fd' call calls
    obtain ⟨-, same⟩ | ⟨-, calls⟩ := calls_setCall_cases calls
    · cases same
      exact ⟨handle, unarmed⟩
    · exact sound.fits other fd' call calls
  · intro fd' call calls
    obtain ⟨-, same⟩ | ⟨-, calls⟩ := calls_setCall_cases calls
    · cases same
      rfl
    · exact sound.adds fd' call calls
  · refine sound.apart_setCall fun other fd' call second _ same calls => ?_
    cases same
    exact (others other second calls).symm
  · intro fd' direction' armed
    refine (sound.guarded fd' direction' armed).imp_right fun guards => ?_
    exact Guards.setCall guards (fun call calls => by cases free.symm.trans calls) _
  · intro polling
    rw [calls_setCall_of_ne reactor fun both => ?_]
    · exact sound.polling polling
    · have waiting : reactor.polling = true := polling
      simp [← both, waiting] at idle

section Advance

variable (reactor : Reactor) (thread : Thread) (fd : Fd) (call : OpenCall)

theorem socket_advance : (reactor.advance thread fd call).sockets fd =
    (call.advance reactor.manager (reactor.sockets fd)).1.2 :=
  Function.update_self _ _ _

theorem sockets_advance_of_ne {other : Fd} (distinct : other ≠ fd) :
    (reactor.advance thread fd call).sockets other = reactor.sockets other :=
  Function.update_of_ne distinct _ _

theorem calls_advance_self : (reactor.advance thread fd call).calls thread =
    (call.advance reactor.manager (reactor.sockets fd)).2.map (fd, ·) :=
  calls_setCall_self _ _ _

theorem calls_advance_of_ne {other : Thread} (distinct : other ≠ thread) :
    (reactor.advance thread fd call).calls other = reactor.calls other :=
  calls_setCall_of_ne _ distinct _

variable {reactor thread fd call}

/-- A call of some thread is the rest of the one that has taken its step, or another one. -/
theorem calls_advance_cases {other : Thread} {fd' : Fd} {next : OpenCall}
    (calls : (reactor.advance thread fd call).calls other = some (fd', next)) :
    other = thread ∧ fd' = fd ∧
        (call.advance reactor.manager (reactor.sockets fd)).2 = some next ∨
      other ≠ thread ∧ reactor.calls other = some (fd', next) := by
  refine (calls_setCall_cases calls).imp_left ?_
  rintro ⟨same, more⟩
  obtain ⟨_, more, pair⟩ := Option.map_eq_some_iff.mp more
  cases pair
  exact ⟨same, rfl, more⟩

end Advance

/-- What guarded a direction still does behind the next step of a call, unless it was this
call; and that leaves its handle stored when it returns. -/
theorem Sound.guarded_advance {reactor : Reactor} (sound : reactor.Sound) {thread : Thread}
    {fd : Fd} {call : OpenCall} (calls : reactor.calls thread = some (fd, call)) (fd' : Fd)
    (direction : Direction)
    (armed : ((reactor.advance thread fd call).sockets fd').armed direction = true) :
    ((reactor.advance thread fd call).sockets fd').handle.get direction ≠ none ∨
      (reactor.advance thread fd call).Guards fd' direction := by
  have fits := sound.fits thread fd call calls
  have advanced := OpenCall.advanced (sound.registered fd) fits.attached
  have here := socket_advance reactor thread fd call
  have moved := @sockets_advance_of_ne reactor thread fd call
  have still (different : fd' = fd → call.direction ≠ direction)
      (guards : reactor.Guards fd' direction) :
      (reactor.advance thread fd call).Guards fd' direction := by
    refine guards.setCall (fun call' calls' => ?_) _
    cases calls.symm.trans calls'
    exact different rfl
  by_cases same : fd' = fd
  · subst same
    rw [here] at armed ⊢
    by_cases about : call.direction = direction
    · subst about
      cases more : (call.advance reactor.manager (reactor.sockets fd')).2 with
      | none => exact Or.inl (fits.returns more armed)
      | some next =>
        refine Or.inr ⟨thread, next, ?_, (fits.advance more).1⟩
        rw [calls_advance_self, more]
        rfl
    · rw [advanced.armed direction (Ne.symm about)] at armed
      rw [advanced.handle direction (Ne.symm about)]
      exact (sound.guarded fd' direction armed).imp_right (still fun _ => about)
  · rw [moved same] at armed ⊢
    exact (sound.guarded fd' direction armed).imp_right (still fun both => absurd both same)

/-- A call that takes its next step. -/
theorem Sound.proceed {reactor : Reactor} (sound : reactor.Sound) {thread : Thread} {fd : Fd}
    {call : OpenCall} (calls : reactor.calls thread = some (fd, call)) :
    (reactor.advance thread fd call).Sound := by
  have fits := sound.fits thread fd call calls
  have advanced := OpenCall.advanced (sound.registered fd) fits.attached
  have here := socket_advance reactor thread fd call
  have moved := @sockets_advance_of_ne reactor thread fd call
  constructor
  case running => exact advanced.exited.trans sound.running
  case alive => exact sound.alive
  case fd =>
    intro fd'
    by_cases same : fd' = fd
    · rw [same, here]
      exact advanced.fd.trans (sound.fd fd)
    · rw [moved same]
      exact sound.fd fd'
  case registered =>
    intro fd'
    by_cases same : fd' = fd
    · rw [same, here]
      exact advanced.registered
    · rw [moved same]
      have before := sound.registered fd'
      refine ⟨advanced.opened ▸ before.opened, ?_⟩
      rw [← before.interest]
      refine advanced.others _ ?_
      rw [sound.fd, sound.fd]
      exact same
  case fits =>
    intro other fd' call' calls'
    obtain ⟨-, rfl, more⟩ | ⟨distinct, old⟩ := calls_advance_cases calls'
    · exact here ▸ (fits.advance more).2
    · have before := sound.fits other fd' call' old
      by_cases same : fd' = fd
      · subst same
        exact here ▸ before.beside advanced
          (sound.apart other thread fd' call' call distinct old calls)
      · exact moved same ▸ before
  case adds =>
    intro fd' call' calls'
    obtain ⟨rfl, rfl, more⟩ | ⟨-, calls'⟩ := calls_advance_cases calls'
    · exact (OpenCall.adds_advance more).trans (sound.adds fd' call calls)
    · exact sound.adds fd' call' calls'
  case apart =>
    -- the next call is about what this one is about
    refine sound.apart_setCall fun other fd' next second distinct set calls' => ?_
    obtain ⟨_, more, pair⟩ := Option.map_eq_some_iff.mp set
    cases pair
    rw [(fits.advance more).1]
    exact sound.apart thread other fd call second distinct.symm calls calls'
  case guarded => exact sound.guarded_advance calls
  case polling =>
    intro polling
    have still := sound.polling polling
    have distinct : Thread.loop ≠ thread := by
      rintro rfl
      cases calls.symm.trans still
    exact (calls_advance_of_ne reactor thread fd call distinct).trans still

/-- A call of the caller's thread about a direction that is armed is the first one on
the socket, past attaching it. -/
theorem Sound.first {reactor : Reactor} (sound : reactor.Sound) {fd : Fd} {call : OpenCall}
    (calls : reactor.calls .caller = some (fd, call))
    (armed : (reactor.sockets fd).armed call.direction = true) :
    ∃ direction coro, call = .store direction coro true ∨ call = .rearm direction coro true := by
  have fits := sound.fits .caller fd call calls
  have adds := sound.adds fd call calls
  cases call with
  | attach direction coro => exact Bool.noConfusion (armed.symm.trans fits.2)
  | store direction coro first =>
    cases first with
    | false => exact Bool.noConfusion (armed.symm.trans (fits.2.2 rfl))
    | true => exact ⟨direction, coro, Or.inl rfl⟩
  | rearm direction coro first =>
    cases first with
    | false => exact Bool.noConfusion (armed.symm.trans (fits.2.2 rfl))
    | true => exact ⟨direction, coro, Or.inr rfl⟩
  | clear => cases adds
  | disarm => cases adds

/-- If an armed direction is settled, the caller's thread is not about it, or has stored
the handle of a first call, and then the manager is shut down. -/
theorem Sound.stored {reactor : Reactor} (sound : reactor.Sound) {fd : Fd} {call : OpenCall}
    (armed : (reactor.sockets fd).armed call.direction = true)
    (settled : reactor.settled fd call.direction = true)
    (calls : reactor.calls .caller = some (fd, call)) :
    (reactor.sockets fd).handle.get call.direction ≠ none ∧ reactor.manager.isShutdown = true := by
  have fits := sound.fits .caller fd call calls
  obtain ⟨direction, coro, rfl | rfl⟩ := sound.first calls armed
  · simp [Reactor.settled, calls, OpenCall.direction] at settled
  · simp only [Reactor.settled, calls, OpenCall.direction] at settled
    have stored : (reactor.sockets fd).handle.get direction = some coro := fits.2.1
    exact ⟨stored ▸ Option.some_ne_none coro, by simpa using settled⟩

theorem Sound.handle {reactor : Reactor} (sound : reactor.Sound) {fd : Fd}
    {direction : Direction} (polling : reactor.polling = true)
    (armed : (reactor.sockets fd).armed direction = true)
    (settled : reactor.settled fd direction = true) :
    (reactor.sockets fd).handle.get direction ≠ none := by
  obtain handle | ⟨thread, call, calls, rfl⟩ := sound.guarded fd direction armed
  · exact handle
  cases thread with
  | caller => exact (sound.stored armed settled calls).1
  | loop => cases (sound.polling polling).symm.trans calls

/-- The loop resumes a coroutine that is not null. -/
theorem Sound.resume {reactor : Reactor} (sound : reactor.Sound) {fd : Fd}
    {direction : Direction} (polling : reactor.polling = true)
    (armed : (reactor.sockets fd).armed direction = true)
    (settled : reactor.settled fd direction = true) : (reactor.resume fd direction).Sound := by
  obtain ⟨coro, handle⟩ := Option.ne_none_iff_exists'.mp (sound.handle polling armed settled)
  rw [Reactor.resume, handle]
  -- the loop's thread is in a new call, and only while the manager is not shut down
  have own : ∀ {fd' : Fd} {call : OpenCall},
      (if reactor.manager.isShutdown then none else some (fd, .clear direction)) =
        some (fd', call) →
      fd' = fd ∧ call = .clear direction ∧ reactor.manager.isShutdown = false := by
    intro fd' call same
    split at same
    case isTrue => cases same
    case isFalse up =>
      cases same
      exact ⟨rfl, rfl, Bool.not_eq_true _ ▸ up⟩
  have attached : (reactor.sockets fd).attached = true := Bool.and_elim_left armed
  constructor
  case running => exact sound.running
  case alive => exact sound.alive
  case fd => exact sound.fd
  case registered => exact sound.registered
  case fits =>
    intro thread fd' call calls
    obtain ⟨-, set⟩ | ⟨-, old⟩ := calls_setCall_cases calls
    · obtain ⟨rfl, rfl, -⟩ := own set
      exact ⟨attached, fun null => Option.some_ne_none coro (handle.symm.trans null)⟩
    · exact sound.fits thread fd' call old
  case adds =>
    intro fd' call calls
    obtain ⟨impossible, -⟩ | ⟨-, old⟩ := calls_setCall_cases calls
    · cases impossible
    · exact sound.adds fd' call old
  case apart =>
    -- while it is not shut down, the caller's thread is not about the same direction
    refine sound.apart_setCall fun other fd' call second distinct set calls about => ?_
    obtain ⟨rfl, rfl, up⟩ := own set
    cases other with
    | caller =>
      obtain rfl : direction = second.direction := about
      exact Bool.noConfusion (up.symm.trans (sound.stored armed settled calls).2)
    | loop => exact distinct rfl
  case guarded =>
    intro fd' direction' armed'
    refine (sound.guarded fd' direction' armed').imp_right fun guards => ?_
    exact Guards.setCall guards
      (fun call calls => by cases (sound.polling polling).symm.trans calls) _
  case polling => exact nofun

theorem selected_meets {events : Events} {direction : Direction}
    (chosen : selected events = some direction) : events.meet direction.events = true := by
  unfold selected at chosen
  split at chosen
  case isTrue receives =>
    cases chosen
    exact receives
  case isFalse =>
    split at chosen
    case isTrue sends =>
      cases chosen
      exact sends
    case isFalse => cases chosen

/-- Events are reported only of a socket that is armed for them. -/
theorem Sound.armed_of_reports {reactor : Reactor} (sound : reactor.Sound) {fd : Fd}
    {events : Events} {direction : Direction} (reports : reactor.reports fd events = true)
    (chosen : selected events = some direction) :
    (reactor.sockets fd).armed direction = true := by
  have meets := selected_meets chosen
  have interest := (sound.registered fd).interest
  rw [sound.fd fd] at interest
  rw [Reactor.reports, interest] at reports
  rw [Socket.armed]
  cases attached : (reactor.sockets fd).attached with
  | false =>
    rw [attached] at reports
    cases reports
  | true =>
    simp only [attached, if_true, Option.any_some, Bool.and_eq_true] at reports
    rw [Bool.true_and]
    cases direction with
    | recv =>
      change events.meet epollin = true at meets
      change (reactor.sockets fd).ioState.meet epollin = true
      simpa [meets] using reports.1
    | send =>
      change events.meet epollout = true at meets
      change (reactor.sockets fd).ioState.meet epollout = true
      simpa [meets] using reports.2

theorem Sound.goesOn {reactor : Reactor} (sound : reactor.Sound) :
    ¬ (reactor.manager.exited || reactor.resumedNull) = true := by
  rw [sound.running, sound.alive]
  decide

/-- Every step that meets the condition keeps the reactor sound. -/
theorem Sound.step {reactor next : Reactor} {label : ReactorStep} (sound : reactor.Sound)
    (dispatches : reactor.Dispatches label) (taken : reactor.step label = some next) :
    next.Sound := by
  unfold Reactor.step at taken
  rw [if_neg sound.goesOn] at taken
  cases label with
  | «begin» thread fd direction coro =>
    simp only at taken
    split at taken
    case isTrue free =>
      rw [Bool.and_eq_true] at free
      split at taken
      · cases taken
        exact sound
      · cases taken
        exact sound.begin free.1 free.2 coro
    case isFalse => cases taken
  | proceed thread =>
    obtain ⟨⟨fd, call⟩, calls, rfl⟩ := Option.map_eq_some_iff.mp taken
    exact sound.proceed calls
  | dispatch fd events =>
    simp only at taken
    split at taken
    case isTrue reported =>
      rw [Bool.and_eq_true] at reported
      cases taken
      cases direction : selected events with
      | none => exact sound
      | some direction' =>
        have settled : (selected events).all (reactor.settled fd) = true := dispatches
        rw [direction] at settled
        exact sound.resume reported.1 (sound.armed_of_reports reported.2 direction) settled
    case isFalse => cases taken
  | poll =>
    simp only at taken
    split at taken
    case isTrue free =>
      cases taken
      rw [Bool.and_eq_true, Option.isNone_iff_eq_none] at free
      exact { sound with polling := fun _ => free.2 }
    case isFalse => cases taken
  | shutdown =>
    cases taken
    exact { sound with registered := fun fd => ⟨(sound.registered fd).1, (sound.registered fd).2⟩ }

/-! ### The first call on a socket -/

/-- The process is alive, and the socket is attached as the kernel knows it. -/
structure Attached (reactor : Reactor) (fd : Fd) : Prop where
  running : reactor.manager.exited = false
  alive : reactor.resumedNull = false
  descriptor : (reactor.sockets fd).fd = fd
  registered : Registered reactor.manager (reactor.sockets fd)
  attached : (reactor.sockets fd).attached = true

theorem Attached.step_proceed {reactor : Reactor} {fd : Fd} (attached : reactor.Attached fd)
    {thread : Thread} {call : OpenCall} (calls : reactor.calls thread = some (fd, call)) :
    reactor.step (.proceed thread) = some (reactor.advance thread fd call) := by
  simp [Reactor.step, attached.running, attached.alive, calls]

theorem Attached.advance {reactor : Reactor} {fd : Fd} (attached : reactor.Attached fd)
    (thread : Thread) {call : OpenCall} (about : call.Attached (reactor.sockets fd)) :
    (reactor.advance thread fd call).Attached fd := by
  have advanced := OpenCall.advanced attached.registered about
  have here := socket_advance reactor thread fd call
  constructor
  case running => exact advanced.exited.trans attached.running
  case alive => exact attached.alive
  case descriptor => exact here ▸ advanced.fd.trans attached.descriptor
  case registered => exact here ▸ advanced.registered
  case attached => exact here ▸ advanced.attached attached.attached

theorem selected_events (direction : Direction) : selected direction.events = some direction := by
  cases direction <;> rfl

/-- An attached socket may have the events reported that it is registered with. -/
theorem Attached.reports {reactor : Reactor} {fd : Fd} (attached : reactor.Attached fd)
    {direction : Direction}
    (meets : (reactor.sockets fd).ioState.meet direction.events = true) :
    reactor.reports fd direction.events = true := by
  have interest := attached.registered.interest
  rw [attached.descriptor, if_pos attached.attached] at interest
  rw [Reactor.reports, interest, Option.any_some]
  cases direction with
  | recv =>
    have other : Direction.recv.events.meet epollout = false := rfl
    change (reactor.sockets fd).ioState.meet epollin = true at meets
    rw [meets, other, Bool.or_true, Bool.not_false, Bool.true_or]
    rfl
  | send =>
    have other : Direction.send.events.meet epollin = false := rfl
    change (reactor.sockets fd).ioState.meet epollout = true at meets
    rw [meets, other, Bool.or_true, Bool.not_false, Bool.true_or]
    rfl

/-- An event that is dispatched between storing the handle and registering the event
leaves the event registered for a handle that has been taken back. -/
theorem Attached.rearmed {reactor : Reactor} {fd : Fd} (attached : reactor.Attached fd)
    {direction : Direction} {coro : Coroutine} (polling : reactor.polling = false)
    (caller : reactor.calls .caller = some (fd, .rearm direction coro true))
    (loop : reactor.calls .loop = some (fd, .clear direction)) :
    ∃ later final, run Reactor.step reactor later = some final ∧ final.resumedNull = true := by
  -- the coroutine takes its handle back
  let cleared := reactor.advance .loop fd (.clear direction)
  have attached₁ : cleared.Attached fd := attached.advance .loop attached.attached
  have caller₁ : cleared.calls .caller = some (fd, .rearm direction coro true) :=
    (calls_advance_of_ne _ _ _ _ (by decide)).trans caller
  have loop₁ : cleared.calls .loop = some (fd, .disarm direction) := calls_advance_self _ _ _ _
  have null₁ : (cleared.sockets fd).handle.get direction = none := by
    rw [socket_advance, OpenCall.advance, Socket.setCoro, Handle.get_set, if_pos rfl]
  -- and its event
  let disarmed := cleared.advance .loop fd (.disarm direction)
  have attached₂ : disarmed.Attached fd := attached₁.advance .loop attached₁.attached
  have caller₂ : disarmed.calls .caller = some (fd, .rearm direction coro true) :=
    (calls_advance_of_ne _ _ _ _ (by decide)).trans caller₁
  have loop₂ : disarmed.calls .loop = none := calls_advance_self _ _ _ _
  have null₂ : (disarmed.sockets fd).handle.get direction = none := by
    rw [socket_advance]
    exact null₁
  let waiting : Reactor := { disarmed with polling := true }
  have attached₃ : waiting.Attached fd := { attached₂ with }
  have wait : disarmed.step .poll = some waiting := by
    have still : disarmed.polling = false := polling
    simp [Reactor.step, attached₂.running, attached₂.alive, loop₂, still, waiting]
  -- then the first call registers the event again
  let rearmed := waiting.advance .caller fd (.rearm direction coro true)
  have attached₄ : rearmed.Attached fd := attached₃.advance .caller attached₃.attached
  have null₄ : (rearmed.sockets fd).handle.get direction = none := by
    rw [socket_advance]
    exact null₂
  have armed₄ : (rearmed.sockets fd).ioState.meet direction.events = true := by
    have meets := meet_set (waiting.sockets fd).ioState direction direction
    rw [decide_eq_true rfl, Bool.or_true] at meets
    rw [socket_advance]
    exact meets
  have dispatch : rearmed.step (.dispatch fd direction.events) =
      some { rearmed with resumedNull := true } := by
    have resumes : rearmed.resume fd direction = { rearmed with resumedNull := true } := by
      rw [Reactor.resume, null₄]
    have polls : rearmed.polling = true := rfl
    simp [Reactor.step, attached₄.running, attached₄.alive, polls,
      attached₄.reports armed₄, selected_events, resumes]
  refine ⟨[.proceed .loop, .proceed .loop, .poll, .proceed .caller,
    .dispatch fd direction.events], { rearmed with resumedNull := true }, ?_, rfl⟩
  rw [run, attached.step_proceed loop, Option.bind_some, run, attached₁.step_proceed loop₁,
    Option.bind_some, run, wait, Option.bind_some, run, attached₃.step_proceed caller₂,
    Option.bind_some, run, dispatch, Option.bind_some, run]

theorem unsettled_spec {reactor : Reactor} {fd : Fd} {direction : Direction}
    (unsettled : ¬ reactor.settled fd direction = true) :
    ∃ coro, reactor.calls .caller = some (fd, .store direction coro true) ∨
      reactor.calls .caller = some (fd, .rearm direction coro true) ∧
        reactor.manager.isShutdown = false := by
  unfold settled at unsettled
  split at unsettled
  case h_1 other attached coro calls =>
    simp only [Bool.not_eq_true', Bool.not_eq_false, Bool.and_eq_true,
      decide_eq_true_eq] at unsettled
    obtain ⟨rfl, rfl⟩ := unsettled
    exact ⟨coro, Or.inl calls⟩
  case h_2 other attached coro calls =>
    simp only [Bool.or_eq_true, Bool.not_eq_true', not_or, Bool.not_eq_false, Bool.and_eq_true,
      decide_eq_true_eq, Bool.not_eq_true] at unsettled
    obtain ⟨⟨rfl, rfl⟩, up⟩ := unsettled
    exact ⟨coro, Or.inr ⟨calls, up⟩⟩
  case h_3 => exact absurd rfl unsettled

/-- An event that is dispatched while the first call of its direction is in progress
resumes null, now or later. -/
theorem Sound.unsettled {reactor next : Reactor} (sound : reactor.Sound) {fd : Fd}
    {events : Events} (taken : reactor.step (.dispatch fd events) = some next)
    (unsettled : ¬ reactor.Dispatches (.dispatch fd events)) :
    ∃ later final, run Reactor.step next later = some final ∧ final.resumedNull = true := by
  unfold Reactor.step at taken
  rw [if_neg sound.goesOn] at taken
  simp only at taken
  split at taken <;> cases taken
  cases chosen : selected events with
  | none => exact absurd (by rw [Dispatches, chosen]; rfl) unsettled
  | some direction =>
    have first : ¬ reactor.settled fd direction = true := by
      rwa [Dispatches, chosen, Option.all_some] at unsettled
    change ∃ later final, run Reactor.step (reactor.resume fd direction) later = some final ∧ _
    obtain ⟨coro, calls | ⟨calls, up⟩⟩ := unsettled_spec first
    · have null : (reactor.sockets fd).handle.get direction = none :=
        (sound.fits .caller fd _ calls).2.1
      refine ⟨[], reactor.resume fd direction, rfl, ?_⟩
      rw [Reactor.resume, null]
    · have fits := sound.fits .caller fd _ calls
      have stored : (reactor.sockets fd).handle.get direction = some coro := fits.2.1
      rw [Reactor.resume, stored, up]
      have attached : Attached (({ reactor with polling := false } : Reactor).setCall .loop
          (some (fd, .clear direction))) fd :=
        ⟨sound.running, sound.alive, sound.fd fd, sound.registered fd, fits.1⟩
      exact attached.rearmed rfl ((calls_setCall_of_ne _ (by decide) _).trans calls)
        (calls_setCall_self _ _ _)

end Reactor

/-- The event loop resumes no null coroutine as long as it dispatches no event to a
handle whose first call is in progress; where it does, it resumes one now or later. -/
theorem dispatch_resumes (steps : List ReactorStep) (final : Reactor)
    (dispatches : Along Reactor.step Reactor.Dispatches .initial steps)
    (ran : run Reactor.step .initial steps = some final) :
    final.resumedNull = false ∧
      ∀ fd events next, final.step (.dispatch fd events) = some next →
        ¬ final.Dispatches (.dispatch fd events) →
        ∃ later last, run Reactor.step next later = some last ∧ last.resumedNull = true := by
  have sound : final.Sound := invariant_along Reactor.step
    (fun _ _ _ sound dispatches taken => sound.step dispatches taken) .initial dispatches ran
  exact ⟨sound.alive, fun fd events next taken => sound.unsettled taken⟩

/-- A coroutine waits for the first time, is resumed, and waits again. -/
theorem dispatch_resumes_twice :
    ∃ final, run Reactor.step .initial
      [.begin .caller 3 .recv 7, .proceed .caller, .proceed .caller, .proceed .caller,
        .dispatch 3 epollin, .proceed .loop, .proceed .loop, .begin .loop 3 .recv 8,
        .proceed .loop, .proceed .loop, .proceed .loop, .poll, .dispatch 3 epollin] =
        some final ∧ final.resumedNull = false :=
  ⟨_, rfl, (dispatch_resumes
    [.begin .caller 3 .recv 7, .proceed .caller, .proceed .caller, .proceed .caller,
      .dispatch 3 epollin, .proceed .loop, .proceed .loop, .begin .loop 3 .recv 8,
      .proceed .loop, .proceed .loop, .proceed .loop, .poll, .dispatch 3 epollin] _
    ⟨trivial, trivial, trivial, trivial, rfl, trivial, trivial, trivial, trivial, trivial, trivial,
      trivial, rfl, trivial⟩ rfl).1⟩

/-- The descriptor becomes ready after it has been attached and before the handle of its
first coroutine is stored. -/
theorem dispatch_resumes_null :
    ∃ final, run Reactor.step .initial
      [.begin .caller 3 .recv 7, .proceed .caller, .dispatch 3 epollin] = some final ∧
        final.resumedNull = true :=
  ⟨_, rfl, rfl⟩

end Luce
