/-
This file proves that what epoll knows of a socket mirrors its coroutine handles.

Operations on any number of sockets of one event manager are made in any order, and
those on different sockets may run side by side, a step of one between two steps of
another. The manager may be shut down between any two steps. Whenever no operation on
an attached socket is in progress, epoll has the events of its `io_state_`, and these
are the edge trigger and the directions that a coroutine waits in.
-/

import Luce.Library.Transition
import Luce.Reactor.EventManager

namespace Luce

open Library Library.Transition

/-! ### The edge trigger -/

theorem meet_epollet (events : Events) : events.meet epollet = events.getLsbD 31 := by
  have bit : epollet = BitVec.twoPow 32 31 := rfl
  rw [Events.meet, bit, BitVec.and_twoPow]
  cases events.getLsbD 31 <;> rfl

theorem meet_epollet_set (events : Events) (direction : Direction) :
    (events ||| direction.events).meet epollet = events.meet epollet := by
  rw [meet_epollet, meet_epollet, BitVec.getLsbD_or]
  cases direction <;> exact Bool.or_false _

theorem meet_epollet_clear (events : Events) (direction : Direction) :
    (events &&& ~~~direction.events).meet epollet = events.meet epollet := by
  rw [meet_epollet, meet_epollet, BitVec.getLsbD_and]
  cases direction <;> exact Bool.and_true _

theorem meet_epollet_attached (direction : Direction) :
    (direction.events ||| epollet).meet epollet = true := by
  cases direction <;> rfl

/-! ### The system -/

/-- The sockets of one manager, and the operation that is in progress on each of them. -/
structure Watched where
  manager : EventManager
  sockets : Fd → Socket
  calls : Fd → Option OpenCall

inductive WatchStep where
  /-- `AddRecv` or `AddSend` of the socket is called. -/
  | add (fd : Fd) (direction : Direction) (coro : Coroutine)
  /-- `DelRecv` or `DelSend` of the socket is called. -/
  | del (fd : Fd) (direction : Direction)
  /-- The operation on the socket takes its next step. -/
  | proceed (fd : Fd)
  | shutdown
deriving DecidableEq, Repr

namespace Watched

/-- Open sockets that nothing waits for. -/
def initial : Watched :=
  ⟨⟨false, ⟨fun _ => true, fun _ => none, []⟩, false⟩, Socket.new, fun _ => none⟩

/-- An operation begins, unless the manager has been shut down. -/
def begin (watched : Watched) (fd : Fd) (call : OpenCall) : Watched :=
  if watched.manager.isShutdown then watched
  else { watched with calls := Function.update watched.calls fd (some call) }

/-- The operation on the socket takes its next step. -/
def proceed (watched : Watched) (fd : Fd) (call : OpenCall) : Watched :=
  let ((manager, socket), next) := call.advance watched.manager (watched.sockets fd)
  { manager
    sockets := Function.update watched.sockets fd socket
    calls := Function.update watched.calls fd next }

def step (watched : Watched) (label : WatchStep) : Option Watched :=
  if watched.manager.exited then none
  else
    match label with
    | .add fd direction coro =>
      if (watched.calls fd).isNone then some (watched.begin fd (.attach direction coro)) else none
    | .del fd direction =>
      if (watched.calls fd).isNone && (watched.sockets fd).attached then
        some (watched.begin fd (.clear direction))
      else none
    | .proceed fd => (watched.calls fd).map (watched.proceed fd)
    | .shutdown => some { watched with manager := { watched.manager with isShutdown := true } }

end Watched

/-- The socket that a step is about. -/
def WatchStep.fd : WatchStep → Option Fd
  | .add fd _ _ | .del fd _ | .proceed fd => some fd
  | .shutdown => none

/-! ### What an operation finds -/

/-- The socket is armed for the direction if and only if a coroutine waits in it. -/
def Socket.Mirrors (socket : Socket) (direction : Direction) : Prop :=
  socket.armed direction = (socket.handle.get direction).isSome

/-- What an operation in progress can rely on, in its own direction. -/
def OpenCall.Meets (socket : Socket) : OpenCall → Prop
  | .attach direction _ => socket.Mirrors direction
  | .store _ _ _ => socket.attached = true
  | .rearm direction coro _ =>
    socket.attached = true ∧ socket.handle.get direction = some coro
  | .clear _ => socket.attached = true
  | .disarm direction => socket.attached = true ∧ socket.handle.get direction = none

/-- While the socket is attached, it is registered as edge-triggered. -/
def Socket.Edged (socket : Socket) : Prop :=
  socket.attached = true → socket.ioState.meet epollet = true

/-- A socket with the operation in progress on it: it is registered, and mirrors its
handles in every direction that no operation is about. -/
structure Watches (manager : EventManager) (socket : Socket) (call : Option OpenCall) : Prop where
  registered : Registered manager socket
  edged : socket.Edged
  meets : ∀ current, call = some current → current.Meets socket
  mirrors : ∀ direction, (∀ current, call = some current → current.direction ≠ direction) →
    socket.Mirrors direction

/-- Where no operation is in progress, all directions are mirrored. -/
theorem Watches.mirrors_idle {manager : EventManager} {socket : Socket}
    (watches : Watches manager socket none) (direction : Direction) : socket.Mirrors direction :=
  watches.mirrors direction nofun

namespace OpenCall

theorem Meets.attached {socket : Socket} {call : OpenCall} (meets : call.Meets socket) :
    call.Attached socket := by
  cases call with
  | attach => trivial
  | store => exact meets
  | rearm => exact meets.1
  | clear => exact meets
  | disarm => exact meets.1

/-- The next step finds what it relies on. -/
theorem Meets.advance {manager : EventManager} {socket : Socket} {call next : OpenCall}
    (meets : call.Meets socket) (more : (call.advance manager socket).2 = some next) :
    next.direction = call.direction ∧ next.Meets (call.advance manager socket).1.2 := by
  cases call with
  | attach direction coro =>
    cases more
    refine ⟨rfl, ?_⟩
    simp only [OpenCall.advance, EventManager.attachFirst]
    split
    · assumption
    · rfl
  | store direction coro first =>
    cases more
    refine ⟨rfl, meets, ?_⟩
    rw [OpenCall.advance, Socket.setCoro, Handle.get_set, if_pos rfl]
  | rearm => cases more
  | clear direction =>
    cases more
    refine ⟨rfl, meets, ?_⟩
    rw [OpenCall.advance, Socket.setCoro, Handle.get_set, if_pos rfl]
  | disarm => cases more

/-- An operation that returns leaves its direction mirrored. -/
theorem Meets.returns {manager : EventManager} {socket : Socket} {call : OpenCall}
    (meets : call.Meets socket) (last : (call.advance manager socket).2 = none) :
    (call.advance manager socket).1.2.Mirrors call.direction := by
  cases call with
  | attach => cases last
  | store => cases last
  | rearm direction coro first =>
    obtain ⟨attached, stored⟩ := meets
    show (socket.attached && (socket.ioState ||| direction.events).meet direction.events) =
      (socket.handle.get direction).isSome
    rw [attached, stored, meet_set, decide_eq_true rfl, Bool.or_true]
    rfl
  | clear => cases last
  | disarm direction =>
    obtain ⟨attached, cleared⟩ := meets
    show (socket.attached && (socket.ioState &&& ~~~direction.events).meet direction.events) =
      (socket.handle.get direction).isSome
    rw [attached, cleared, meet_clear, decide_eq_false (not_not.mpr rfl), Bool.and_false]
    rfl

/-- The steps that an operation has left. -/
def remaining : OpenCall → Nat
  | .attach _ _ => 3
  | .store _ _ _ | .clear _ => 2
  | .rearm _ _ _ | .disarm _ => 1

theorem remaining_advance {manager : EventManager} {socket : Socket} {call next : OpenCall}
    (more : (call.advance manager socket).2 = some next) :
    next.remaining + 1 = call.remaining := by
  cases call <;> cases more <;> rfl

/-- No step of an operation takes the edge trigger away. -/
theorem edged_advance {manager : EventManager} {socket : Socket} (call : OpenCall)
    (attached : call.Attached socket) (edged : socket.Edged) :
    (call.advance manager socket).1.2.Edged := by
  cases call with
  | attach direction coro =>
    simp only [OpenCall.advance, EventManager.attachFirst]
    split
    · exact edged
    · exact fun _ => meet_epollet_attached direction
  | store => exact edged
  | rearm direction => exact fun _ => (meet_epollet_set _ direction).trans (edged attached)
  | clear => exact edged
  | disarm direction => exact fun _ => (meet_epollet_clear _ direction).trans (edged attached)

end OpenCall

theorem Advanced.mirrors {manager after : EventManager} {socket moved : Socket}
    {direction other : Direction} (advanced : Advanced manager socket direction after moved)
    (apart : other ≠ direction) (mirrors : socket.Mirrors other) : moved.Mirrors other := by
  rw [Socket.Mirrors, advanced.armed other apart, advanced.handle other apart]
  exact mirrors

/-- A step of an operation keeps what is known of its socket. -/
theorem Watches.advance {manager : EventManager} {socket : Socket} {call : OpenCall}
    (watches : Watches manager socket (some call)) :
    Watches (call.advance manager socket).1.1 (call.advance manager socket).1.2
      (call.advance manager socket).2 := by
  have meets := watches.meets call rfl
  have advanced := OpenCall.advanced watches.registered meets.attached
  refine ⟨advanced.registered, call.edged_advance meets.attached watches.edged,
    fun next more => (meets.advance more).2, fun direction apart => ?_⟩
  by_cases about : direction = call.direction
  · subst about
    cases more : (call.advance manager socket).2 with
    | none => exact meets.returns more
    | some next => exact absurd (meets.advance more).1 (apart next more)
  · refine advanced.mirrors about (watches.mirrors direction fun current same => ?_)
    exact Option.some.inj same ▸ Ne.symm about

/-- An operation that begins finds what it relies on. -/
theorem Watches.begin {manager : EventManager} {socket : Socket}
    (watches : Watches manager socket none) {call : OpenCall} (meets : call.Meets socket) :
    Watches manager socket (some call) where
  registered := watches.registered
  edged := watches.edged
  meets _ same := Option.some.inj same ▸ meets
  mirrors direction _ := watches.mirrors_idle direction

/-- What is known of a socket lasts while nothing is done with its descriptor. -/
theorem Watches.beside {manager after : EventManager} {socket : Socket} {call : Option OpenCall}
    (watches : Watches manager socket call) (opened : after.kernel.opened = manager.kernel.opened)
    (interest : after.kernel.interest socket.fd = manager.kernel.interest socket.fd) :
    Watches after socket call where
  registered := ⟨by rw [opened]; exact watches.registered.opened,
    interest.trans watches.registered.interest⟩
  edged := watches.edged
  meets := watches.meets
  mirrors := watches.mirrors

/-! ### What every step keeps -/

namespace Watched

structure Sound (watched : Watched) : Prop where
  running : watched.manager.exited = false
  fd : ∀ fd, (watched.sockets fd).fd = fd
  watches : ∀ fd, Watches watched.manager (watched.sockets fd) (watched.calls fd)

theorem Sound.initial : initial.Sound where
  running := rfl
  fd _ := rfl
  watches _ := ⟨⟨rfl, rfl⟩, nofun, nofun, fun direction _ => by cases direction <;> rfl⟩

theorem Sound.watches_idle {watched : Watched} (sound : watched.Sound) {fd : Fd}
    (idle : watched.calls fd = none) : Watches watched.manager (watched.sockets fd) none := by
  rw [← idle]
  exact sound.watches fd

theorem Sound.begin {watched : Watched} (sound : watched.Sound) {fd : Fd} {call : OpenCall}
    (idle : watched.calls fd = none) (meets : call.Meets (watched.sockets fd)) :
    (watched.begin fd call).Sound := by
  unfold Watched.begin
  split
  · exact sound
  · refine ⟨sound.running, sound.fd, fun other => ?_⟩
    by_cases same : other = fd
    · subst same
      simp only [Function.update_self]
      exact (sound.watches_idle idle).begin meets
    · simp only [Function.update_of_ne same]
      exact sound.watches other

/-- What a step of an operation leaves of the other sockets. -/
theorem Sound.advanced {watched : Watched} (sound : watched.Sound) {fd : Fd} {call : OpenCall}
    (current : watched.calls fd = some call) :
    Advanced watched.manager (watched.sockets fd) call.direction
      (call.advance watched.manager (watched.sockets fd)).1.1
      (call.advance watched.manager (watched.sockets fd)).1.2 :=
  OpenCall.advanced (sound.watches fd).registered ((sound.watches fd).meets call current).attached

theorem Sound.proceed {watched : Watched} (sound : watched.Sound) {fd : Fd} {call : OpenCall}
    (current : watched.calls fd = some call) : (watched.proceed fd call).Sound := by
  have advanced := sound.advanced current
  have watches := sound.watches fd
  rw [current] at watches
  refine ⟨advanced.exited.trans sound.running, fun other => ?_, fun other => ?_⟩
  · by_cases same : other = fd
    · subst same
      simp only [Watched.proceed, Function.update_self]
      exact advanced.fd.trans (sound.fd other)
    · simp only [Watched.proceed, Function.update_of_ne same]
      exact sound.fd other
  · by_cases same : other = fd
    · subst same
      simp only [Watched.proceed, Function.update_self]
      exact watches.advance
    · simp only [Watched.proceed, Function.update_of_ne same]
      refine (sound.watches other).beside advanced.opened (advanced.others _ ?_)
      rwa [sound.fd, sound.fd]

/-- What a step can do while the process runs. -/
inductive Takes (watched : Watched) : WatchStep → Watched → Prop
  | add {fd : Fd} (idle : watched.calls fd = none) (direction : Direction) (coro : Coroutine) :
    Takes watched (.add fd direction coro) (watched.begin fd (.attach direction coro))
  | del {fd : Fd} (idle : watched.calls fd = none)
    (attached : (watched.sockets fd).attached = true) (direction : Direction) :
    Takes watched (.del fd direction) (watched.begin fd (.clear direction))
  | proceed {fd : Fd} {call : OpenCall} (current : watched.calls fd = some call) :
    Takes watched (.proceed fd) (watched.proceed fd call)
  | shutdown :
    Takes watched .shutdown
      { watched with manager := { watched.manager with isShutdown := true } }

theorem takes_of_step {watched next : Watched} {label : WatchStep}
    (taken : step watched label = some next) : watched.Takes label next := by
  unfold step at taken
  split at taken
  · cases taken
  cases label with
  | add fd direction coro =>
    obtain ⟨idle, same⟩ := Option.ite_none_right_eq_some.mp taken
    exact Option.some.inj same ▸ .add (Option.isNone_iff_eq_none.mp idle) direction coro
  | del fd direction =>
    obtain ⟨enabled, same⟩ := Option.ite_none_right_eq_some.mp taken
    obtain ⟨idle, attached⟩ := Bool.and_eq_true_iff.mp enabled
    exact Option.some.inj same ▸ .del (Option.isNone_iff_eq_none.mp idle) attached direction
  | proceed fd =>
    obtain ⟨call, current, same⟩ := Option.map_eq_some_iff.mp taken
    exact same ▸ .proceed current
  | shutdown => exact Option.some.inj taken ▸ .shutdown

theorem Sound.takes {watched next : Watched} {label : WatchStep} (sound : watched.Sound)
    (takes : watched.Takes label next) : next.Sound := by
  cases takes with
  | add idle direction coro =>
    exact sound.begin idle ((sound.watches_idle idle).mirrors_idle direction)
  | del idle attached direction => exact sound.begin idle attached
  | proceed current => exact sound.proceed current
  | shutdown => exact ⟨sound.running, sound.fd, fun fd => (sound.watches fd).beside rfl rfl⟩

/-- Whatever is reached is sound. -/
theorem Sound.run {watched : Watched} {labels : List WatchStep}
    (ran : Transition.run step Watched.initial labels = some watched) : watched.Sound :=
  invariant_run step (fun _ _ _ sound taken => sound.takes (takes_of_step taken)) .initial ran

theorem begin_sockets (watched : Watched) (fd : Fd) (call : OpenCall) :
    (watched.begin fd call).sockets = watched.sockets := by
  unfold Watched.begin
  split <;> rfl

theorem begin_manager (watched : Watched) (fd : Fd) (call : OpenCall) :
    (watched.begin fd call).manager = watched.manager := by
  unfold Watched.begin
  split <;> rfl

/-- A step changes nothing of the sockets that it is not about. -/
theorem Sound.others {watched next : Watched} {label : WatchStep} (sound : watched.Sound)
    (takes : watched.Takes label next) {other : Fd} (apart : label.fd ≠ some other) :
    next.sockets other = watched.sockets other ∧
      next.manager.kernel.interest other = watched.manager.kernel.interest other := by
  cases takes with
  | add | del => rw [begin_sockets, begin_manager]; exact ⟨rfl, rfl⟩
  | @proceed fd call current =>
    have distinct : other ≠ fd := fun same => apart (congrArg some same.symm)
    refine ⟨Function.update_of_ne distinct _ _, (sound.advanced current).others other ?_⟩
    rwa [sound.fd]
  | shutdown => exact ⟨rfl, rfl⟩

/-! ### Whole operations -/

/-- An operation that has been finished, from a state where none was in progress on its
socket or the last one is about to return. -/
def finished (watched : Watched) (fd : Fd) (after : EventManager × Socket) : Watched :=
  ⟨after.1, Function.update watched.sockets fd after.2, Function.update watched.calls fd none⟩

theorem finished_proceed (watched : Watched) (fd : Fd) (call : OpenCall)
    (after : EventManager × Socket) :
    (watched.proceed fd call).finished fd after = watched.finished fd after := by
  simp only [finished, proceed, Function.update_idem]

/-- Where no operation is in progress, one that does nothing leaves everything as it is. -/
theorem finished_self {watched : Watched} {fd : Fd} (idle : watched.calls fd = none) :
    watched.finished fd (watched.manager, watched.sockets fd) = watched := by
  rw [finished, Function.update_eq_self, ← idle, Function.update_eq_self]

theorem step_proceed {watched : Watched} (running : watched.manager.exited = false) {fd : Fd}
    {call : OpenCall} (current : watched.calls fd = some call) :
    step watched (.proceed fd) = some (watched.proceed fd call) := by
  simp only [step, running, Bool.false_eq_true, if_false, current, Option.map_some]

/-- Step by step, an operation comes to what it does as a whole. -/
theorem Sound.reaches_finish (steps : Nat) : ∀ {watched : Watched}, watched.Sound →
    ∀ {fd : Fd} {call : OpenCall}, watched.calls fd = some call → call.remaining ≤ steps →
      Reaches step watched (watched.finished fd
        (OpenCall.finish steps (watched.manager, watched.sockets fd) (some call))) := by
  induction steps with
  | zero =>
    intro _ _ _ call _ fits
    cases call <;> cases fits
  | succ steps inductionHypothesis =>
    intro watched sound fd call current fits
    have more := sound.proceed current
    rw [OpenCall.finish, if_neg (Bool.eq_false_iff.mp sound.running)]
    refine .head (step_proceed sound.running current) ?_
    rw [← finished_proceed watched fd call]
    have socket : (watched.proceed fd call).sockets fd =
        (call.advance watched.manager (watched.sockets fd)).1.2 := Function.update_self _ _ _
    have world : (call.advance watched.manager (watched.sockets fd)).1 =
        ((watched.proceed fd call).manager, (watched.proceed fd call).sockets fd) :=
      Prod.ext rfl socket.symm
    have later : (watched.proceed fd call).calls fd =
        (call.advance watched.manager (watched.sockets fd)).2 := Function.update_self _ _ _
    rw [world]
    cases next : (call.advance watched.manager (watched.sockets fd)).2 with
    | none =>
      rw [next] at later
      have done : OpenCall.finish steps ((watched.proceed fd call).manager,
          (watched.proceed fd call).sockets fd) none =
            ((watched.proceed fd call).manager, (watched.proceed fd call).sockets fd) := by
        cases steps <;> rfl
      rw [done, finished_self later]
      exact .refl step _
    | some following =>
      rw [next] at later
      have := OpenCall.remaining_advance next
      exact inductionHypothesis more later (by omega)

/-- An operation that has begun comes to what it does as a whole, unless the manager has
been shut down. -/
theorem Sound.reaches_begin {watched : Watched} (sound : watched.Sound) {fd : Fd}
    (idle : watched.calls fd = none) (up : watched.manager.isShutdown = false) {call : OpenCall}
    (meets : call.Meets (watched.sockets fd)) :
    Reaches step (watched.begin fd call) (watched.finished fd
      (OpenCall.finish call.remaining (watched.manager, watched.sockets fd) (some call))) := by
  have begun := sound.begin idle meets
  rw [Watched.begin, if_neg (Bool.eq_false_iff.mp up)] at begun ⊢
  have reaches := begun.reaches_finish call.remaining (Function.update_self _ _ _) (le_refl _)
  simpa only [finished, Function.update_idem] using reaches

/-- `AddRecv` and `AddSend` as a whole, where no other operation is in progress. -/
theorem Sound.reaches_add {watched : Watched} (sound : watched.Sound) {fd : Fd}
    (idle : watched.calls fd = none) (direction : Direction) (coro : Coroutine) :
    Reaches step watched (watched.finished fd
      (EventManager.add direction coro watched.manager (watched.sockets fd))) := by
  have taken : step watched (.add fd direction coro) =
      some (watched.begin fd (.attach direction coro)) := by
    simp only [step, sound.running, idle, Option.isNone_none, Bool.false_eq_true, if_false, if_true]
  cases up : watched.manager.isShutdown with
  | true =>
    rw [EventManager.add, if_pos up, finished_self idle]
    exact .refl step _
  | false =>
    have mirrors := (sound.watches_idle idle).mirrors_idle direction
    rw [EventManager.add_eq_finish sound.running up]
    exact .head taken (sound.reaches_begin idle up mirrors)

/-- `DelRecv` and `DelSend` of an attached socket as a whole, where no other operation is in
progress. -/
theorem Sound.reaches_del {watched : Watched} (sound : watched.Sound) {fd : Fd}
    (idle : watched.calls fd = none) (attached : (watched.sockets fd).attached = true)
    (direction : Direction) :
    Reaches step watched (watched.finished fd
      (EventManager.del direction watched.manager (watched.sockets fd))) := by
  have taken : step watched (.del fd direction) =
      some (watched.begin fd (.clear direction)) := by
    simp only [step, sound.running, idle, attached, Option.isNone_none, Bool.and_self,
      Bool.false_eq_true, if_false, if_true]
  cases up : watched.manager.isShutdown with
  | true =>
    rw [EventManager.del, if_pos up, finished_self idle]
    exact .refl step _
  | false =>
    rw [EventManager.del_eq_finish sound.running up]
    exact .head taken (sound.reaches_begin idle up attached)

end Watched

/-! ### Interest and handles -/

/-- Epoll has the events of the socket's `io_state_`, which are the edge trigger and the
directions that a coroutine waits in. -/
structure Mirrored (manager : EventManager) (socket : Socket) : Prop where
  interest : manager.kernel.interest socket.fd = some socket.ioState
  edge : socket.ioState.meet epollet = true
  recv : socket.ioState.meet epollin = true ↔ socket.handle.recvCoro ≠ none
  send : socket.ioState.meet epollout = true ↔ socket.handle.sendCoro ≠ none

theorem Watches.mirrored {manager : EventManager} {socket : Socket}
    (watches : Watches manager socket none) (attached : socket.attached = true) :
    Mirrored manager socket := by
  have waits : ∀ direction : Direction, socket.ioState.meet direction.events = true ↔
      socket.handle.get direction ≠ none := by
    intro direction
    have mirrors := watches.mirrors_idle direction
    rw [Socket.Mirrors, Socket.armed, attached, Bool.true_and] at mirrors
    rw [mirrors, Option.isSome_iff_ne_none]
  refine ⟨?_, watches.edged attached, waits .recv, waits .send⟩
  rw [watches.registered.interest, if_pos attached]

namespace Watched

/-- In every state that a run reaches, the process runs and every attached socket that no
operation is in progress on is mirrored; and no step that is possible there changes
anything of the sockets that it is not about. -/
theorem mirrored_of_run (labels : List WatchStep) (watched : Watched)
    (ran : run step initial labels = some watched) :
    watched.manager.exited = false ∧
    (∀ fd, (watched.sockets fd).attached = true → watched.calls fd = none →
      Mirrored watched.manager (watched.sockets fd)) ∧
    ∀ label next other, step watched label = some next → label.fd ≠ some other →
      next.sockets other = watched.sockets other ∧
        next.manager.kernel.interest other = watched.manager.kernel.interest other := by
  have sound := Sound.run ran
  exact ⟨sound.running, fun _ attached idle => (sound.watches_idle idle).mirrored attached,
    fun _ _ _ taken apart => sound.others (takes_of_step taken) apart⟩

/-- Operations on two sockets, and a shutdown while they are in progress. -/
def sampleSteps : List WatchStep :=
  [.add 3 .recv 7, .proceed 3, .add 5 .send 8, .proceed 3, .shutdown, .proceed 5, .proceed 5,
    .proceed 3, .proceed 5, .del 5 .send]

theorem mirrored_sample :
    ∃ watched, run step initial sampleSteps = some watched ∧
      Mirrored watched.manager (watched.sockets 3) ∧
        Mirrored watched.manager (watched.sockets 5) := by
  refine ⟨_, rfl, ?_, ?_⟩
  · exact (mirrored_of_run sampleSteps _ rfl).2.1 3 rfl rfl
  · exact (mirrored_of_run sampleSteps _ rfl).2.1 5 rfl rfl

end Watched

end Luce
