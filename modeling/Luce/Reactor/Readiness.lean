/-
This file proves what every step of the event loop keeps.

A coroutine that waits is registered for its direction and no other. Its descriptor is on
the ready list or in the batch of the loop as soon as it is ready: whatever has come before
the registration is found by `epoll_ctl`, and whatever comes later is signalled. What has
been reported stays true until the coroutine runs, so nobody is woken for nothing. A
connection that has been closed is registered for nothing, and is on no list.
-/

import Luce.Reactor.EventLoop
import Luce.Reactor.Interest
import Luce.Reactor.Lifetime

namespace Luce

open Library.Transition

namespace CoroPhase

/-- The call of the event manager that the coroutine is in. -/
def call : CoroPhase → Option OpenCall
  | .adding call | .deleting call => some call
  | .running | .asking _ | .suspending _ | .waiting _ | .retrying _ | .ended => none

/-- The direction that the handle of the coroutine is stored for. -/
def holds : CoroPhase → Option Direction
  | .waiting direction | .adding (.rearm direction _ _) | .deleting (.clear direction) =>
    some direction
  | _ => none

/-- The direction that the coroutine has been resumed for. -/
def resumed : CoroPhase → Option Direction
  | .deleting call => some call.direction
  | .retrying direction => some direction
  | .running | .asking _ | .suspending _ | .adding _ | .waiting _ | .ended => none

/-- The direction that an event may have been reported for. -/
def awaits : CoroPhase → Option Direction
  | .waiting direction | .adding (.store direction _ _) | .adding (.rearm direction _ _) =>
    some direction
  | _ => none

/-- The calls of `await_suspend` add, and those of `await_resume` delete. -/
def Shaped : CoroPhase → Prop
  | .adding (.clear _) | .adding (.disarm _) => False
  | .deleting (.attach _ _) | .deleting (.store _ _ _) | .deleting (.rearm _ _ _) => False
  | _ => True

/-- The coroutine runs, and is neither registered nor resumed for anything. -/
def Plain (phase : CoroPhase) : Prop :=
  phase = .running ∨ (∃ direction, phase = .asking direction) ∨
    ∃ direction, phase = .suspending direction

/-- What all plain phases have in common. -/
theorem Plain.spec {phase : CoroPhase} (plain : phase.Plain) :
    phase.call = none ∧ phase.holds = none ∧ phase.resumed = none ∧ phase.awaits = none ∧
      phase.stops = false ∧ phase.Shaped := by
  obtain rfl | ⟨direction, rfl⟩ | ⟨direction, rfl⟩ := plain <;>
    exact ⟨rfl, rfl, rfl, rfl, rfl, trivial⟩

end CoroPhase

namespace OpenCall

/-- A call that changes what a closed descriptor is registered with makes the process exit. -/
theorem advance_of_closed {manager : EventManager} {socket : Socket} {call : OpenCall}
    (closed : manager.kernel.opened socket.fd = false)
    (running : (call.advance manager socket).1.1.exited = false) :
    (call.advance manager socket).1.1 = manager ∧ call.registers socket = false := by
  cases call with
  | store | clear => exact ⟨rfl, rfl⟩
  | attach direction coro =>
    cases attached : socket.attached with
    | true => simp [OpenCall.advance, EventManager.attachFirst, OpenCall.registers, attached]
    | false =>
      simp [OpenCall.advance, EventManager.attachFirst, EventManager.attach, EventManager.epollCtl,
        Kernel.admits, attached, closed] at running
  | rearm | disarm =>
    simp [OpenCall.advance, EventManager.rearm, EventManager.disarm, EventManager.updateEvent,
      EventManager.epollCtl, Kernel.admits, closed] at running

/-- Which handles there are behind a step. -/
theorem handle_advance (manager : EventManager) (socket : Socket) (call : OpenCall)
    (direction : Direction) :
    (call.advance manager socket).1.2.handle.get direction =
      match call with
      | .store own coro _ => if own = direction then some coro else socket.handle.get direction
      | .clear own => if own = direction then none else socket.handle.get direction
      | .attach _ _ | .rearm _ _ _ | .disarm _ => socket.handle.get direction := by
  cases call with
  | store | clear => exact Handle.get_set ..
  | rearm | disarm => rfl
  | attach =>
    simp only [OpenCall.advance, EventManager.attachFirst]
    split <;> rfl

end OpenCall

namespace EventLoop

/-! ### What epoll reports -/

theorem reports_eq (loop : EventLoop) (fd : Fd) :
    loop.reports fd =
      if loop.armed fd .recv && (loop.connections fd).ready .recv then some .recv
      else if loop.armed fd .send && (loop.connections fd).ready .send then some .send
      else none := by
  unfold reports event
  cases loop.armed fd .recv && (loop.connections fd).ready .recv <;>
    cases loop.armed fd .send && (loop.connections fd).ready .send <;> rfl

/-- What is reported is registered and there. -/
theorem of_reports {loop : EventLoop} {fd : Fd} {direction : Direction}
    (reported : loop.reports fd = some direction) :
    loop.armed fd direction = true ∧ (loop.connections fd).ready direction = true := by
  rw [reports_eq] at reported
  split at reported
  case isTrue receives =>
    cases reported
    exact Bool.and_eq_true_iff.mp receives
  case isFalse =>
    split at reported
    case isTrue sends =>
      cases reported
      exact Bool.and_eq_true_iff.mp sends
    case isFalse => cases reported

/-- What is registered and there is reported, unless something else is. -/
theorem isSome_reports {loop : EventLoop} {fd : Fd} {direction : Direction}
    (armed : loop.armed fd direction = true)
    (ready : (loop.connections fd).ready direction = true) : (loop.reports fd).isSome = true := by
  rw [reports_eq]
  cases direction with
  | recv =>
    rw [armed, ready]
    rfl
  | send =>
    rw [armed, ready]
    split <;> rfl

/-! ### What a step leaves alone -/

/-- Everything but this connection is as it was. -/
structure Leaves (fd : Fd) (loop next : EventLoop) : Prop where
  connections : ∀ other, other ≠ fd → next.connections other = loop.connections other
  opened : ∀ other, other ≠ fd →
    next.manager.kernel.opened other = loop.manager.kernel.opened other
  interest : ∀ other, other ≠ fd →
    next.manager.kernel.interest other = loop.manager.kernel.interest other
  listed : ∀ other, other ≠ fd → (other ∈ next.listed ↔ other ∈ loop.listed)
  batch : ∀ other direction, other ≠ fd →
    ((other, direction) ∈ next.batch ↔ (other, direction) ∈ loop.batch)
  current : ∀ other, other ≠ fd → (next.current = some other ↔ loop.current = some other)

theorem Leaves.refl (fd : Fd) (loop : EventLoop) : Leaves fd loop loop :=
  ⟨fun _ _ => rfl, fun _ _ => rfl, fun _ _ => rfl, fun _ _ => .rfl, fun _ _ _ => .rfl,
    fun _ _ => .rfl⟩

theorem Leaves.trans {fd : Fd} {loop middle next : EventLoop} (first : Leaves fd loop middle)
    (second : Leaves fd middle next) : Leaves fd loop next where
  connections other apart := (second.connections other apart).trans (first.connections other apart)
  opened other apart := (second.opened other apart).trans (first.opened other apart)
  interest other apart := (second.interest other apart).trans (first.interest other apart)
  listed other apart := (second.listed other apart).trans (first.listed other apart)
  batch other direction apart :=
    (second.batch other direction apart).trans (first.batch other direction apart)
  current other apart := (second.current other apart).trans (first.current other apart)

theorem leaves_setConnection (loop : EventLoop) (fd : Fd) (conn : Connection) :
    Leaves fd loop (loop.setConnection fd conn) :=
  { Leaves.refl fd loop with connections := fun _ apart => Function.update_of_ne apart _ _ }

theorem leaves_enlist (loop : EventLoop) (fd : Fd) : Leaves fd loop (loop.enlist fd) := by
  refine { Leaves.refl fd loop with listed := fun other apart => ?_ }
  unfold enlist
  split
  · exact Iff.rfl
  · simp [apart]

theorem leaves_recheck (loop : EventLoop) (fd : Fd) : Leaves fd loop (loop.recheck fd) := by
  unfold recheck
  split
  · exact leaves_enlist loop fd
  · exact .refl fd loop

theorem leaves_signal (loop : EventLoop) (fd : Fd) (direction : Direction) :
    Leaves fd loop (loop.signal fd direction) := by
  unfold signal
  split
  · exact leaves_enlist loop fd
  · exact .refl fd loop

theorem leaves_handBack (loop : EventLoop) (fd : Fd) : Leaves fd loop (loop.handBack fd) := by
  refine { Leaves.refl fd loop with current := fun other apart => ?_ }
  simp only [handBack]
  split
  case isTrue stops =>
    have here := of_decide_eq_true (Bool.and_eq_true_iff.mp stops).1
    rw [here]
    exact ⟨nofun, fun same => absurd (Option.some.inj same).symm apart⟩
  case isFalse => exact Iff.rfl

/-- Being put on the ready list, and staying there. -/
theorem mem_enlist (loop : EventLoop) (fd : Fd) : fd ∈ (loop.enlist fd).listed := by
  unfold enlist
  split
  · assumption
  · exact List.mem_append_right _ (List.mem_singleton_self fd)

theorem nodup_enlist {loop : EventLoop} (nodup : loop.listed.Nodup) (fd : Fd) :
    (loop.enlist fd).listed.Nodup := by
  unfold enlist
  split
  case isTrue => exact nodup
  case isFalse absent =>
    change (loop.listed ++ [fd]).Nodup
    rw [← List.concat_eq_append]
    exact nodup.concat absent

/-! ### What every step keeps -/

/-- What is known of a connection. -/
structure Tracks (loop : EventLoop) (fd : Fd) : Prop where
  numbered : (loop.connections fd).socket.fd = fd
  shaped : (loop.connections fd).phase.Shaped
  watches : (loop.connections fd).isClosed = false →
    Watches loop.manager (loop.connections fd).socket (loop.connections fd).phase.call
  handles : (loop.connections fd).isClosed = false → ∀ direction,
    ((loop.connections fd).socket.handle.get direction).isSome =
      decide ((loop.connections fd).phase.holds = some direction)
  closed : (loop.connections fd).isClosed = true →
    loop.manager.kernel.opened fd = false ∧ loop.manager.kernel.interest fd = none ∧
      fd ∉ loop.listed
  resumed : ∀ direction, (loop.connections fd).phase.resumed = some direction →
    loop.current = some fd ∧
      ((loop.connections fd).isClosed = true ∨ (loop.connections fd).ready direction = true)
  listed : ∀ direction, (loop.connections fd).isClosed = false →
    (loop.connections fd).phase = .waiting direction →
      (loop.connections fd).ready direction = true →
        fd ∈ loop.listed ∨ (fd, direction) ∈ loop.batch
  batch : ∀ direction, (fd, direction) ∈ loop.batch →
    (loop.connections fd).phase.awaits = some direction ∧
      ((loop.connections fd).isClosed = true ∨ (loop.connections fd).ready direction = true)
  current : loop.current = some fd → (loop.connections fd).phase.stops = false

structure Sound (loop : EventLoop) : Prop where
  running : loop.manager.exited = false
  tracks : ∀ fd, loop.Tracks fd
  listed : loop.listed.Nodup
  batch : (loop.batch.map Prod.fst).Nodup

theorem Tracks.initial (fd : Fd) : initial.Tracks fd where
  numbered := rfl
  shaped := trivial
  watches _ :=
    ⟨⟨rfl, rfl⟩, nofun, nofun, fun direction _ => by cases direction <;> rfl⟩
  handles _ direction := by cases direction <;> rfl
  closed := nofun
  resumed := nofun
  listed := nofun
  batch := nofun
  current := nofun

theorem Sound.initial : EventLoop.initial.Sound :=
  ⟨rfl, Tracks.initial, .nil, .nil⟩

/-- What is known of a connection lasts while nothing is done with it. -/
theorem Tracks.beside {loop next : EventLoop} {fd other : Fd} (tracks : loop.Tracks other)
    (leaves : Leaves fd loop next) (apart : other ≠ fd) : next.Tracks other := by
  have conn := leaves.connections other apart
  have opened := leaves.opened other apart
  have interest := leaves.interest other apart
  constructor
  case numbered =>
    rw [conn]
    exact tracks.numbered
  case shaped =>
    rw [conn]
    exact tracks.shaped
  case watches =>
    rw [conn]
    intro isOpen
    have watches := tracks.watches isOpen
    have same := tracks.numbered
    refine ⟨⟨?_, ?_⟩, watches.edged, watches.meets, watches.mirrors⟩
    · have before := watches.registered.opened
      rw [same] at before ⊢
      exact opened.trans before
    · have before := watches.registered.interest
      rw [same] at before ⊢
      exact interest.trans before
  case handles =>
    rw [conn]
    exact tracks.handles
  case closed =>
    rw [conn, opened, interest, leaves.listed other apart]
    exact tracks.closed
  case resumed =>
    rw [conn, leaves.current other apart]
    exact tracks.resumed
  case listed =>
    rw [conn, leaves.listed other apart]
    intro direction isOpen waits ready
    rw [leaves.batch other direction apart]
    exact tracks.listed direction isOpen waits ready
  case batch =>
    rw [conn]
    intro direction reported
    exact tracks.batch direction ((leaves.batch other direction apart).mp reported)
  case current =>
    rw [conn, leaves.current other apart]
    exact tracks.current

/-- A step is sound if the connection that it is about is tracked behind it. -/
theorem Sound.moves {loop next : EventLoop} (sound : loop.Sound) {fd : Fd}
    (leaves : Leaves fd loop next) (running : next.manager.exited = false)
    (here : next.Tracks fd) (listed : next.listed.Nodup)
    (batch : (next.batch.map Prod.fst).Nodup) : next.Sound where
  running := running
  tracks other := by
    by_cases same : other = fd
    · rw [same]
      exact here
    · exact (sound.tracks other).beside leaves same
  listed := listed
  batch := batch

/-! ### What a descriptor is registered for -/

theorem any_interest {manager : EventManager} {socket : Socket}
    (registered : Registered manager socket) (direction : Direction) :
    (manager.kernel.interest socket.fd).any (·.meet direction.events) = socket.armed direction := by
  rw [registered.interest, Socket.armed]
  cases socket.attached <;> rfl

/-- A connection that is open is registered as its socket is armed. -/
theorem Tracks.armed {loop : EventLoop} {fd : Fd} (tracks : loop.Tracks fd)
    (isOpen : (loop.connections fd).isClosed = false) (direction : Direction) :
    loop.armed fd direction = (loop.connections fd).socket.armed direction := by
  have interest := any_interest (tracks.watches isOpen).registered direction
  rw [tracks.numbered] at interest
  exact interest

theorem Tracks.armed_of_closed {loop : EventLoop} {fd : Fd} (tracks : loop.Tracks fd)
    (isClosed : (loop.connections fd).isClosed = true) (direction : Direction) :
    loop.armed fd direction = false := by
  rw [EventLoop.armed, (tracks.closed isClosed).2.1]
  rfl

/-- Whoever waits is registered for his direction. -/
theorem Tracks.armed_of_waiting {loop : EventLoop} {fd : Fd} (tracks : loop.Tracks fd)
    (isOpen : (loop.connections fd).isClosed = false) {direction : Direction}
    (waits : (loop.connections fd).phase = .waiting direction) :
    loop.armed fd direction = true := by
  have watches := tracks.watches isOpen
  have holds := tracks.handles isOpen direction
  rw [waits] at watches holds
  rw [tracks.armed isOpen, watches.mirrors_idle direction, holds]
  exact decide_eq_true rfl

/-- Nobody is registered for anything but what he awaits or is just resumed for. -/
theorem Tracks.of_armed {loop : EventLoop} {fd : Fd} (tracks : loop.Tracks fd)
    {direction : Direction} (armed : loop.armed fd direction = true) :
    (loop.connections fd).isClosed = false ∧
      ((loop.connections fd).phase.awaits = some direction ∨
        (loop.connections fd).phase.resumed = some direction) := by
  have isOpen : (loop.connections fd).isClosed = false := by
    refine Bool.eq_false_iff.mpr fun isClosed => ?_
    rw [tracks.armed_of_closed isClosed] at armed
    cases armed
  refine ⟨isOpen, ?_⟩
  have watches := tracks.watches isOpen
  have holds := tracks.handles isOpen direction
  have shaped := tracks.shaped
  rw [tracks.armed isOpen] at armed
  -- a direction that no call is about is mirrored by its handle
  have mirrored : (∀ call, (loop.connections fd).phase.call = some call →
      call.direction ≠ direction) → (loop.connections fd).phase.holds = some direction := by
    intro apart
    have mirrors := watches.mirrors direction apart
    rw [Socket.Mirrors, armed, holds] at mirrors
    exact of_decide_eq_true mirrors.symm
  have uncalled : (loop.connections fd).phase.call = none →
      (loop.connections fd).phase.holds = some direction := by
    intro none
    refine mirrored fun call same => ?_
    rw [none] at same
    cases same
  cases phase : (loop.connections fd).phase with
  | running | asking | suspending | retrying | ended =>
    rw [phase] at uncalled
    cases uncalled rfl
  | waiting awaited =>
    rw [phase] at uncalled
    exact .inl (uncalled rfl)
  | adding call =>
    by_cases about : call.direction = direction
    · cases call with
      | attach own coro =>
        -- the socket is not armed before it is attached or registered again
        have mirrors := watches.meets (.attach own coro) (by rw [phase]; rfl)
        rw [phase] at holds
        change (loop.connections fd).socket.Mirrors own at mirrors
        rw [show own = direction from about, Socket.Mirrors, armed, holds] at mirrors
        cases mirrors
      | store own coro first | rearm own coro first => exact .inl (congrArg some about)
      | clear own | disarm own =>
        rw [phase] at shaped
        cases shaped
    · have held := mirrored fun current same => by
        rw [phase] at same
        exact Option.some.inj same ▸ about
      rw [phase] at held
      cases call <;> cases held
      exact absurd rfl about
  | deleting call =>
    by_cases about : call.direction = direction
    · exact .inr (congrArg some about)
    · have held := mirrored fun current same => by
        rw [phase] at same
        exact Option.some.inj same ▸ about
      rw [phase] at held
      cases call <;> cases held
      exact absurd rfl about

/-- Every registration is edge-triggered. -/
theorem Tracks.edged {loop : EventLoop} {fd : Fd} (tracks : loop.Tracks fd)
    {direction : Direction} (armed : loop.armed fd direction = true) :
    (loop.manager.kernel.interest fd).any (·.meet epollet) = true := by
  have isOpen := (tracks.of_armed armed).1
  have watches := tracks.watches isOpen
  have interest := watches.registered.interest
  rw [tracks.numbered] at interest
  rw [tracks.armed isOpen, Socket.armed, Bool.and_eq_true] at armed
  rw [interest, if_pos armed.1]
  exact watches.edged armed.1

/-! ### A coroutine that runs -/

@[simp] theorem connections_setConnection (loop : EventLoop) (fd : Fd) (conn : Connection) :
    (loop.setConnection fd conn).connections fd = conn :=
  Function.update_self ..

/-- The coroutine is in no call, and neither waits nor has been registered. -/
def Quiet (loop : EventLoop) (fd : Fd) : Prop :=
  (loop.connections fd).phase.call = none ∧ (loop.connections fd).phase.holds = none ∧
    (loop.connections fd).phase.awaits = none

theorem quiet_of_plain {loop : EventLoop} {fd : Fd} (plain : (loop.connections fd).phase.Plain) :
    loop.Quiet fd :=
  ⟨plain.spec.1, plain.spec.2.1, plain.spec.2.2.2.1⟩

theorem quiet_of_retrying {loop : EventLoop} {fd : Fd} {direction : Direction}
    (retrying : (loop.connections fd).phase = .retrying direction) : loop.Quiet fd := by
  rw [Quiet, retrying]
  exact ⟨rfl, rfl, rfl⟩

theorem Tracks.watches_quiet {loop : EventLoop} {fd : Fd} (tracks : loop.Tracks fd)
    (quiet : loop.Quiet fd) (isOpen : (loop.connections fd).isClosed = false) :
    Watches loop.manager (loop.connections fd).socket none := by
  rw [← quiet.1]
  exact tracks.watches isOpen

theorem Tracks.handle_quiet {loop : EventLoop} {fd : Fd} (tracks : loop.Tracks fd)
    (quiet : loop.Quiet fd) (isOpen : (loop.connections fd).isClosed = false)
    (direction : Direction) :
    ((loop.connections fd).socket.handle.get direction).isSome = false := by
  rw [tracks.handles isOpen, quiet.2.1]
  rfl

theorem Tracks.batch_quiet {loop : EventLoop} {fd : Fd} (tracks : loop.Tracks fd)
    (quiet : loop.Quiet fd) (direction : Direction) : (fd, direction) ∉ loop.batch := by
  intro reported
  have awaits := (tracks.batch direction reported).1
  rw [quiet.2.2] at awaits
  cases awaits

/-- A coroutine goes on by itself. -/
theorem Sound.plain {loop : EventLoop} (sound : loop.Sound) {fd : Fd} (quiet : loop.Quiet fd)
    {phase : CoroPhase} (plain : phase.Plain) (supply : Direction → Nat) :
    (loop.setConnection fd { loop.connections fd with phase, supply }).Sound := by
  have tracks := sound.tracks fd
  obtain ⟨call, holds, resumed, awaits, stops, shaped⟩ := plain.spec
  refine sound.moves (leaves_setConnection loop fd _) sound.running ?_ sound.listed sound.batch
  constructor <;> simp only [connections_setConnection]
  case numbered => exact tracks.numbered
  case shaped => exact shaped
  case watches =>
    intro isOpen
    rw [call]
    exact tracks.watches_quiet quiet isOpen
  case handles =>
    intro isOpen direction
    rw [holds, tracks.handle_quiet quiet isOpen]
    rfl
  case closed => exact tracks.closed
  case resumed =>
    intro direction same
    rw [resumed] at same
    cases same
  case listed =>
    intro direction _ waits
    rw [waits] at awaits
    cases awaits
  case batch => exact fun direction reported => absurd reported (tracks.batch_quiet quiet direction)
  case current => exact fun _ => stops

/-- A coroutine stops: it ends, or it waits on a connection that is closed. -/
theorem Sound.stop {loop : EventLoop} (sound : loop.Sound) {fd : Fd} (quiet : loop.Quiet fd)
    {phase : CoroPhase} (stops : phase.stops = true)
    (ends : (loop.connections fd).isClosed = true ∨ phase = .ended) :
    ((loop.setPhase fd phase).handBack fd).Sound := by
  have tracks := sound.tracks fd
  have leaves := (leaves_setConnection loop fd { loop.connections fd with phase }).trans
    (leaves_handBack (loop.setPhase fd phase) fd)
  have ended : (loop.connections fd).isClosed = false → phase = .ended := fun isOpen =>
    ends.resolve_left fun isClosed => Bool.false_ne_true (isOpen.symm.trans isClosed)
  have here : ((loop.setPhase fd phase).handBack fd).connections fd =
      { loop.connections fd with phase } := connections_setConnection ..
  refine sound.moves leaves sound.running ?_ sound.listed sound.batch
  constructor <;> rw [here]
  case numbered => exact tracks.numbered
  case shaped =>
    cases phase with
    | waiting | ended => trivial
    | running | asking | suspending | adding | deleting | retrying => cases stops
  case watches =>
    intro isOpen
    rw [ended isOpen]
    exact tracks.watches_quiet quiet isOpen
  case handles =>
    intro isOpen direction
    rw [ended isOpen, tracks.handle_quiet quiet isOpen]
    rfl
  case closed => exact tracks.closed
  case resumed =>
    intro direction same
    cases phase with
    | waiting | ended => cases same
    | running | asking | suspending | adding | deleting | retrying => cases stops
  case listed =>
    intro direction isOpen waits
    rw [ended isOpen] at waits
    cases waits
  case batch => exact fun direction reported => absurd reported (tracks.batch_quiet quiet direction)
  case current =>
    intro same
    -- the loop does not run a coroutine that has stopped
    change (if loop.current = some fd && (((loop.setPhase fd phase).connections fd).phase.stops)
      then none else loop.current) = some fd at same
    rw [setPhase, connections_setConnection, stops, Bool.and_true] at same
    split at same
    case isTrue => cases same
    case isFalse differs => exact absurd (decide_eq_true same) differs

/-- What `::read` and `::write` leave: a coroutine that goes on, or that has found nothing. -/
theorem move_cases {conn next : Connection} {direction : Direction} {count : Nat}
    {otherwise : CoroPhase} (moved : conn.move direction count otherwise = some next) :
    ∃ phase supply, next = { conn with phase, supply } ∧
      (phase = .running ∨ phase = otherwise ∧ conn.ready direction = false) := by
  unfold Connection.move at moved
  split at moved
  case isTrue =>
    split at moved
    case isTrue =>
      cases moved
      exact ⟨_, _, rfl, .inl rfl⟩
    case isFalse => cases moved
  case isFalse none =>
    cases moved
    refine ⟨_, conn.supply, rfl, ?_⟩
    cases hungUp : conn.hungUp direction with
    | true => exact .inl rfl
    | false =>
      refine .inr ⟨rfl, ?_⟩
      rw [Connection.ready, decide_eq_false none, hungUp]
      rfl

/-! ### A coroutine in a call of the event manager -/

theorem recheck_keeps (loop : EventLoop) (fd : Fd) :
    (loop.recheck fd).manager = loop.manager ∧
      (loop.recheck fd).connections = loop.connections ∧ (loop.recheck fd).batch = loop.batch ∧
        (loop.recheck fd).current = loop.current := by
  unfold recheck
  split <;> exact ⟨rfl, rfl, rfl, rfl⟩

theorem nodup_recheck {loop : EventLoop} (nodup : loop.listed.Nodup) (fd : Fd) :
    (loop.recheck fd).listed.Nodup := by
  unfold recheck
  split
  · exact nodup_enlist nodup fd
  · exact nodup

/-- What `epoll_ctl` registers is on the ready list if it is there. -/
theorem mem_recheck {loop : EventLoop} {fd : Fd} {direction : Direction}
    (armed : loop.armed fd direction = true)
    (ready : (loop.connections fd).ready direction = true) : fd ∈ (loop.recheck fd).listed := by
  rw [recheck, if_pos (isSome_reports armed ready)]
  exact mem_enlist loop fd

section

variable (loop : EventLoop) (fd : Fd) (call : OpenCall) (phase : Option OpenCall → CoroPhase)

/-- The connection behind a step of its call. -/
def stepped : Connection :=
  { loop.connections fd with
    socket := (call.advance loop.manager (loop.connections fd).socket).1.2
    phase := phase (call.advance loop.manager (loop.connections fd).socket).2 }

/-- The loop behind it, before the ready list is looked at. -/
def moved : EventLoop :=
  { loop with
    manager := (call.advance loop.manager (loop.connections fd).socket).1.1 }.setConnection fd
      (loop.stepped fd call phase)

theorem advance_eq :
    loop.advance fd call phase =
      (if call.registers (loop.connections fd).socket then (loop.moved fd call phase).recheck fd
        else loop.moved fd call phase).handBack fd :=
  rfl

/-- What is not about the ready list or the loop's thread. -/
theorem advance_keeps :
    (loop.advance fd call phase).manager =
        (call.advance loop.manager (loop.connections fd).socket).1.1 ∧
      (loop.advance fd call phase).connections fd = loop.stepped fd call phase ∧
        (loop.advance fd call phase).batch = loop.batch := by
  have conn : (loop.moved fd call phase).connections fd = loop.stepped fd call phase :=
    connections_setConnection ..
  rw [advance_eq]
  split
  · obtain ⟨manager, connections, batch, -⟩ := recheck_keeps (loop.moved fd call phase) fd
    exact ⟨manager, (congrFun connections fd).trans conn, batch⟩
  · exact ⟨rfl, conn, rfl⟩

theorem nodup_advance (nodup : loop.listed.Nodup) : (loop.advance fd call phase).listed.Nodup := by
  have before : (loop.moved fd call phase).listed.Nodup := nodup
  rw [advance_eq]
  split
  · exact nodup_recheck before fd
  · exact before

theorem listed_advance (quiet : call.registers (loop.connections fd).socket = false) :
    (loop.advance fd call phase).listed = loop.listed := by
  rw [advance_eq, quiet]
  rfl

/-- The loop's thread is held by a coroutine only as long as it has not stopped. -/
theorem current_advance (same : (loop.advance fd call phase).current = some fd) :
    loop.current = some fd ∧ (loop.stepped fd call phase).phase.stops = false := by
  have held : ∀ after : EventLoop, after.current = loop.current →
      after.connections fd = loop.stepped fd call phase → (after.handBack fd).current = some fd →
        loop.current = some fd ∧ (loop.stepped fd call phase).phase.stops = false := by
    intro after current conn same
    simp only [handBack, current, conn] at same
    split at same
    case isTrue => cases same
    case isFalse runs =>
      refine ⟨same, Bool.eq_false_iff.mpr fun stops => runs ?_⟩
      rw [stops, Bool.and_true]
      exact decide_eq_true same
  have conn : (loop.moved fd call phase).connections fd = loop.stepped fd call phase :=
    connections_setConnection ..
  rw [advance_eq] at same
  split at same
  · obtain ⟨-, connections, -, current⟩ := recheck_keeps (loop.moved fd call phase) fd
    exact held _ current ((congrFun connections fd).trans conn) same
  · exact held (loop.moved fd call phase) rfl conn same

end

variable {loop : EventLoop} {fd : Fd} {call : OpenCall} {phase : Option OpenCall → CoroPhase}

theorem current_of_running (current : loop.current = some fd)
    (runs : (loop.stepped fd call phase).phase.stops = false) :
    (loop.advance fd call phase).current = some fd := by
  have held : ∀ after : EventLoop, after.current = loop.current →
      after.connections fd = loop.stepped fd call phase →
        (after.handBack fd).current = some fd := by
    intro after same conn
    simp only [handBack, same, conn, runs, Bool.and_false, Bool.false_eq_true, if_false]
    exact current
  have conn : (loop.moved fd call phase).connections fd = loop.stepped fd call phase :=
    connections_setConnection ..
  rw [advance_eq]
  split
  · obtain ⟨-, connections, -, same⟩ := recheck_keeps (loop.moved fd call phase) fd
    exact held _ same ((congrFun connections fd).trans conn)
  · exact held (loop.moved fd call phase) rfl conn

/-- A step of a call is about its own connection. -/
theorem Tracks.leaves_advance (tracks : loop.Tracks fd)
    (current : (loop.connections fd).phase.call = some call)
    (running : (call.advance loop.manager (loop.connections fd).socket).1.1.exited = false) :
    Leaves fd loop (loop.advance fd call phase) := by
  have moved : Leaves fd loop (loop.moved fd call phase) := by
    have conn := leaves_setConnection { loop with
      manager := (call.advance loop.manager (loop.connections fd).socket).1.1 } fd
        (loop.stepped fd call phase)
    cases isClosed : (loop.connections fd).isClosed with
    | true =>
      have closed := (tracks.closed isClosed).1
      rw [← tracks.numbered] at closed
      have same := (OpenCall.advance_of_closed (tracks.numbered ▸ closed) running).1
      rw [EventLoop.moved, same]
      exact leaves_setConnection loop fd _
    | false =>
      have watches := tracks.watches isClosed
      have advanced := OpenCall.advanced watches.registered (watches.meets call current).attached
      refine { conn with opened := ?_, interest := ?_ }
      · exact fun other _ => congrFun advanced.opened other
      · exact fun other apart => advanced.others other (tracks.numbered.symm ▸ apart)
  rw [advance_eq]
  split
  · exact (moved.trans (leaves_recheck _ fd)).trans (leaves_handBack _ fd)
  · exact moved.trans (leaves_handBack _ fd)

/-- The step of a call is sound if the phase behind it is one that fits. -/
theorem Sound.advance (sound : loop.Sound)
    (current : (loop.connections fd).phase.call = some call)
    (running : (call.advance loop.manager (loop.connections fd).socket).1.1.exited = false)
    (shaped : (loop.stepped fd call phase).phase.Shaped)
    (calls : (loop.stepped fd call phase).phase.call =
      (call.advance loop.manager (loop.connections fd).socket).2)
    (handles : (loop.connections fd).isClosed = false → ∀ direction,
      ((loop.stepped fd call phase).socket.handle.get direction).isSome =
        decide ((loop.stepped fd call phase).phase.holds = some direction))
    (resumed : ∀ direction, (loop.stepped fd call phase).phase.resumed = some direction →
      (loop.connections fd).phase.resumed = some direction)
    (awaits : ∀ direction, (loop.connections fd).phase.awaits = some direction →
      (loop.stepped fd call phase).phase.awaits = some direction)
    (waits : ∀ direction, (loop.stepped fd call phase).phase = .waiting direction →
      call.registers (loop.connections fd).socket = true) :
    (loop.advance fd call phase).Sound := by
  have tracks := sound.tracks fd
  obtain ⟨manager, conn, batch⟩ := advance_keeps loop fd call phase
  have leaves : Leaves fd loop (loop.advance fd call phase) :=
    tracks.leaves_advance current running
  have watches : (loop.connections fd).isClosed = false →
      Watches (loop.advance fd call phase).manager (loop.stepped fd call phase).socket
        (loop.stepped fd call phase).phase.call := by
    intro isOpen
    have before := tracks.watches isOpen
    rw [current] at before
    rw [manager, calls]
    exact before.advance
  have numbered : (loop.stepped fd call phase).socket.fd = fd :=
    (OpenCall.fd_advance _ _ _).trans tracks.numbered
  refine sound.moves leaves (manager ▸ running) ?_ (nodup_advance loop fd call phase sound.listed)
    (batch ▸ sound.batch)
  constructor <;> rw [conn]
  case numbered => exact numbered
  case shaped => exact shaped
  case watches => exact watches
  case handles => exact handles
  case closed =>
    intro isClosed
    obtain ⟨opened, interest, unlisted⟩ := tracks.closed isClosed
    obtain ⟨same, quiet⟩ := OpenCall.advance_of_closed (tracks.numbered.symm ▸ opened) running
    rw [manager, same, listed_advance loop fd call phase quiet]
    exact ⟨opened, interest, unlisted⟩
  case resumed =>
    intro direction same
    obtain ⟨held, ready⟩ := tracks.resumed direction (resumed direction same)
    refine ⟨current_of_running held ?_, ready⟩
    cases behind : (loop.stepped fd call phase).phase with
    | waiting | ended =>
      rw [behind] at same
      cases same
    | running | asking | suspending | adding | deleting | retrying => rfl
  case listed =>
    intro direction isOpen same ready
    have here := watches isOpen
    have holds := handles isOpen direction
    rw [same] at here holds
    have armed : (loop.moved fd call phase).armed fd direction = true := by
      have registered := any_interest here.registered direction
      rw [numbered, manager, here.mirrors_idle direction, holds] at registered
      exact registered.trans (decide_eq_true rfl)
    rw [advance_eq, if_pos (waits direction same)]
    refine .inl (mem_recheck armed ?_)
    rw [EventLoop.moved, connections_setConnection]
    exact ready
  case batch =>
    intro direction reported
    rw [batch] at reported
    exact (tracks.batch direction reported).imp_left (awaits direction)
  case current => exact fun same => (current_advance loop fd call phase same).2

/-- `AddRecv` or `AddSend` takes its next step. -/
theorem Sound.add (sound : loop.Sound) (adding : (loop.connections fd).phase = .adding call)
    (running : (call.advance loop.manager (loop.connections fd).socket).1.1.exited = false) :
    (loop.advance fd call (·.elim (.waiting call.direction) .adding)).Sound := by
  have tracks := sound.tracks fd
  have shaped := tracks.shaped
  have holds := tracks.handles
  rw [adding] at shaped holds
  have current : (loop.connections fd).phase.call = some call := by
    rw [adding]
    rfl
  cases call with
  | clear | disarm => cases shaped
  | attach own coro =>
    refine sound.advance current running trivial rfl ?_ nofun ?_ nofun
    · intro isOpen direction
      rw [stepped, OpenCall.handle_advance]
      exact holds isOpen direction
    · intro direction awaits
      rw [adding] at awaits
      cases awaits
  | store own coro first =>
    refine sound.advance current running trivial rfl ?_ nofun ?_ nofun
    · intro isOpen direction
      have before := holds isOpen direction
      rw [stepped, OpenCall.handle_advance]
      change (if own = direction then some coro else _).isSome = decide (some own = some direction)
      by_cases same : own = direction
      · simp [same]
      · simp only [same, if_false, Option.some.injEq, decide_false]
        exact before
    · intro direction awaits
      rw [adding] at awaits
      exact awaits
  | rearm own coro first =>
    refine sound.advance current running trivial rfl ?_ nofun ?_ fun _ _ => rfl
    · intro isOpen direction
      rw [stepped, OpenCall.handle_advance]
      exact holds isOpen direction
    · intro direction awaits
      rw [adding] at awaits
      exact awaits

/-- `DelRecv` or `DelSend` takes its next step. -/
theorem Sound.delete (sound : loop.Sound) (deleting : (loop.connections fd).phase = .deleting call)
    (running : (call.advance loop.manager (loop.connections fd).socket).1.1.exited = false) :
    (loop.advance fd call (·.elim (.retrying call.direction) .deleting)).Sound := by
  have tracks := sound.tracks fd
  have shaped := tracks.shaped
  have holds := tracks.handles
  rw [deleting] at shaped holds
  have current : (loop.connections fd).phase.call = some call := by
    rw [deleting]
    rfl
  have unreported : ∀ direction, (loop.connections fd).phase.awaits ≠ some direction := by
    intro direction
    rw [deleting]
    exact nofun
  cases call with
  | attach | store | rearm => cases shaped
  | clear own =>
    refine sound.advance current running trivial rfl ?_ ?_ ?_ nofun
    · intro isOpen direction
      have before := holds isOpen direction
      rw [stepped, OpenCall.handle_advance]
      change (if own = direction then none else _).isSome = false
      by_cases same : own = direction
      · simp [same]
      · simp only [same, if_false]
        exact before.trans (decide_eq_false fun equal => same (Option.some.inj equal))
    · intro direction same
      rw [deleting]
      exact same
    · exact fun direction awaits => absurd awaits (unreported direction)
  | disarm own =>
    refine sound.advance current running trivial rfl ?_ ?_ ?_ nofun
    · intro isOpen direction
      rw [stepped, OpenCall.handle_advance]
      exact holds isOpen direction
    · intro direction same
      rw [deleting]
      exact same
    · exact fun direction awaits => absurd awaits (unreported direction)

/-- `await_suspend` calls the event manager. -/
theorem Sound.begin (sound : loop.Sound) {direction : Direction}
    (suspending : (loop.connections fd).phase = .suspending direction) (coro : Coroutine) :
    (loop.setPhase fd (.adding (.attach direction coro))).Sound := by
  have tracks := sound.tracks fd
  have quiet : loop.Quiet fd := quiet_of_plain (.inr (.inr ⟨direction, suspending⟩))
  refine sound.moves (leaves_setConnection loop fd _) sound.running ?_ sound.listed sound.batch
  constructor <;> simp only [setPhase, connections_setConnection]
  case numbered => exact tracks.numbered
  case shaped => trivial
  case watches =>
    intro isOpen
    have watches := tracks.watches_quiet quiet isOpen
    exact watches.begin (watches.mirrors_idle direction)
  case handles =>
    intro isOpen other
    rw [tracks.handle_quiet quiet isOpen]
    rfl
  case closed => exact tracks.closed
  case resumed => exact nofun
  case listed => exact nofun
  case batch => exact fun other reported => absurd reported (tracks.batch_quiet quiet other)
  case current => exact fun _ => rfl

/-! ### The loop -/

/-- `epoll_wait` leaves nothing on the list that it goes through. -/
theorem Sound.listed_fetch (sound : loop.Sound) (count : Nat) :
    (loop.fetch count).listed = loop.listed.drop count := by
  have nothing : (loop.listed.take count).filter (fun fd => (loop.reports fd).isSome &&
      !(loop.manager.kernel.interest fd).any (·.meet epollet)) = [] := by
    refine List.filter_eq_nil_iff.mpr fun fd _ level => ?_
    obtain ⟨reported, level⟩ := Bool.and_eq_true_iff.mp level
    obtain ⟨direction, reported⟩ := Option.isSome_iff_exists.mp reported
    rw [(sound.tracks fd).edged (of_reports reported).1] at level
    cases level
  simp only [EventLoop.fetch, nothing, List.append_nil]

theorem mem_batch_fetch {count : Nat} {direction : Direction} :
    (fd, direction) ∈ (loop.fetch count).batch ↔
      fd ∈ loop.listed.take count ∧ loop.reports fd = some direction := by
  simp only [EventLoop.fetch, List.mem_filterMap, Option.map_eq_some_iff, Prod.mk.injEq]
  constructor
  · rintro ⟨other, member, reported, same, rfl, rfl⟩
    exact ⟨member, same⟩
  · rintro ⟨member, reported⟩
    exact ⟨fd, member, direction, reported, rfl, rfl⟩

/-- What is reported is what the coroutine awaits, as long as the loop runs none. -/
theorem Sound.awaits_of_reports (sound : loop.Sound) (idle : loop.current = none)
    {direction : Direction} (reported : loop.reports fd = some direction) :
    (loop.connections fd).phase.awaits = some direction := by
  refine ((sound.tracks fd).of_armed (of_reports reported).1).2.resolve_right fun resumed => ?_
  have held := ((sound.tracks fd).resumed direction resumed).1
  rw [idle] at held
  cases held

theorem Sound.fetch (sound : loop.Sound) (idle : loop.current = none) (empty : loop.batch = [])
    (count : Nat) : (loop.fetch count).Sound where
  running := sound.running
  tracks fd := by
    have tracks := sound.tracks fd
    refine { tracks with closed := ?_, resumed := ?_, listed := ?_, batch := ?_ }
    · intro isClosed
      obtain ⟨opened, interest, unlisted⟩ := tracks.closed isClosed
      rw [sound.listed_fetch]
      exact ⟨opened, interest, fun member => unlisted (List.mem_of_mem_drop member)⟩
    · intro direction resumed
      have held := (tracks.resumed direction resumed).1
      rw [idle] at held
      cases held
    · intro direction isOpen waits ready
      have before := tracks.listed direction isOpen waits ready
      rw [empty, ← List.take_append_drop count loop.listed, List.mem_append] at before
      rw [sound.listed_fetch]
      obtain (taken | left) | reported := before
      · obtain ⟨reported, same⟩ := Option.isSome_iff_exists.mp
          (isSome_reports (tracks.armed_of_waiting isOpen waits) ready)
        have awaits := sound.awaits_of_reports idle same
        rw [show (loop.connections fd).phase = .waiting direction from waits] at awaits
        cases awaits
        exact .inr (mem_batch_fetch.mpr ⟨taken, same⟩)
      · exact .inl left
      · cases reported
    · intro direction reported
      have same := (mem_batch_fetch.mp reported).2
      exact ⟨sound.awaits_of_reports idle same, .inr (of_reports same).2⟩
  listed := by
    rw [sound.listed_fetch]
    exact sound.listed.sublist (List.drop_sublist count _)
  batch := by
    rw [EventLoop.fetch, List.map_filterMap]
    refine (sound.listed.sublist (List.take_sublist count _)).filterMap ?_
    simp only [Option.mem_def, Option.map_map, Option.map_eq_some_iff]
    rintro first second other ⟨_, -, rfl⟩ ⟨_, -, same⟩
    exact same.symm

/-- A handle that the loop resumes is that of a coroutine that waits, or it is not. -/
theorem resume_cases (loop : EventLoop) (fd : Fd) (direction : Direction) :
    (∃ awaited, (loop.connections fd).phase = .waiting awaited ∧
        loop.resume fd direction = { loop with current := some fd }.setPhase fd
          (if (loop.connections fd).isClosed then .running else .deleting (.clear awaited))) ∨
      (((loop.connections fd).phase = .waiting direction →
          (loop.connections fd).socket.handle.get direction = none) ∧
        loop.resume fd direction = { loop with overtaken := true }) := by
  unfold EventLoop.resume
  simp only
  split
  case h_1 awaited coro waits stored => exact .inl ⟨awaited, waits, rfl⟩
  case h_2 absent =>
    refine .inr ⟨fun waits => ?_, rfl⟩
    cases stored : (loop.connections fd).socket.handle.get direction with
    | none => rfl
    | some coro => exact absurd stored (absent direction coro waits)

/-- The loop resumes a coroutine, or has been overtaken. -/
theorem Sound.resume (sound : loop.Sound) (idle : loop.current = none) {direction : Direction}
    {rest : List (Fd × Direction)} (front : loop.batch = (fd, direction) :: rest) :
    ({ loop with batch := rest }.resume fd direction).Sound := by
  have tracks := sound.tracks fd
  obtain ⟨awaits, ready⟩ := tracks.batch direction (front ▸ List.mem_cons_self)
  have nodup := sound.batch
  rw [front, List.map_cons, List.nodup_cons] at nodup
  have popped : ∀ other direction', other ≠ fd →
      ((other, direction') ∈ rest ↔ (other, direction') ∈ loop.batch) := by
    intro other direction' apart
    rw [front, List.mem_cons, Prod.mk.injEq]
    exact ⟨.inr, fun member => member.resolve_left fun same => apart same.1⟩
  obtain ⟨awaited, waits, resumed⟩ | ⟨absent, overtaken⟩ :=
    resume_cases { loop with batch := rest } fd direction
  · have waits : (loop.connections fd).phase = .waiting awaited := waits
    rw [waits] at awaits
    cases awaits
    rw [resumed]
    have held : Leaves fd loop { loop with batch := rest, current := some fd } := by
      refine { Leaves.refl fd loop with batch := popped, current := fun other apart => ?_ }
      rw [idle]
      exact ⟨fun same => absurd (Option.some.inj same).symm apart, nofun⟩
    refine sound.moves (held.trans (leaves_setConnection _ fd _)) sound.running ?_ sound.listed
      nodup.2
    constructor <;> simp only [setPhase, connections_setConnection]
    case numbered => exact tracks.numbered
    case shaped => split <;> trivial
    case watches =>
      intro isOpen
      have watches := tracks.watches isOpen
      have armed := tracks.armed_of_waiting isOpen waits
      rw [waits] at watches
      rw [tracks.armed isOpen, Socket.armed, Bool.and_eq_true] at armed
      rw [if_neg (Bool.eq_false_iff.mp isOpen)]
      exact watches.begin armed.1
    case handles =>
      intro isOpen other
      rw [tracks.handles isOpen, waits, if_neg (Bool.eq_false_iff.mp isOpen)]
      rfl
    case closed => exact tracks.closed
    case resumed =>
      intro other same
      split at same
      case isTrue => cases same
      case isFalse =>
        cases same
        exact ⟨rfl, ready⟩
    case listed =>
      intro other _ same
      split at same <;> cases same
    case batch => exact fun other reported => absurd (List.mem_map_of_mem reported) nodup.1
    case current => exact fun _ => by split <;> rfl
  · rw [overtaken]
    have left : Leaves fd loop { loop with batch := rest, overtaken := true } :=
      { Leaves.refl fd loop with batch := popped }
    refine sound.moves left sound.running ?_ sound.listed nodup.2
    refine { tracks with listed := ?_, batch := ?_ }
    · intro awaited isOpen waits present
      refine (tracks.listed awaited isOpen waits present).imp_right fun reported => ?_
      rw [front, List.mem_cons, Prod.mk.injEq] at reported
      refine reported.resolve_left fun same => ?_
      have waits : (loop.connections fd).phase = .waiting awaited := waits
      have stored := tracks.handles isOpen direction
      rw [absent (same.2 ▸ waits), waits, same.2] at stored
      exact Bool.false_ne_true (stored.trans (decide_eq_true rfl))
    · intro awaited reported
      exact absurd (List.mem_map_of_mem reported) nodup.1

/-! ### What the peer and the timer do -/

theorem signal_keeps (loop : EventLoop) (fd : Fd) (direction : Direction) :
    (loop.signal fd direction).manager = loop.manager ∧
      (loop.signal fd direction).connections = loop.connections ∧
        (loop.signal fd direction).batch = loop.batch ∧
          (loop.signal fd direction).current = loop.current := by
  unfold signal
  split <;> exact ⟨rfl, rfl, rfl, rfl⟩

theorem mem_signal_of_mem {direction : Direction} {other : Fd} (member : other ∈ loop.listed) :
    other ∈ (loop.signal fd direction).listed := by
  unfold signal enlist
  split
  · simp only
    split
    · exact member
    · exact List.mem_append_left _ member
  · exact member

/-- More can be read or written than before. -/
theorem Sound.signal (sound : loop.Sound) (direction : Direction) (supply : Direction → Nat)
    (hungUp : Direction → Bool)
    (more : ∀ other, (loop.connections fd).ready other = true →
      ({ loop.connections fd with supply, hungUp } : Connection).ready other = true)
    (only : ∀ other, other ≠ direction →
      ({ loop.connections fd with supply, hungUp } : Connection).ready other =
        (loop.connections fd).ready other) :
    ((loop.setConnection fd { loop.connections fd with supply, hungUp }).signal fd
      direction).Sound := by
  have tracks := sound.tracks fd
  have leaves := (leaves_setConnection loop fd { loop.connections fd with supply, hungUp }).trans
    (leaves_signal _ fd direction)
  obtain ⟨manager, connections, batch, current⟩ :=
    signal_keeps (loop.setConnection fd { loop.connections fd with supply, hungUp }) fd direction
  have conn := (congrFun connections fd).trans (connections_setConnection ..)
  have nodup : ((loop.setConnection fd { loop.connections fd with supply, hungUp }).signal fd
      direction).listed.Nodup := by
    unfold EventLoop.signal
    split
    · exact nodup_enlist sound.listed fd
    · exact sound.listed
  refine sound.moves leaves (manager ▸ sound.running) ?_ nodup (batch ▸ sound.batch)
  constructor <;> rw [conn]
  case numbered => exact tracks.numbered
  case shaped => exact tracks.shaped
  case watches =>
    rw [manager]
    exact tracks.watches
  case handles => exact tracks.handles
  case closed =>
    intro isClosed
    have unarmed : (loop.setConnection fd { loop.connections fd with supply, hungUp }).armed fd
        direction = false := tracks.armed_of_closed isClosed direction
    rw [EventLoop.signal, if_neg (Bool.eq_false_iff.mp unarmed)]
    exact tracks.closed isClosed
  case resumed =>
    rw [current]
    exact fun other same => (tracks.resumed other same).imp_right (.imp_right (more other))
  case listed =>
    intro other isOpen waits ready
    rw [batch]
    by_cases same : other = direction
    · subst same
      have armed : (loop.setConnection fd { loop.connections fd with supply, hungUp }).armed fd
          other = true := tracks.armed_of_waiting isOpen waits
      rw [EventLoop.signal, if_pos armed]
      exact .inl (mem_enlist _ fd)
    · rw [only other same] at ready
      exact (tracks.listed other isOpen waits ready).imp_left mem_signal_of_mem
  case batch =>
    rw [batch]
    exact fun other reported => (tracks.batch other reported).imp_right (.imp_right (more other))
  case current =>
    rw [current]
    exact tracks.current

/-- A descriptor that is closed is not registered any more. -/
theorem Sound.close (sound : loop.Sound) (fd : Fd) : (loop.close fd).Sound := by
  have tracks := sound.tracks fd
  cases isClosed : (loop.connections fd).isClosed with
  | true =>
    rw [EventLoop.close, isClosed]
    exact sound
  | false =>
    have opened := (tracks.watches isClosed).registered.opened
    rw [tracks.numbered] at opened
    have executed : loop.manager.kernel.perform (.close fd) =
        { loop.manager.kernel with
          opened := Function.update loop.manager.kernel.opened fd false
          interest := Function.update loop.manager.kernel.interest fd none
          calls := loop.manager.kernel.calls ++ [.close fd] } := by
      rw [Kernel.perform, Kernel.admits, opened]
      rfl
    have closed : loop.close fd = { loop with
        manager := { loop.manager with kernel := loop.manager.kernel.perform (.close fd) }
        listed := loop.listed.erase fd }.setConnection fd
          { loop.connections fd with
            socket := { (loop.connections fd).socket with isClosed := true }
            isClosed := true } := by
      rw [EventLoop.close, isClosed, tracks.numbered]
      rfl
    rw [closed]
    have leaves : Leaves fd loop { loop with
        manager := { loop.manager with kernel := loop.manager.kernel.perform (.close fd) }
        listed := loop.listed.erase fd } := by
      rw [executed]
      refine { Leaves.refl fd loop with opened := ?_, interest := ?_, listed := ?_ }
      · exact fun other apart => Function.update_of_ne apart _ _
      · exact fun other apart => Function.update_of_ne apart _ _
      · exact fun other apart => List.mem_erase_of_ne apart
    refine sound.moves (leaves.trans (leaves_setConnection _ fd _)) sound.running ?_
      (sound.listed.erase fd) sound.batch
    constructor <;> simp only [connections_setConnection]
    case numbered => exact tracks.numbered
    case shaped => exact tracks.shaped
    case watches =>
      intro isOpen
      cases isOpen
    case handles =>
      intro isOpen
      cases isOpen
    case closed =>
      intro _
      simp only [setConnection, executed, Function.update_self]
      exact ⟨trivial, trivial, sound.listed.not_mem_erase⟩
    case resumed => exact fun other same => ⟨(tracks.resumed other same).1, .inl trivial⟩
    case listed =>
      intro other isOpen
      cases isOpen
    case batch => exact fun other reported => ⟨(tracks.batch other reported).1, .inl trivial⟩
    case current => exact tracks.current

/-! ### What a step can have done -/

inductive Takes (loop : EventLoop) : LoopStep → EventLoop → Prop
  | ask {fd : Fd} (running : (loop.connections fd).phase = .running) (direction : Direction) :
    Takes loop (.ask fd direction) (loop.setPhase fd (.asking direction))
  | attemptClosed {fd : Fd} {direction : Direction}
    (asking : (loop.connections fd).phase = .asking direction)
    (isClosed : (loop.connections fd).isClosed = true) (count : Nat) :
    Takes loop (.attempt fd count) (loop.setPhase fd .running)
  | attempt {fd : Fd} {direction : Direction} {count : Nat} {conn : Connection}
    (asking : (loop.connections fd).phase = .asking direction)
    (moved : (loop.connections fd).move direction count (.suspending direction) = some conn) :
    Takes loop (.attempt fd count) (loop.setConnection fd conn)
  | suspendClosed {fd : Fd} {direction : Direction}
    (suspending : (loop.connections fd).phase = .suspending direction)
    (isClosed : (loop.connections fd).isClosed = true) (coro : Coroutine) :
    Takes loop (.suspend fd coro) ((loop.setPhase fd (.waiting direction)).handBack fd)
  | suspend {fd : Fd} {direction : Direction}
    (suspending : (loop.connections fd).phase = .suspending direction) (coro : Coroutine) :
    Takes loop (.suspend fd coro) (loop.setPhase fd (.adding (.attach direction coro)))
  | add {fd : Fd} {call : OpenCall} (adding : (loop.connections fd).phase = .adding call) :
    Takes loop (.proceed fd) (loop.advance fd call (·.elim (.waiting call.direction) .adding))
  | delete {fd : Fd} {call : OpenCall} (deleting : (loop.connections fd).phase = .deleting call) :
    Takes loop (.proceed fd) (loop.advance fd call (·.elim (.retrying call.direction) .deleting))
  | retryClosed {fd : Fd} {direction : Direction}
    (retrying : (loop.connections fd).phase = .retrying direction)
    (isClosed : (loop.connections fd).isClosed = true) (count : Nat) :
    Takes loop (.retry fd count) (loop.setPhase fd .running)
  | retry {fd : Fd} {direction : Direction} {count : Nat} {conn : Connection}
    (retrying : (loop.connections fd).phase = .retrying direction)
    (isOpen : (loop.connections fd).isClosed = false)
    (moved : (loop.connections fd).move direction count (.asking direction) = some conn) :
    Takes loop (.retry fd count) (loop.setConnection fd conn)
  | finish {fd : Fd} (running : (loop.connections fd).phase = .running) :
    Takes loop (.finish fd) ((loop.setPhase fd .ended).handBack fd)
  | fetch {count : Nat} (idle : loop.current = none) (empty : loop.batch = []) (some : 0 < count)
    (listed : loop.listed ≠ []) : Takes loop (.fetch count) (loop.fetch count)
  | dispatch {fd : Fd} {direction : Direction} {batch : List (Fd × Direction)}
    (idle : loop.current = none) (front : loop.batch = (fd, direction) :: batch) :
    Takes loop .dispatch ({ loop with batch }.resume fd direction)
  | supply (fd : Fd) (direction : Direction) (count : Nat) :
    Takes loop (.supply fd direction count)
      ((loop.setConnection fd
        { loop.connections fd with
          supply := Function.update (loop.connections fd).supply direction
            ((loop.connections fd).supply direction + count) }).signal fd direction)
  | hangUp (fd : Fd) (direction : Direction) :
    Takes loop (.hangUp fd direction)
      ((loop.setConnection fd
        { loop.connections fd with
          hungUp := Function.update (loop.connections fd).hungUp direction true }).signal fd
            direction)
  | close (fd : Fd) : Takes loop (.close fd) (loop.close fd)

theorem takes_of_step {loop next : EventLoop} {label : LoopStep}
    (taken : loop.step label = some next) :
    loop.manager.exited = false ∧ loop.Takes label next := by
  unfold step at taken
  split at taken
  case isTrue => cases taken
  case isFalse goesOn =>
  refine ⟨Bool.eq_false_iff.mpr fun exited => goesOn (by rw [exited]; rfl), ?_⟩
  cases label with
  | ask fd direction =>
    simp only at taken
    split at taken
    case isTrue running =>
      cases taken
      exact .ask running direction
    case isFalse => cases taken
  | attempt fd count =>
    simp only at taken
    split at taken
    case h_1 direction asking =>
      split at taken
      case isTrue isClosed =>
        cases taken
        exact .attemptClosed asking isClosed count
      case isFalse =>
        obtain ⟨conn, moved, rfl⟩ := Option.map_eq_some_iff.mp taken
        exact .attempt asking moved
    case h_2 => cases taken
  | suspend fd coro =>
    simp only at taken
    split at taken
    case h_1 direction suspending =>
      split at taken
      case isTrue isClosed =>
        cases taken
        exact .suspendClosed suspending isClosed coro
      case isFalse =>
        cases taken
        exact .suspend suspending coro
    case h_2 => cases taken
  | proceed fd =>
    simp only at taken
    split at taken
    case h_1 call adding =>
      cases taken
      exact .add adding
    case h_2 call deleting =>
      cases taken
      exact .delete deleting
    case h_3 => cases taken
  | retry fd count =>
    simp only at taken
    split at taken
    case h_1 direction retrying =>
      split at taken
      case isTrue isClosed =>
        cases taken
        exact .retryClosed retrying isClosed count
      case isFalse isOpen =>
        obtain ⟨conn, moved, rfl⟩ := Option.map_eq_some_iff.mp taken
        exact .retry retrying (Bool.eq_false_iff.mpr isOpen) moved
    case h_2 => cases taken
  | finish fd =>
    simp only at taken
    split at taken
    case isTrue running =>
      cases taken
      exact .finish running
    case isFalse => cases taken
  | fetch count =>
    simp only at taken
    split at taken
    case isTrue free =>
      cases taken
      exact .fetch free.1 free.2.1 free.2.2.1 free.2.2.2
    case isFalse => cases taken
  | dispatch =>
    simp only at taken
    split at taken
    case h_1 idle front =>
      cases taken
      exact .dispatch idle front
    case h_2 => cases taken
  | supply fd direction count =>
    simp only at taken
    split at taken
    case isTrue =>
      cases taken
      exact .supply fd direction count
    case isFalse => cases taken
  | hangUp fd direction =>
    cases taken
    exact .hangUp fd direction
  | close fd =>
    cases taken
    exact .close fd

/-- Every step keeps the loop sound as long as the process goes on. -/
theorem Sound.step {loop next : EventLoop} {label : LoopStep} (sound : loop.Sound)
    (taken : loop.step label = some next) (running : next.manager.exited = false) :
    next.Sound := by
  cases (takes_of_step taken).2 with
  | ask runs direction =>
    exact sound.plain (quiet_of_plain (.inl runs)) (.inr (.inl ⟨direction, rfl⟩)) _
  | attemptClosed asking =>
    exact sound.plain (quiet_of_plain (.inr (.inl ⟨_, asking⟩))) (.inl rfl) _
  | @attempt fd direction count conn asking moved =>
    obtain ⟨phase, supply, rfl, runs | ⟨nothing, -⟩⟩ := move_cases moved
    · exact sound.plain (quiet_of_plain (.inr (.inl ⟨_, asking⟩))) (.inl runs) supply
    · exact sound.plain (quiet_of_plain (.inr (.inl ⟨_, asking⟩)))
        (.inr (.inr ⟨direction, nothing⟩)) supply
  | suspendClosed suspending isClosed =>
    exact sound.stop (quiet_of_plain (.inr (.inr ⟨_, suspending⟩))) rfl (.inl isClosed)
  | suspend suspending coro => exact sound.begin suspending coro
  | @add fd call adding =>
    exact sound.add adding ((advance_keeps loop fd call _).1 ▸ running)
  | @delete fd call deleting =>
    exact sound.delete deleting ((advance_keeps loop fd call _).1 ▸ running)
  | retryClosed retrying => exact sound.plain (quiet_of_retrying retrying) (.inl rfl) _
  | @retry fd direction count conn retrying isOpen moved =>
    obtain ⟨phase, supply, rfl, runs | ⟨nothing, -⟩⟩ := move_cases moved
    · exact sound.plain (quiet_of_retrying retrying) (.inl runs) supply
    · exact sound.plain (quiet_of_retrying retrying) (.inr (.inl ⟨direction, nothing⟩)) supply
  | finish runs => exact sound.stop (quiet_of_plain (.inl runs)) rfl (.inr rfl)
  | fetch idle empty => exact sound.fetch idle empty _
  | dispatch idle front => exact sound.resume idle front
  | supply fd direction count =>
    refine sound.signal direction _ _ (fun other ready => ?_) fun other apart => ?_
    · by_cases same : other = direction
      · subst same
        simp only [Connection.ready, Function.update_self, Bool.or_eq_true, decide_eq_true_eq]
          at ready ⊢
        exact ready.imp_left fun some => Nat.lt_of_lt_of_le some (Nat.le_add_right _ _)
      · simpa only [Connection.ready, Function.update_of_ne same] using ready
    · simp only [Connection.ready, Function.update_of_ne apart]
  | hangUp fd direction =>
    refine sound.signal direction _ _ (fun other ready => ?_) fun other apart => ?_
    · by_cases same : other = direction
      · subst same
        simp only [Connection.ready, Function.update_self, Bool.or_true]
      · simpa only [Connection.ready, Function.update_of_ne same] using ready
    · simp only [Connection.ready, Function.update_of_ne apart]
  | close fd => exact sound.close fd

end EventLoop

end Luce
