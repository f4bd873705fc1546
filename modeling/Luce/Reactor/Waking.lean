/-
This file proves that the event loop wakes every coroutine that can go on, and says whom it
never wakes.

What goes on by itself comes to an end: a step takes a coroutine closer to what it awaits, or
shortens the lists of epoll and of the loop. When nothing goes on any more, nobody waits for
what is there. Whoever waits when his connection is closed is not registered any more. Up to
the ends of the coroutines, two races can be lost and nothing else goes wrong: a descriptor is
closed before it is registered, or an event is dispatched before the coroutine has stopped.
-/

import Luce.Library.Waiting
import Luce.Reactor.Readiness

namespace Luce

open Library.Transition

/-- How far the call is from its end, and the coroutine from what comes after it. -/
def OpenCall.rank : OpenCall → Nat
  | .attach _ _ => 16
  | .store _ _ _ => 13
  | .rearm _ _ _ => 10
  | .clear _ => 7
  | .disarm _ => 4

/-- Whose coroutine awaits something. -/
def LoopStep.asker : LoopStep → Option Fd
  | .ask fd _ => some fd
  | .attempt .. | .suspend .. | .proceed _ | .retry .. | .finish _ | .fetch _ | .dispatch
  | .supply .. | .hangUp .. | .close _ => none

namespace EventLoop

/-! ### What goes on by itself comes to an end -/

/-- How far the coroutine is from having what it awaits. -/
def phaseRank : CoroPhase → Nat
  | .running | .ended => 0
  | .retrying _ => 1
  | .waiting _ => 7
  | .adding call | .deleting call => call.rank
  | .suspending _ => 17
  | .asking _ => 18

/-- How much there is in the lists of epoll and of the loop. -/
def backlog (loop : EventLoop) : Nat := 2 * loop.listed.length + loop.batch.length

/-- What is left to do for these descriptors, where no coroutine awaits anything else. -/
def rank (fds : Finset Fd) (loop : EventLoop) : Nat :=
  ∑ fd ∈ fds, phaseRank (loop.connections fd).phase + loop.backlog

/-- Nobody awaits anything but at these descriptors. -/
def Supported (fds : Finset Fd) (loop : EventLoop) : Prop :=
  ∀ fd, fd ∉ fds → phaseRank (loop.connections fd).phase = 0

/-- There is less to do, at one connection or in the lists. -/
def Lowers (loop next : EventLoop) : Prop :=
  ∃ fd, (∀ other, other ≠ fd → next.connections other = loop.connections other) ∧
    (phaseRank (loop.connections fd).phase = 0 → phaseRank (next.connections fd).phase = 0) ∧
    phaseRank (next.connections fd).phase + next.backlog <
      phaseRank (loop.connections fd).phase + loop.backlog

theorem Lowers.supported {loop next : EventLoop} {fds : Finset Fd} (lowers : loop.Lowers next)
    (supported : loop.Supported fds) : next.Supported fds := by
  obtain ⟨fd, others, idle, -⟩ := lowers
  intro other outside
  by_cases same : other = fd
  · subst same
    exact idle (supported other outside)
  · rw [others other same]
    exact supported other outside

theorem Lowers.rank_lt {loop next : EventLoop} {fds : Finset Fd} (lowers : loop.Lowers next)
    (supported : loop.Supported fds) : next.rank fds < loop.rank fds := by
  obtain ⟨fd, others, idle, less⟩ := lowers
  have ranks : ∀ other, other ≠ fd →
      phaseRank (next.connections other).phase = phaseRank (loop.connections other).phase :=
    fun other apart => by rw [others other apart]
  unfold rank
  by_cases member : fd ∈ fds
  · have changed := Library.Waiting.sum_change member ranks
    omega
  · have before := supported fd member
    have after := idle before
    have same : ∑ other ∈ fds, phaseRank (next.connections other).phase =
        ∑ other ∈ fds, phaseRank (loop.connections other).phase :=
      Finset.sum_congr rfl fun other inside =>
        ranks other fun same => member (same ▸ inside)
    omega

/-- A coroutine gets closer to its end, and its descriptor may be put on the list for it. -/
theorem lowers_of_phase {loop next : EventLoop} {fd : Fd} {conn : Connection} {more : Nat}
    (connections : next.connections = Function.update loop.connections fd conn)
    (listed : next.listed.length ≤ loop.listed.length + more) (batch : next.batch = loop.batch)
    (less : phaseRank conn.phase + 2 * more < phaseRank (loop.connections fd).phase) :
    loop.Lowers next := by
  refine ⟨fd, fun other apart => ?_, fun idle => ?_, ?_⟩
  · rw [connections, Function.update_of_ne apart]
  · omega
  · rw [connections, Function.update_self, backlog, backlog, batch]
    omega

theorem lowers_of_move {loop next : EventLoop} {fd : Fd} {conn : Connection}
    (connections : next.connections = Function.update loop.connections fd conn)
    (listed : next.listed = loop.listed) (batch : next.batch = loop.batch)
    (less : phaseRank conn.phase < phaseRank (loop.connections fd).phase) : loop.Lowers next := by
  have same : next.listed.length ≤ loop.listed.length + 0 :=
    Nat.le_of_eq (congrArg List.length listed)
  exact lowers_of_phase connections same batch less

theorem length_enlist_le (loop : EventLoop) (fd : Fd) :
    (loop.enlist fd).listed.length ≤ loop.listed.length + 1 := by
  unfold enlist
  split
  · exact Nat.le_succ _
  · exact (List.length_append ..).le

/-- A step of a call changes one connection, and puts one descriptor on the list at most. -/
theorem advance_changes (loop : EventLoop) (fd : Fd) (call : OpenCall)
    (phase : Option OpenCall → CoroPhase) :
    (loop.advance fd call phase).connections =
        Function.update loop.connections fd (loop.stepped fd call phase) ∧
      (loop.advance fd call phase).listed.length ≤ loop.listed.length + 1 := by
  rw [advance_eq]
  split
  · refine ⟨(recheck_keeps (loop.moved fd call phase) fd).2.1, ?_⟩
    have enlisted := length_enlist_le (loop.moved fd call phase) fd
    show ((loop.moved fd call phase).recheck fd).listed.length ≤ _
    unfold recheck
    split
    · exact enlisted
    · exact Nat.le_succ _
  · exact ⟨rfl, Nat.le_succ _⟩

theorem connections_advance (loop : EventLoop) {fd other : Fd} (call : OpenCall)
    (phase : Option OpenCall → CoroPhase) (apart : other ≠ fd) :
    (loop.advance fd call phase).connections other = loop.connections other := by
  rw [(advance_changes loop fd call phase).1, Function.update_of_ne apart]

/-- Every step that goes on by itself leaves less to do. -/
theorem Sound.lowers {loop next : EventLoop} {label : LoopStep} (sound : loop.Sound)
    (takes : loop.Takes label next) (own : label.Own) : loop.Lowers next := by
  cases takes with
  | ask | finish | supply | hangUp | close => cases own
  | attemptClosed asking =>
    refine lowers_of_move rfl rfl rfl ?_
    rw [asking]
    simp [phaseRank]
  | attempt asking moved =>
    obtain ⟨phase, supply, rfl, rfl | ⟨rfl, -⟩⟩ := move_cases moved <;>
    · refine lowers_of_move rfl rfl rfl ?_
      rw [asking]
      simp [phaseRank]
  | suspendClosed suspending =>
    refine lowers_of_move rfl rfl rfl ?_
    rw [suspending]
    simp [phaseRank]
  | suspend suspending coro =>
    refine lowers_of_move rfl rfl rfl ?_
    rw [suspending]
    simp [phaseRank, OpenCall.rank]
  | @add fd call adding =>
    have shaped := adding ▸ (sound.tracks fd).shaped
    obtain ⟨connections, listed⟩ := advance_changes loop fd call _
    refine lowers_of_phase connections listed (advance_keeps loop fd call _).2.2 ?_
    rw [adding]
    cases call with
    | attach | store | rearm => exact Nat.lt_succ_self _
    | clear | disarm => exact shaped.elim
  | @delete fd call deleting =>
    have shaped := deleting ▸ (sound.tracks fd).shaped
    obtain ⟨connections, listed⟩ := advance_changes loop fd call _
    refine lowers_of_phase connections listed (advance_keeps loop fd call _).2.2 ?_
    rw [deleting]
    cases call with
    | clear | disarm => exact Nat.lt_succ_self _
    | attach | store | rearm => exact shaped.elim
  | retryClosed retrying =>
    refine lowers_of_move rfl rfl rfl ?_
    rw [retrying]
    simp [phaseRank]
  | @retry fd direction count conn retrying isOpen moved =>
    have ready := ((sound.tracks fd).resumed direction (by rw [retrying]; rfl)).2
    obtain ⟨phase, supply, rfl, rfl | ⟨-, nothing⟩⟩ := move_cases moved
    · refine lowers_of_move rfl rfl rfl ?_
      rw [retrying]
      simp [phaseRank]
    · rw [isOpen, nothing] at ready
      cases ready with
      | inl isClosed => cases isClosed
      | inr ready => cases ready
  | @fetch count idle empty some listed =>
    refine ⟨0, fun _ _ => rfl, id, ?_⟩
    have reported : (loop.fetch count).batch.length ≤ (loop.listed.take count).length :=
      List.length_filterMap_le _ _
    have present := List.length_pos_iff.mpr listed
    rw [List.length_take] at reported
    rw [backlog, backlog, sound.listed_fetch count, List.length_drop, empty, List.length_nil]
    show phaseRank (loop.connections 0).phase + _ < _
    omega
  | @dispatch fd direction batch idle front =>
    have shorter : loop.backlog = ({ loop with batch } : EventLoop).backlog + 1 := by
      rw [backlog, backlog, front, List.length_cons]
      rfl
    obtain ⟨awaited, waits, resumed⟩ | ⟨-, overtaken⟩ :=
      resume_cases { loop with batch } fd direction
    · rw [resumed]
      refine ⟨fd, fun other apart => Function.update_of_ne apart _ _, ?_, ?_⟩
      · rw [show (loop.connections fd).phase = .waiting awaited from waits]
        exact fun idle => absurd idle (Nat.succ_ne_zero 6)
      · rw [show (loop.connections fd).phase = .waiting awaited from waits, setPhase,
          connections_setConnection, shorter]
        show phaseRank (if _ then _ else _) + ({ loop with batch } : EventLoop).backlog < _
        split
        · simp only [phaseRank]
          omega
        · exact Nat.lt_succ_self _
    · rw [overtaken]
      refine ⟨0, fun _ _ => rfl, id, ?_⟩
      show phaseRank (loop.connections 0).phase + ({ loop with batch } : EventLoop).backlog < _
      omega

/-- Nobody awaits anything but where it has asked for it. -/
theorem Sound.supported {loop next : EventLoop} {label : LoopStep} {fds : Finset Fd}
    (sound : loop.Sound) (takes : loop.Takes label next) (supported : loop.Supported fds)
    (asks : ∀ fd direction, label = .ask fd direction → fd ∈ fds) : next.Supported fds := by
  by_cases own : label.Own
  · exact (sound.lowers takes own).supported supported
  have kept : ∀ (fd : Fd) (conn : Connection),
      phaseRank conn.phase = phaseRank (loop.connections fd).phase →
        (loop.setConnection fd conn).Supported fds := by
    intro fd conn same other outside
    by_cases here : other = fd
    · subst here
      rw [connections_setConnection, same]
      exact supported other outside
    · rw [(leaves_setConnection loop fd conn).connections other here]
      exact supported other outside
  cases takes with
  | attemptClosed | attempt | suspendClosed | suspend | add | delete | retryClosed | retry | fetch
  | dispatch => exact absurd trivial own
  | @ask fd running direction =>
    intro other outside
    have apart : other ≠ fd := fun same => outside (same ▸ asks fd direction rfl)
    rw [setPhase, (leaves_setConnection loop fd _).connections other apart]
    exact supported other outside
  | @finish fd runs => exact kept fd _ (by rw [runs]; rfl)
  | supply fd direction count =>
    intro other outside
    rw [(signal_keeps _ fd direction).2.1]
    exact kept fd _ (by rfl) other outside
  | hangUp fd direction =>
    intro other outside
    rw [(signal_keeps _ fd direction).2.1]
    exact kept fd _ (by rfl) other outside
  | close fd =>
    unfold EventLoop.close
    simp only
    split
    · exact supported
    · exact kept fd { loop.connections fd with
        socket := { (loop.connections fd).socket with isClosed := true }, isClosed := true } rfl

/-- The descriptors whose coroutines have awaited something. -/
def asked (steps : List LoopStep) : Finset Fd :=
  (steps.filterMap LoopStep.asker).toFinset

/-- Nothing goes on by itself. -/
def AtRest (loop : EventLoop) : Prop := ∀ label : LoopStep, label.Own → loop.step label = none

/-- The coroutine runs or has ended, or it waits: for its peer, on a connection that has been
closed, or for the loop's thread that a coroutine runs on. -/
def Settled (loop : EventLoop) (fd : Fd) : Prop :=
  (loop.connections fd).phase = .running ∨ (loop.connections fd).phase = .ended ∨
    ∃ direction, (loop.connections fd).phase = .waiting direction ∧
      ((loop.connections fd).isClosed = true ∨ (loop.connections fd).ready direction = false ∨
        ∃ busy, loop.current = some busy ∧ (loop.connections busy).phase = .running)

/-- A read or write of one byte goes on, if there is one. -/
theorem move_one (conn : Connection) (direction : Direction) (otherwise : CoroPhase) :
    (conn.move direction 1 otherwise).isSome = true := by
  unfold Connection.move
  split
  case isTrue some => rw [if_pos ⟨Nat.one_pos, some⟩]; rfl
  case isFalse => rfl

/-- A coroutine that does not wait for anything is not at rest. -/
theorem AtRest.halted {loop : EventLoop} (rest : loop.AtRest)
    (goesOn : loop.manager.exited = false ∧ loop.overtaken = false) (fd : Fd) :
    (loop.connections fd).phase = .running ∨ (loop.connections fd).phase = .ended ∨
      ∃ direction, (loop.connections fd).phase = .waiting direction := by
  have stuck : ∀ label : LoopStep, label.Own → (loop.step label).isSome = true → False :=
    fun label own goes => by rw [rest label own] at goes; cases goes
  cases phase : (loop.connections fd).phase with
  | running => exact .inl rfl
  | ended => exact .inr (.inl rfl)
  | waiting direction => exact .inr (.inr ⟨direction, rfl⟩)
  | asking direction =>
    refine (stuck (.attempt fd 1) trivial ?_).elim
    simp only [step, goesOn, phase, Bool.or_false, Bool.false_eq_true, if_false]
    split
    · rfl
    · rw [Option.isSome_map]
      exact move_one ..
  | suspending direction =>
    refine (stuck (.suspend fd 0) trivial ?_).elim
    simp only [step, goesOn, phase, Bool.or_false, Bool.false_eq_true, if_false]
    split <;> rfl
  | adding call =>
    refine (stuck (.proceed fd) trivial ?_).elim
    simp only [step, goesOn, phase, Bool.or_false, Bool.false_eq_true, if_false]
    rfl
  | deleting call =>
    refine (stuck (.proceed fd) trivial ?_).elim
    simp only [step, goesOn, phase, Bool.or_false, Bool.false_eq_true, if_false]
    rfl
  | retrying direction =>
    refine (stuck (.retry fd 1) trivial ?_).elim
    simp only [step, goesOn, phase, Bool.or_false, Bool.false_eq_true, if_false]
    split
    · rfl
    · rw [Option.isSome_map]
      exact move_one ..

/-- At rest the lists are empty, unless a coroutine runs on the loop's thread. -/
theorem AtRest.empty {loop : EventLoop} (rest : loop.AtRest)
    (goesOn : loop.manager.exited = false ∧ loop.overtaken = false) (idle : loop.current = none) :
    loop.batch = [] ∧ loop.listed = [] := by
  have batch : loop.batch = [] := by
    cases front : loop.batch with
    | nil => rfl
    | cons event batch =>
      have stuck := rest .dispatch trivial
      simp only [step, goesOn, idle, front, Bool.or_false, Bool.false_eq_true, if_false] at stuck
      cases stuck
  refine ⟨batch, Classical.byContradiction fun listed => ?_⟩
  have stuck := rest (.fetch 1) trivial
  simp only [step, goesOn, idle, batch, listed, Bool.or_false, Bool.false_eq_true, if_false,
    Nat.one_pos, not_false_iff, and_self, if_true, ne_eq] at stuck
  cases stuck

theorem phaseRank_eq_zero {phase : CoroPhase} (idle : phaseRank phase = 0) :
    phase = .running ∨ phase = .ended := by
  cases phase with
  | running => exact .inl rfl
  | ended => exact .inr rfl
  | adding call | deleting call => cases call <;> cases idle
  | asking | suspending | waiting | retrying => cases idle

/-- The loop is at rest if its lists are empty and every coroutine has stopped or awaits
nothing. -/
theorem atRest_of_empty {loop : EventLoop} (listed : loop.listed = []) (batch : loop.batch = [])
    (halted : ∀ fd, phaseRank (loop.connections fd).phase = 0 ∨
      ∃ direction, (loop.connections fd).phase = .waiting direction) : loop.AtRest := by
  have phases : ∀ fd, (loop.connections fd).phase = .running ∨
      (loop.connections fd).phase = .ended ∨
        ∃ direction, (loop.connections fd).phase = .waiting direction :=
    fun fd => (halted fd).elim (fun idle => (phaseRank_eq_zero idle).imp_right .inl)
      fun waits => .inr (.inr waits)
  intro label own
  unfold step
  split
  case isTrue => rfl
  case isFalse =>
  cases label with
  | ask | finish | supply | hangUp | close => cases own
  | attempt fd | suspend fd | proceed fd | retry fd =>
    obtain phase | phase | ⟨direction, phase⟩ := phases fd <;> simp only [phase]
  | fetch count => simp only [listed, ne_eq, not_true_eq_false, and_false, if_false]
  | dispatch =>
    simp only [batch]
    cases loop.current <;> rfl

/-- At rest nobody waits for what is there. -/
theorem Sound.settled {loop : EventLoop} (sound : loop.Sound) (rest : loop.AtRest)
    (goesOn : loop.overtaken = false) (fd : Fd) : loop.Settled fd := by
  obtain runs | ended | ⟨direction, waits⟩ := rest.halted ⟨sound.running, goesOn⟩ fd
  · exact .inl runs
  · exact .inr (.inl ended)
  refine .inr (.inr ⟨direction, waits, ?_⟩)
  cases isClosed : (loop.connections fd).isClosed with
  | true => exact .inl rfl
  | false =>
    cases ready : (loop.connections fd).ready direction with
    | false => exact .inr (.inl rfl)
    | true =>
      refine .inr (.inr ?_)
      have told := (sound.tracks fd).listed direction isClosed waits ready
      cases current : loop.current with
      | none =>
        obtain ⟨batch, listed⟩ := rest.empty ⟨sound.running, goesOn⟩ current
        rw [batch, listed] at told
        exact (told.elim List.not_mem_nil List.not_mem_nil).elim
      | some busy =>
        have stops := (sound.tracks busy).current current
        refine ⟨busy, rfl, ?_⟩
        obtain runs | ended | ⟨other, waits⟩ := rest.halted ⟨sound.running, goesOn⟩ busy
        · exact runs
        · rw [ended] at stops
          cases stops
        · rw [waits] at stops
          cases stops

/-! ### Whole runs -/

/-- What a run keeps: the loop is sound until the process exits, and nobody awaits anything but
at these descriptors. -/
def Keeps (fds : Finset Fd) (loop : EventLoop) : Prop :=
  (loop.manager.exited = false → loop.Sound) ∧ loop.Supported fds

theorem Keeps.step {loop next : EventLoop} {label : LoopStep} {fds : Finset Fd}
    (keeps : loop.Keeps fds) (asks : ∀ fd direction, label = .ask fd direction → fd ∈ fds)
    (taken : loop.step label = some next) : next.Keeps fds := by
  obtain ⟨running, takes⟩ := takes_of_step taken
  have sound := keeps.1 running
  exact ⟨fun goesOn => sound.step taken goesOn, sound.supported takes keeps.2 asks⟩

theorem Keeps.rank_lt {loop next : EventLoop} {label : LoopStep} {fds : Finset Fd}
    (keeps : loop.Keeps fds) (own : label.Own) (taken : loop.step label = some next) :
    next.rank fds < loop.rank fds := by
  obtain ⟨running, takes⟩ := takes_of_step taken
  exact ((keeps.1 running).lowers takes own).rank_lt keeps.2

theorem keeps_asked {steps : List LoopStep} {reached : EventLoop}
    (ran : run EventLoop.step initial steps = some reached) : reached.Keeps (asked steps) := by
  have initially : initial.Keeps (asked steps) := ⟨fun _ => .initial, fun _ _ => rfl⟩
  refine invariant_along EventLoop.step (fun _ label _ keeps asks taken =>
    Keeps.step keeps asks taken) initially (along_of_mem EventLoop.step ?_ initial) ran
  rintro label member fd direction rfl
  exact List.mem_toFinset.mpr (List.mem_filterMap.mpr ⟨_, member, rfl⟩)

/-- Whatever the coroutines, the loop, the peers and the timers have done in whatever order,
what goes on by itself then is at rest after boundedly many steps, in whatever order. A
coroutine that is resumed finds what it has waited for. At rest, unless a call of `epoll_ctl`
has failed or the loop has been too early, every coroutine runs or has ended, or waits for what
is not there, or on a connection that has been closed, or for the loop's thread. -/
theorem reactor_wakes (steps : List LoopStep) (reached : EventLoop)
    (ran : run EventLoop.step initial steps = some reached) (own : List LoopStep)
    (owned : ∀ label ∈ own, label.Own) (final : EventLoop)
    (went : run EventLoop.step reached own = some final) :
    own.length ≤ reached.rank (asked steps) ∧
      (final.manager.exited = false →
        (∀ fd direction, (final.connections fd).phase = .retrying direction →
          (final.connections fd).isClosed = true ∨
            (final.connections fd).ready direction = true) ∧
        (final.AtRest → final.overtaken = false → ∀ fd, final.Settled fd)) := by
  have keeps := keeps_asked ran
  have preserved : ∀ (loop : EventLoop) (label : LoopStep) (next : EventLoop),
      loop.Keeps (asked steps) → label.Own → loop.step label = some next →
        next.Keeps (asked steps) := by
    rintro loop label next keeps own taken
    exact keeps.step (by rintro fd direction rfl; exact own.elim) taken
  have keepsFinal := invariant_along EventLoop.step preserved keeps
    (along_of_mem EventLoop.step owned reached) went
  have bounded := length_add_rank_le EventLoop.step preserved
    (fun _ _ _ keeps own taken => Keeps.rank_lt keeps own taken) keeps owned went
  refine ⟨Nat.le_of_add_right_le bounded, fun goesOn => ⟨fun fd direction retrying => ?_, ?_⟩⟩
  · exact (((keepsFinal.1 goesOn).tracks fd).resumed direction (by rw [retrying]; rfl)).2
  · exact fun rest inTime fd => (keepsFinal.1 goesOn).settled rest inTime fd

/-- One coroutine waits for bytes that come, and another for room that does not. -/
theorem reactor_wakes_two :
    ∃ reached final : EventLoop,
      run EventLoop.step initial
        [.ask 3 .recv, .attempt 3 0, .suspend 3 7, .proceed 3, .proceed 3, .proceed 3,
          .ask 4 .send, .attempt 4 0, .suspend 4 8, .proceed 4, .proceed 4, .proceed 4,
          .supply 3 .recv 5] = some reached ∧
      run EventLoop.step reached [.fetch 1, .dispatch, .proceed 3, .proceed 3, .retry 3 5] =
        some final ∧
      5 ≤ reached.rank {3, 4} ∧ final.AtRest ∧ final.Settled 4 ∧
        (final.connections 3).phase = .running ∧
          (final.connections 4).phase = .waiting .send := by
  obtain ⟨reached, final, ran, went, running, inTime, listed, batch, three, four⟩ :
      ∃ reached final : EventLoop,
        run EventLoop.step initial
          [.ask 3 .recv, .attempt 3 0, .suspend 3 7, .proceed 3, .proceed 3, .proceed 3,
            .ask 4 .send, .attempt 4 0, .suspend 4 8, .proceed 4, .proceed 4, .proceed 4,
            .supply 3 .recv 5] = some reached ∧
        run EventLoop.step reached [.fetch 1, .dispatch, .proceed 3, .proceed 3, .retry 3 5] =
          some final ∧
        final.manager.exited = false ∧ final.overtaken = false ∧ final.listed = [] ∧
        final.batch = [] ∧ (final.connections 3).phase = .running ∧
        (final.connections 4).phase = .waiting .send :=
    ⟨_, _, rfl, rfl, rfl, rfl, rfl, rfl, rfl, rfl⟩
  have supported : final.Supported {3, 4} :=
    (keeps_asked ((run_append EventLoop.step).mpr ⟨reached, ran, went⟩)).2
  have rest : final.AtRest := atRest_of_empty listed batch fun fd => by
    by_cases here : fd = 4
    · exact .inr ⟨.send, here ▸ four⟩
    by_cases there : fd = 3
    · exact .inl (by rw [there, three]; rfl)
    exact .inl (supported fd (by simp [here, there]))
  obtain ⟨bounded, wakes⟩ := reactor_wakes _ reached ran _ (by simp [LoopStep.Own]) final went
  exact ⟨reached, final, ran, went, bounded, rest, (wakes running).2 rest inTime 4, three, four⟩

/-! ### Whom the loop never wakes -/

/-- What the peer does changes nothing about a connection but what is there. -/
theorem connection_signal (loop : EventLoop) (other : Fd) (supply : Direction → Nat)
    (hungUp : Direction → Bool) (direction : Direction) (fd : Fd) :
    ∃ supply' hungUp', ((loop.setConnection other
        { loop.connections other with supply, hungUp }).signal other direction).connections fd =
      { loop.connections fd with supply := supply', hungUp := hungUp' } := by
  rw [(signal_keeps _ other direction).2.1]
  by_cases here : fd = other
  · subst here
    exact ⟨supply, hungUp, connections_setConnection ..⟩
  · exact ⟨_, _, (leaves_setConnection loop other _).connections fd here⟩

/-- Resuming a coroutine touches its own connection only. -/
theorem resume_keeps (loop : EventLoop) (fd : Fd) (direction : Direction) :
    (loop.resume fd direction).batch = loop.batch ∧
      ∀ other, other ≠ fd → (loop.resume fd direction).connections other =
        loop.connections other := by
  obtain ⟨awaited, -, resumed⟩ | ⟨-, overtaken⟩ := resume_cases loop fd direction
  · rw [resumed]
    exact ⟨rfl, fun other apart => Function.update_of_ne apart _ _⟩
  · rw [overtaken]
    exact ⟨rfl, fun _ _ => rfl⟩

/-- Closing a connection changes nothing about what a coroutine awaits. -/
theorem close_keeps (loop : EventLoop) (other fd : Fd) :
    (loop.close other).batch = loop.batch ∧
      ((loop.close other).connections fd).phase = (loop.connections fd).phase ∧
        ((loop.close other).connections fd).socket.handle = (loop.connections fd).socket.handle ∧
          ((loop.connections fd).isClosed = true →
            ((loop.close other).connections fd).isClosed = true) := by
  unfold EventLoop.close
  simp only
  split
  case isTrue => exact ⟨rfl, rfl, rfl, id⟩
  case isFalse =>
    by_cases here : fd = other
    · subst here
      rw [connections_setConnection]
      exact ⟨rfl, rfl, rfl, fun _ => rfl⟩
    · rw [(leaves_setConnection _ other _).connections fd here]
      exact ⟨rfl, rfl, rfl, id⟩

/-- The coroutine waits on a connection that has been closed, and nothing is reported for it. -/
def Forgets (loop : EventLoop) (fd : Fd) (direction : Direction) : Prop :=
  (loop.connections fd).phase = .waiting direction ∧ (loop.connections fd).isClosed = true ∧
    fd ∉ loop.batch.map Prod.fst

theorem Forgets.beside {loop next : EventLoop} {fd other : Fd} {direction : Direction}
    (forgets : loop.Forgets fd direction) (apart : fd ≠ other)
    (others : ∀ fd, fd ≠ other → next.connections fd = loop.connections fd)
    (batch : ∀ event, event ∈ next.batch → event ∈ loop.batch) : next.Forgets fd direction := by
  rw [Forgets, others fd apart]
  exact ⟨forgets.1, forgets.2.1, fun reported => forgets.2.2 <| by
    obtain ⟨event, member, same⟩ := List.mem_map.mp reported
    exact List.mem_map.mpr ⟨event, batch event member, same⟩⟩

/-- No step changes that. -/
theorem Forgets.step {loop next : EventLoop} {label : LoopStep} {fd : Fd} {direction : Direction}
    (forgets : loop.Forgets fd direction) (sound : loop.Sound) (takes : loop.Takes label next) :
    next.Forgets fd direction := by
  obtain ⟨waits, isClosed, unreported⟩ := id forgets
  have apart : ∀ {other : Fd} {phase : CoroPhase}, (loop.connections other).phase = phase →
      phase ≠ .waiting direction → fd ≠ other := by
    rintro other phase here differs rfl
    exact differs (here.symm.trans waits)
  have beside : ∀ {other : Fd} {phase : CoroPhase} (conn : Connection),
      (loop.connections other).phase = phase → phase ≠ .waiting direction →
        (loop.setConnection other conn).Forgets fd direction := fun conn here differs =>
    forgets.beside (apart here differs) (leaves_setConnection loop _ conn).connections
      fun _ => id
  cases takes with
  | ask running => exact beside _ running (by simp)
  | attemptClosed asking => exact beside _ asking (by simp)
  | attempt asking => exact beside _ asking (by simp)
  | suspendClosed suspending => exact beside _ suspending (by simp)
  | suspend suspending => exact beside _ suspending (by simp)
  | @add other call adding =>
    exact forgets.beside (apart adding (by simp))
      (fun _ here => connections_advance loop call _ here)
      fun _ member => (advance_keeps loop other call _).2.2 ▸ member
  | @delete other call deleting =>
    exact forgets.beside (apart deleting (by simp))
      (fun _ here => connections_advance loop call _ here)
      fun _ member => (advance_keeps loop other call _).2.2 ▸ member
  | retryClosed retrying => exact beside _ retrying (by simp)
  | retry retrying => exact beside _ retrying (by simp)
  | finish running => exact beside _ running (by simp)
  | @fetch count =>
    refine ⟨waits, isClosed, fun reported => ?_⟩
    obtain ⟨⟨each, other⟩, member, rfl⟩ := List.mem_map.mp reported
    exact ((sound.tracks each).closed isClosed).2.2
      (List.mem_of_mem_take (mem_batch_fetch.mp member).1)
  | @dispatch other reported batch idle front =>
    rw [front] at unreported
    have differs : fd ≠ other := fun same => unreported (same ▸ List.mem_cons_self ..)
    obtain ⟨rest, others⟩ := resume_keeps { loop with batch } other reported
    refine forgets.beside differs others fun event member => ?_
    rw [rest] at member
    exact front ▸ List.mem_cons_of_mem _ member
  | supply other wanted count =>
    obtain ⟨supply, hungUp, same⟩ := connection_signal loop other _ _ wanted fd
    refine ⟨(congrArg (·.phase) same).trans waits, (congrArg (·.isClosed) same).trans isClosed, ?_⟩
    rw [(signal_keeps _ other wanted).2.2.1]
    exact unreported
  | hangUp other wanted =>
    obtain ⟨supply, hungUp, same⟩ := connection_signal loop other _ _ wanted fd
    refine ⟨(congrArg (·.phase) same).trans waits, (congrArg (·.isClosed) same).trans isClosed, ?_⟩
    rw [(signal_keeps _ other wanted).2.2.1]
    exact unreported
  | close other =>
    obtain ⟨batch, phase, -, stays⟩ := close_keeps loop other fd
    exact ⟨phase.trans waits, stays isClosed, batch ▸ unreported⟩

/-- What is registered is open, and the coroutine that is resumed has stopped. -/
def InTime (loop : EventLoop) : LoopStep → Prop
  | .proceed fd =>
    (loop.connections fd).phase.call.any (·.registers (loop.connections fd).socket) = true →
      (loop.connections fd).isClosed = false
  | .dispatch => ∀ event ∈ loop.batch.head?, (loop.connections event.1).phase.stops = true
  | .ask .. | .attempt .. | .suspend .. | .retry .. | .finish _ | .fetch _ | .supply ..
  | .hangUp .. | .close _ => True

instance decidableInTime (loop : EventLoop) : ∀ label, Decidable (loop.InTime label)
  | .proceed fd =>
    inferInstanceAs (Decidable ((loop.connections fd).phase.call.any
      (·.registers (loop.connections fd).socket) = true → (loop.connections fd).isClosed = false))
  | .dispatch =>
    inferInstanceAs (Decidable (∀ event ∈ loop.batch.head?,
      (loop.connections event.1).phase.stops = true))
  | .ask .. | .attempt .. | .suspend .. | .retry .. | .finish _ | .fetch _ | .supply ..
  | .hangUp .. | .close _ => isTrue trivial

/-- Where an event is to be dispatched, the handle of the coroutine that waits for it is there. -/
def Told (loop : EventLoop) : Prop :=
  ∀ fd direction, (fd, direction) ∈ loop.batch →
    (loop.connections fd).phase = .waiting direction →
      ((loop.connections fd).socket.handle.get direction).isSome = true

/-- `AddRecv` and `AddSend` return on a connection that is open, or the process has exited. -/
theorem Sound.open_of_add {loop : EventLoop} (sound : loop.Sound) {fd : Fd} {call : OpenCall}
    (adding : (loop.connections fd).phase = .adding call)
    (running : (call.advance loop.manager (loop.connections fd).socket).1.1.exited = false)
    {direction : Direction}
    (waits : (loop.stepped fd call (·.elim (.waiting call.direction) .adding)).phase =
      .waiting direction) : (loop.connections fd).isClosed = false := by
  have tracks := sound.tracks fd
  cases isClosed : (loop.connections fd).isClosed with
  | false => rfl
  | true =>
    have closed := (tracks.closed isClosed).1
    rw [← tracks.numbered] at closed
    have unregistered := (OpenCall.advance_of_closed closed running).2
    cases call with
    | attach | store => cases waits
    | rearm => cases unregistered
    | clear | disarm => exact (adding ▸ tracks.shaped).elim

/-- `DelRecv` and `DelSend` return to a coroutine that goes on. -/
theorem Sound.goes_on_of_delete {loop : EventLoop} (sound : loop.Sound) {fd : Fd}
    {call : OpenCall} (deleting : (loop.connections fd).phase = .deleting call)
    (direction : Direction) :
    (loop.stepped fd call (·.elim (.retrying call.direction) .deleting)).phase ≠
      .waiting direction := by
  intro waits
  cases call with
  | clear | disarm => cases waits
  | attach | store | rearm => exact (deleting ▸ (sound.tracks fd).shaped).elim

/-- Every step keeps that as long as the process goes on. -/
theorem Told.step {loop next : EventLoop} {label : LoopStep} (told : loop.Told)
    (sound : loop.Sound) (takes : loop.Takes label next) (soundNext : next.Sound) :
    next.Told := by
  intro fd direction reported waits
  -- A connection that is open is known anyway.
  cases isClosed : (next.connections fd).isClosed with
  | false =>
    rw [(soundNext.tracks fd).handles isClosed, waits]
    exact decide_eq_true rfl
  | true =>
  have kept : (fd, direction) ∈ loop.batch →
      (next.connections fd).phase = (loop.connections fd).phase →
        (next.connections fd).socket.handle = (loop.connections fd).socket.handle →
          ((next.connections fd).socket.handle.get direction).isSome = true := by
    intro member phase handle
    rw [handle]
    exact told fd direction member (phase ▸ waits)
  have elsewhere : ∀ other, fd ≠ other → (fd, direction) ∈ loop.batch →
      (∀ each, each ≠ other → next.connections each = loop.connections each) →
        ((next.connections fd).socket.handle.get direction).isSome = true :=
    fun other apart member others =>
      kept member (by rw [others fd apart]) (by rw [others fd apart])
  have quietly : ∀ other, loop.Quiet other → next.batch = loop.batch →
      (∀ each, each ≠ other → next.connections each = loop.connections each) →
        ((next.connections fd).socket.handle.get direction).isSome = true := by
    intro other quiet batch others
    rw [batch] at reported
    refine elsewhere other (fun same => ?_) reported others
    exact (sound.tracks other).batch_quiet quiet direction (same ▸ reported)
  cases takes with
  | @ask other running =>
    exact quietly other (quiet_of_plain (.inl running)) rfl (leaves_setConnection ..).connections
  | @attemptClosed other _ asking =>
    exact quietly other (quiet_of_plain (.inr (.inl ⟨_, asking⟩))) rfl
      (leaves_setConnection ..).connections
  | @attempt other _ _ _ asking =>
    exact quietly other (quiet_of_plain (.inr (.inl ⟨_, asking⟩))) rfl
      (leaves_setConnection ..).connections
  | @suspendClosed other _ suspending =>
    exact quietly other (quiet_of_plain (.inr (.inr ⟨_, suspending⟩))) rfl
      (leaves_setConnection ..).connections
  | @suspend other _ suspending =>
    exact quietly other (quiet_of_plain (.inr (.inr ⟨_, suspending⟩))) rfl
      (leaves_setConnection ..).connections
  | @retryClosed other _ retrying =>
    exact quietly other (quiet_of_retrying retrying) rfl (leaves_setConnection ..).connections
  | @retry other _ _ _ retrying =>
    exact quietly other (quiet_of_retrying retrying) rfl (leaves_setConnection ..).connections
  | @finish other running =>
    exact quietly other (quiet_of_plain (.inl running)) rfl (leaves_setConnection ..).connections
  | @add other call adding =>
    obtain ⟨manager, conn, batch⟩ := advance_keeps loop other call
      (·.elim (.waiting call.direction) .adding)
    by_cases same : fd = other
    · subst same
      rw [conn] at waits isClosed
      have isOpen := sound.open_of_add adding (manager ▸ soundNext.running) waits
      exact absurd (isOpen.symm.trans isClosed) Bool.false_ne_true
    · rw [batch] at reported
      exact elsewhere other same reported fun _ apart => connections_advance loop call _ apart
  | @delete other call deleting =>
    obtain ⟨-, conn, batch⟩ := advance_keeps loop other call
      (·.elim (.retrying call.direction) .deleting)
    by_cases same : fd = other
    · subst same
      exact absurd (conn ▸ waits) (sound.goes_on_of_delete deleting direction)
    · rw [batch] at reported
      exact elsewhere other same reported fun _ apart => connections_advance loop call _ apart
  | @fetch count =>
    exact absurd (List.mem_of_mem_take (mem_batch_fetch.mp reported).1)
      ((sound.tracks fd).closed isClosed).2.2
  | @dispatch other wanted batch idle front =>
    obtain ⟨rest, others⟩ := resume_keeps { loop with batch } other wanted
    have nodup := sound.batch
    rw [front, List.map_cons, List.nodup_cons] at nodup
    rw [rest] at reported
    refine elsewhere other ?_ (front ▸ List.mem_cons_of_mem _ reported) others
    rintro rfl
    exact nodup.1 (List.mem_map.mpr ⟨_, reported, rfl⟩)
  | supply other wanted count =>
    rw [(signal_keeps _ other wanted).2.2.1] at reported
    obtain ⟨supply, hungUp, same⟩ := connection_signal loop other _ _ wanted fd
    exact kept reported (congrArg (·.phase) same) (congrArg (·.socket.handle) same)
  | hangUp other wanted =>
    rw [(signal_keeps _ other wanted).2.2.1] at reported
    obtain ⟨supply, hungUp, same⟩ := connection_signal loop other _ _ wanted fd
    exact kept reported (congrArg (·.phase) same) (congrArg (·.socket.handle) same)
  | close other =>
    obtain ⟨batch, phase, handle, -⟩ := close_keeps loop other fd
    exact kept (batch ▸ reported) phase handle

end EventLoop

end Luce
