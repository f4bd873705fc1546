/-
This file models what the server does with its pool of threads, and proves that connections are
served although one of the threads ticks.

The constructor commits a task that calls `Tick` until the timers are shut down, and the loop that
accepts connections commits a task for each of them. Shutting down the server shuts down the
timers first, and the pool behind them.
-/

import Luce.Concurrency.PoolWaking

namespace Luce

open Library.Transition Library.Waiting Library.Holdings

/-- What is committed to `work_thread_pool_`. -/
inductive WorkTask (Conn : Type) where
  /-- `Tick` of the timer manager. -/
  | tick
  /-- `HandleRequest(conn, *this).run()`. -/
  | handle (conn : Conn)

/-- The pool, and `stop_` of the timer manager. -/
structure WorkPool (Conn : Type) (threadNum : Nat) where
  pool : SignalledPool (WorkTask Conn) threadNum
  stop : Bool

inductive WorkStep (Conn : Type) (threadNum : Nat) where
  /-- The constructor commits `Tick`. -/
  | commitTick
  /-- A connection has been accepted. -/
  | accept (conn : Conn)
  /-- `Shutdown` of the timer manager. -/
  | shutdownTimers
  /-- The threads of the pool, and its `Shutdown`. -/
  | pool (label : SignalledStep (WorkTask Conn) threadNum)

variable {Conn : Type} {threadNum : Nat}

/-- The connection that a step accepts. -/
def WorkStep.accepts : WorkStep Conn threadNum → Option Conn
  | .accept conn => some conn
  | .commitTick | .shutdownTimers | .pool _ => none

/-- The steps that go on by themselves, once they are called for. -/
def WorkStep.Own : WorkStep Conn threadNum → Prop
  | .pool label => label.Own
  | .commitTick | .accept _ | .shutdownTimers => False

def WorkTask.isTick : WorkTask Conn → Bool
  | .tick => true
  | .handle _ => false

namespace WorkPool

def initial : WorkPool Conn threadNum := ⟨.initial, false⟩

def onPool (server : WorkPool Conn threadNum) (label : SignalledStep (WorkTask Conn) threadNum) :
    Option (WorkPool Conn threadNum) :=
  (server.pool.step label).map fun pool => { server with pool }

/-- `Tick` does not end before the timers are shut down, nor is the pool shut down before. -/
def allows (server : WorkPool Conn threadNum) : SignalledStep (WorkTask Conn) threadNum → Bool
  | .commit _ => false
  | .callShutdown => server.stop
  | .finish worker =>
    match server.pool.threads worker with
    | .running .tick => server.stop
    | _ => true
  | .look _ | .lookShutdown | .notifyOne _ | .notifyAll | .join | .spurious _
  | .spuriousShutdown => true

def step (server : WorkPool Conn threadNum) :
    WorkStep Conn threadNum → Option (WorkPool Conn threadNum)
  | .commitTick =>
    if server.pool.accepted.isEmpty then server.onPool (.commit .tick) else none
  -- The server is constructed before it accepts connections.
  | .accept conn =>
    if server.pool.accepted.isEmpty then none else server.onPool (.commit (.handle conn))
  | .shutdownTimers => some { server with stop := true }
  | .pool label => if server.allows label then server.onPool label else none

/-- Nothing goes on by itself. -/
def AtRest (server : WorkPool Conn threadNum) : Prop :=
  ∀ label : WorkStep Conn threadNum, label.Own → server.step label = none

/-! ### What every step keeps -/

/-- As long as the timers go on, `Tick` has been committed in front of the connections that have
been accepted, and has not ended; and the pool is not shut down. -/
structure Sound (server : WorkPool Conn threadNum) (conns : List Conn) : Prop where
  pool : server.pool.Sound
  called : server.stop = false → server.pool.shutdown = .pending
  ticks : server.stop = false → .tick ∉ server.pool.finished
  accepted : server.stop = false →
    server.pool.accepted = [] ∧ conns = [] ∨
      server.pool.accepted = .tick :: conns.map .handle

theorem Sound.initial : (WorkPool.initial : WorkPool Conn threadNum).Sound [] where
  pool := .initial
  called _ := rfl
  ticks _ := List.not_mem_nil
  accepted _ := .inl ⟨rfl, rfl⟩

variable {server next : WorkPool Conn threadNum} {conns : List Conn}

/-- A pool that is not shut down is not stopped. -/
theorem Sound.up (sound : server.Sound conns) (going : server.stop = false) :
    server.pool.stop = false := by
  refine Bool.eq_false_iff.mpr fun stop => ?_
  have called := sound.pool.coarse.shutdown.mp stop
  refine called ?_
  change server.pool.shutdown.toPhase = .pending
  rw [sound.called going]
  rfl

/-- A task is committed, in front of which there is `Tick`, or which is it. -/
theorem Sound.commit {task : WorkTask Conn} {others : List Conn} (sound : server.Sound conns)
    (taken : server.onPool (.commit task) = some next)
    (queued : server.stop = false →
      server.pool.accepted ++ [task] = .tick :: others.map .handle) : next.Sound others := by
  obtain ⟨pool, committed, rfl⟩ := Option.map_eq_some_iff.mp taken
  have kept := sound.pool.step committed
  have goes : server.stop = false → pool.shutdown = server.pool.shutdown ∧
      pool.finished = server.pool.finished ∧ pool.accepted = server.pool.accepted ++ [task] := by
    intro going
    have notStopped := Bool.eq_false_iff.mp (sound.up going)
    cases (if_neg notStopped).symm.trans committed
    exact ⟨rfl, rfl, rfl⟩
  refine ⟨kept, fun going => ?_, fun going => ?_, fun going => .inr ?_⟩
  · exact (goes going).1.trans (sound.called going)
  · exact (goes going).2.1 ▸ sound.ticks going
  · exact (goes going).2.2.trans (queued going)

/-- While the timers go on, the threads do not shut the pool down, and do not end `Tick`. -/
theorem Sound.going_onPool {label : SignalledStep (WorkTask Conn) threadNum}
    (sound : server.Sound conns) (going : server.stop = false) (allowed : server.allows label)
    {pool : SignalledPool (WorkTask Conn) threadNum} (moved : server.pool.step label = some pool) :
    pool.shutdown = .pending ∧ .tick ∉ pool.finished ∧ pool.accepted = server.pool.accepted := by
  have pending := sound.called going
  have unfinished := sound.ticks going
  cases SignalledPool.takes_of_step moved with
  | commit | commitStopped => cases allowed
  | callShutdown => exact absurd (going.symm.trans allowed) (by decide)
  | lookTask looks up front =>
    refine ⟨?_, unfinished, rfl⟩
    simp only [SignalledPool.take, SignalledPool.setThread, pending, ShutdownCall.notify, ite_self]
  | @finish worker task running =>
    refine ⟨pending, fun ended => ?_, rfl⟩
    rcases List.mem_append.mp ended with before | here
    · exact unfinished before
    · rw [allows, running, ← List.mem_singleton.mp here] at allowed
      exact absurd (going.symm.trans allowed) (by decide)
  | lookShutdown looks | lookShutdownTasks looks => cases pending.symm.trans looks
  | notifyAll notifying => cases pending.symm.trans notifying
  | join joining => cases pending.symm.trans joining
  | spuriousShutdown asleep => cases pending.symm.trans asleep
  | lookStopped | lookNothing | notifyOne | notifyNone | spurious =>
    exact ⟨pending, unfinished, rfl⟩

theorem Sound.step {label : WorkStep Conn threadNum} (sound : server.Sound conns)
    (taken : server.step label = some next) : next.Sound (conns ++ label.accepts.toList) := by
  cases label with
  | commitTick =>
    obtain ⟨nothing, taken⟩ := Option.ite_none_right_eq_some.mp taken
    have none : server.pool.accepted = [] := List.isEmpty_iff.mp nothing
    rw [WorkStep.accepts, Option.toList_none, List.append_nil]
    refine sound.commit taken fun going => ?_
    rcases sound.accepted going with ⟨-, rfl⟩ | some
    · rw [none]
      rfl
    · cases none.symm.trans some
  | accept conn =>
    obtain ⟨some, taken⟩ := Option.ite_none_left_eq_some.mp taken
    refine sound.commit taken fun going => ?_
    rcases sound.accepted going with ⟨none, -⟩ | queued
    · rw [none] at some
      exact absurd rfl some
    · rw [queued, WorkStep.accepts, Option.toList_some, List.map_append, List.map_singleton,
        List.cons_append]
  | shutdownTimers =>
    cases taken
    exact ⟨sound.pool, nofun, nofun, nofun⟩
  | pool label =>
    obtain ⟨allowed, taken⟩ := Option.ite_none_right_eq_some.mp taken
    obtain ⟨pool, moved, rfl⟩ := Option.map_eq_some_iff.mp taken
    rw [WorkStep.accepts, Option.toList_none, List.append_nil]
    refine ⟨sound.pool.step moved, fun going => ?_, fun going => ?_, fun going => ?_⟩
    · exact (sound.going_onPool going allowed moved).1
    · exact (sound.going_onPool going allowed moved).2.1
    · exact (sound.going_onPool going allowed moved).2.2 ▸ sound.accepted going

/-! ### Coming to rest -/

namespace AtRest

/-- A step of the threads that is allowed is not possible. -/
theorem pool (rest : server.AtRest) (label : SignalledStep (WorkTask Conn) threadNum)
    (own : label.Own) (allowed : server.allows label) : server.pool.step label = none := by
  have stuck := rest (.pool label) own
  rw [step, if_pos allowed] at stuck
  exact Option.map_eq_none_iff.mp stuck

/-- Once the timers are shut down, the pool is at rest where the server is. -/
theorem pool_of_stop (rest : server.AtRest) (stop : server.stop = true) : server.pool.AtRest := by
  intro label own
  refine rest.pool label own ?_
  cases label with
  | commit | callShutdown => cases own
  | finish worker =>
    rw [allows, stop]
    split <;> rfl
  | _ => rfl

/-- At rest, a worker sleeps or has left, or ticks. -/
theorem threads (rest : server.AtRest) (worker : Fin threadNum) :
    server.pool.threads worker = .asleep ∨ server.pool.threads worker = .exited ∨
      server.pool.threads worker = .running .tick := by
  cases thread : server.pool.threads worker with
  | asleep => exact .inl rfl
  | exited => exact .inr (.inl rfl)
  | looking =>
    have looks := rest.pool (.look worker) trivial rfl
    simp only [SignalledPool.step, thread] at looks
    cases looks
  | running task =>
    cases task with
    | tick => exact .inr (.inr rfl)
    | handle conn =>
      have allowed : server.allows (.finish worker) := by rw [allows, thread]
      have finishes := rest.pool (.finish worker) trivial allowed
      simp only [SignalledPool.step, thread] at finishes
      cases finishes

theorem lookers (rest : server.AtRest) : PoolThread.lookers server.pool.threads = 0 := by
  refine weigh_eq_zero_iff.mpr fun worker => ?_
  rcases rest.threads worker with thread | thread | thread <;> rw [thread] <;> rfl

theorem notifyOnes (rest : server.AtRest) : server.pool.notifyOnes = 0 :=
  SignalledPool.notifyOnes_eq_zero fun worker =>
    rest.pool (.notifyOne worker) trivial rfl

end AtRest

/-- How often `Tick` is among these tasks. -/
def tickCount (tasks : Multiset (WorkTask Conn)) : Nat := tasks.countP fun task => task.isTick

theorem tickCount_cons (tasks : Multiset (WorkTask Conn)) :
    tickCount (.tick ::ₘ tasks) = tickCount tasks + 1 :=
  Multiset.countP_cons_of_pos tasks rfl

theorem tickCount_add (tasks others : Multiset (WorkTask Conn)) :
    tickCount (tasks + others) = tickCount tasks + tickCount others :=
  Multiset.countP_add _ tasks others

theorem tickCount_eq_zero {tasks : Multiset (WorkTask Conn)} :
    tickCount tasks = 0 ↔ .tick ∉ tasks := by
  refine Multiset.countP_eq_zero.trans ⟨fun none member => none _ member rfl, ?_⟩
  intro absent task member isTick
  cases task with
  | tick => exact absent member
  | handle => cases isTick

theorem tickCount_handle (conns : List Conn) :
    tickCount ((conns.map WorkTask.handle : List (WorkTask Conn)) : Multiset (WorkTask Conn)) = 0 :=
  tickCount_eq_zero.mpr fun member => by
    obtain ⟨conn, -, isTick⟩ := List.mem_map.mp (Multiset.mem_coe.mp member)
    cases isTick

/-- `Tick` is committed once. -/
theorem Sound.tickCount_accepted (sound : server.Sound conns) (going : server.stop = false) :
    tickCount (server.pool.accepted : Multiset (WorkTask Conn)) ≤ 1 := by
  rcases sound.accepted going with ⟨nothing, -⟩ | queued
  · rw [nothing]
    exact Nat.zero_le _
  · rw [queued, ← Multiset.cons_coe, tickCount_cons, tickCount_handle]

/-- At rest, workers sleep or tick as long as the timers go on. -/
theorem Sound.threads (sound : server.Sound conns) (rest : server.AtRest)
    (going : server.stop = false) (worker : Fin threadNum) :
    server.pool.threads worker = .asleep ∨ server.pool.threads worker = .running .tick := by
  rcases rest.threads worker with asleep | exited | ticks
  · exact .inl asleep
  · exact absurd (sound.pool.exited worker exited) (Bool.eq_false_iff.mp (sound.up going))
  · exact .inr ticks

/-- At rest, what runs is `Tick`. -/
theorem Sound.running (sound : server.Sound conns) (rest : server.AtRest)
    (going : server.stop = false) : ∀ task ∈ server.pool.toThreadPool.running, task = .tick := by
  intro task member
  obtain ⟨worker, held⟩ := mem_total.mp member
  change task ∈ (server.pool.threads worker).toWorker.task at held
  rcases sound.threads rest going worker with asleep | ticks
  · rw [asleep] at held
    exact absurd held (Multiset.notMem_zero _)
  · rw [ticks] at held
    exact Multiset.mem_singleton.mp held

/-- At rest, in a pool of two workers, one sleeps, so that there is no task. -/
theorem Sound.tasks (sound : server.Sound conns) (rest : server.AtRest)
    (going : server.stop = false) (two : 2 ≤ threadNum) : server.pool.tasks = [] := by
  by_contra some
  have ticking : ∀ worker, server.pool.threads worker = .running .tick := fun worker =>
    (sound.threads rest going worker).resolve_left fun asleep =>
      some (sound.pool.tasks_of_asleep asleep rest.notifyOnes rest.lookers)
  have held : ∀ worker, (server.pool.toThreadPool.workers worker).task = {.tick} := by
    intro worker
    change (server.pool.threads worker).toWorker.task = {.tick}
    rw [ticking worker]
    rfl
  have both : ({.tick} + {.tick} : Multiset (WorkTask Conn)) ≤
      server.pool.toThreadPool.running := by
    have differ : (⟨0, by omega⟩ : Fin threadNum) ≠ ⟨1, by omega⟩ := by simp
    have pair := add_le_total (fun worker => (server.pool.toThreadPool.workers worker).task)
      differ
    rwa [held, held] at pair
  have among : server.pool.toThreadPool.running ≤ (server.pool.accepted : Multiset _) := by
    have accounted : (server.pool.accepted : Multiset (WorkTask Conn)) = server.pool.tasks +
        server.pool.toThreadPool.running + server.pool.finished := sound.pool.coarse.accounted
    rw [accounted]
    exact (Multiset.le_add_left _ _).trans (Multiset.le_add_right _ _)
  have twice : tickCount ({.tick} + {.tick}) ≤ tickCount (server.pool.accepted : Multiset _) :=
    Multiset.countP_le_of_le _ (both.trans among)
  have once := sound.tickCount_accepted going
  rw [tickCount_add, ← Multiset.cons_zero, tickCount_cons] at twice
  omega

/-- At rest, all connections have been handled, each once. -/
theorem Sound.finished (sound : server.Sound conns) (rest : server.AtRest)
    (going : server.stop = false) (two : 2 ≤ threadNum) :
    (server.pool.finished : Multiset (WorkTask Conn)) = ↑(conns.map WorkTask.handle) := by
  have accounted : (server.pool.accepted : Multiset (WorkTask Conn)) = server.pool.tasks +
      server.pool.toThreadPool.running + server.pool.finished := sound.pool.coarse.accounted
  rw [sound.tasks rest going two, Multiset.coe_nil, Multiset.zero_add] at accounted
  rcases sound.accepted going with ⟨nothing, rfl⟩ | queued
  · rw [nothing, Multiset.coe_nil] at accounted
    exact (add_eq_zero.mp accounted.symm).2
  · have unfinished : tickCount (server.pool.finished : Multiset (WorkTask Conn)) = 0 :=
      tickCount_eq_zero.mpr fun member => sound.ticks going (Multiset.mem_coe.mp member)
    have running := sound.running rest going
    have all : tickCount server.pool.toThreadPool.running =
        server.pool.toThreadPool.running.card :=
      Multiset.countP_eq_card.mpr fun task member => by rw [running task member]; rfl
    rw [queued, ← Multiset.cons_coe] at accounted
    have once := congrArg tickCount accounted
    rw [tickCount_cons, tickCount_handle, tickCount_add, all, unfinished] at once
    have single : server.pool.toThreadPool.running = {.tick} := by
      have one : server.pool.toThreadPool.running.card = 1 := by omega
      rw [Multiset.eq_replicate_card.mpr running, one]
      rfl
    rw [single, Multiset.singleton_add] at accounted
    exact ((Multiset.cons_inj_right _).mp accounted).symm

/-- A server is at rest where the workers sleep or tick and nothing is left to be notified. -/
theorem atRest_of_going (going : server.stop = false) (pending : server.pool.shutdown = .pending)
    (notified : server.pool.notifyOnes = 0)
    (threads : ∀ worker, server.pool.threads worker = .asleep ∨
      server.pool.threads worker = .running .tick) : server.AtRest := by
  intro label own
  cases label with
  | commitTick | accept | shutdownTimers => cases own
  | pool label =>
    have still : server.allows label → server.pool.step label = none := by
      intro allowed
      cases label with
      | commit | callShutdown | spurious | spuriousShutdown => cases own
      | look worker =>
        rcases threads worker with thread | thread <;> simp only [SignalledPool.step, thread]
      | finish worker =>
        rcases threads worker with asleep | ticks
        · simp only [SignalledPool.step, asleep]
        · rw [allows, ticks] at allowed
          exact absurd (going.symm.trans allowed) (by decide)
      | notifyOne worker =>
        cases worker with
        | none => simp only [SignalledPool.step, notified, Nat.lt_irrefl, false_and, if_false]
        | some worker =>
          rcases threads worker with thread | thread <;>
            simp only [SignalledPool.step, thread, notified, Nat.lt_irrefl, if_false]
      | lookShutdown | notifyAll | join => simp [SignalledPool.step, pending]
    rw [step]
    split
    case isTrue allowed =>
      rw [onPool, still allowed]
      rfl
    case isFalse => rfl

/-! ### Runs -/

/-- What the threads may still do by themselves becomes less. -/
theorem rank_lt {label : WorkStep Conn threadNum} (own : label.Own)
    (taken : server.step label = some next) : next.pool.rank < server.pool.rank := by
  cases label with
  | commitTick | accept | shutdownTimers => cases own
  | pool label =>
    obtain ⟨-, taken⟩ := Option.ite_none_right_eq_some.mp taken
    obtain ⟨pool, moved, rfl⟩ := Option.map_eq_some_iff.mp taken
    exact SignalledPool.rank_lt own moved

theorem Sound.run {labels : List (WorkStep Conn threadNum)} (sound : server.Sound conns)
    (ran : run WorkPool.step server labels = some next) :
    next.Sound (conns ++ labels.filterMap WorkStep.accepts) := by
  induction labels generalizing server conns with
  | nil =>
    cases ran
    rwa [List.filterMap_nil, List.append_nil]
  | cons label labels inductionHypothesis =>
    obtain ⟨middle, taken, later⟩ := (run_cons _).mp ran
    have kept := inductionHypothesis (sound.step taken) later
    have first : [label].filterMap WorkStep.accepts = label.accepts.toList := by
      cases label <;> rfl
    rwa [← List.singleton_append, List.filterMap_append, first, ← List.append_assoc]

end WorkPool

/-- A server whose pool has two workers or more serves its connections although `Tick` keeps one
of them busy. Whatever the threads have done in whatever order, what goes on by itself then is at
rest after boundedly many steps. At rest, while the timers go on, every connection that has been
accepted has been handled once; and once they are shut down, `Tick` has ended too, and a call
of `Shutdown` of the pool has returned. -/
theorem workPool_serves (two : 2 ≤ threadNum) (labels : List (WorkStep Conn threadNum))
    (reached : WorkPool Conn threadNum) (ran : run WorkPool.step .initial labels = some reached)
    (own : List (WorkStep Conn threadNum)) (owned : ∀ label ∈ own, label.Own)
    (final : WorkPool Conn threadNum) (went : run WorkPool.step reached own = some final) :
    own.length ≤ reached.pool.rank ∧ (final.AtRest →
      (final.stop = false → (final.pool.finished : Multiset (WorkTask Conn)) =
        ↑((labels.filterMap WorkStep.accepts).map WorkTask.handle)) ∧
      (final.stop = true → (final.pool.accepted : Multiset (WorkTask Conn)) =
        final.pool.finished ∧
          (final.pool.shutdown = .pending ∨ final.pool.shutdown = .returned))) := by
  have sound := WorkPool.Sound.run .initial ran
  have soundFinal := sound.run went
  have preserved : ∀ (server : WorkPool Conn threadNum) (label : WorkStep Conn threadNum)
      (next : WorkPool Conn threadNum), True → label.Own → server.step label = some next → True :=
    fun _ _ _ _ _ _ => trivial
  have bounded := length_add_rank_le WorkPool.step preserved
    (fun _ _ _ _ own taken => WorkPool.rank_lt own taken) trivial owned went
  have none : own.filterMap WorkStep.accepts = [] := by
    refine List.filterMap_eq_nil_iff.mpr fun label member => ?_
    cases label with
    | accept => exact absurd (owned _ member) id
    | commitTick | shutdownTimers | pool => rfl
  rw [none, List.append_nil, List.nil_append] at soundFinal
  refine ⟨Nat.le_of_add_right_le bounded, fun rest => ⟨fun going => ?_, fun stop => ?_⟩⟩
  · exact soundFinal.finished rest going two
  · have poolRest := rest.pool_of_stop stop
    exact ⟨soundFinal.pool.finished_of_rest poolRest (by omega),
      soundFinal.pool.shutdown_of_rest poolRest (by omega)⟩

/-- Two connections are handled by the worker that does not tick. -/
theorem workPool_serves_two :
    ∃ reached final, run WorkPool.step (.initial : WorkPool Nat 2)
        [.pool (.look 1), .commitTick, .accept 7, .pool (.look 0), .accept 8] = some reached ∧
      run WorkPool.step reached
        [.pool (.notifyOne (some 1)), .pool (.look 1), .pool (.notifyOne none),
          .pool (.notifyOne none), .pool (.finish 1), .pool (.look 1), .pool (.finish 1),
          .pool (.look 1)] = some final ∧
      8 ≤ reached.pool.rank ∧ final.AtRest ∧
      (final.pool.finished : Multiset (WorkTask Nat)) = ↑[WorkTask.handle 7, .handle 8] := by
  obtain ⟨reached, final, ran, went, going, pending, notified, first, second⟩ :
      ∃ reached final, run WorkPool.step (.initial : WorkPool Nat 2)
        [.pool (.look 1), .commitTick, .accept 7, .pool (.look 0), .accept 8] = some reached ∧
      run WorkPool.step reached
        [.pool (.notifyOne (some 1)), .pool (.look 1), .pool (.notifyOne none),
          .pool (.notifyOne none), .pool (.finish 1), .pool (.look 1), .pool (.finish 1),
          .pool (.look 1)] = some final ∧
      final.stop = false ∧ final.pool.shutdown = .pending ∧ final.pool.notifyOnes = 0 ∧
      final.pool.threads 0 = .running .tick ∧ final.pool.threads 1 = .asleep :=
    ⟨_, _, rfl, rfl, rfl, rfl, rfl, rfl, rfl⟩
  have rest : final.AtRest := WorkPool.atRest_of_going going pending notified fun worker => by
    match worker with
    | 0 => exact .inr first
    | 1 => exact .inl second
  obtain ⟨bounded, rests⟩ := workPool_serves (Nat.le_refl 2) _ reached ran _
    (by simp [WorkStep.Own, SignalledStep.Own]) final went
  exact ⟨reached, final, ran, went, bounded, rest, (rests rest).1 going⟩

end Luce
