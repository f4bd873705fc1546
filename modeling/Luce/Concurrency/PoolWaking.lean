/-
This file models the pool of threads at the grain of its condition variables, and proves
that it always comes to rest with its work done.

`Commit` and `Shutdown` notify `condition` after they have given back `queue_mtx_`; the
worker that takes the last task notifies `condition_producers_` before. A step is one pass
through a section, a notification, or a wake-up that nobody has asked for. The pool in which
a section behind a `wait` is entered when its condition holds is an abstraction of this one:
whoever sleeps or is about to look is waiting there.
-/

import Luce.Concurrency.ThreadPool
import Luce.Library.Waiting

namespace Luce

open Library.Transition Library.Waiting

variable {Task : Type} {threadNum : Nat}

/-- What the thread of a worker is doing. -/
inductive PoolThread (Task : Type) where
  /-- It is about to hold `queue_mtx_` and to evaluate the condition. -/
  | looking
  /-- It is in `condition.wait`. -/
  | asleep
  | running (task : Task)
  | exited
deriving DecidableEq, Repr

/-- How far the call of `Shutdown` is. -/
inductive ShutdownCall where
  | pending
  | looking
  /-- It is in `condition_producers_.wait`. -/
  | asleep
  /-- It has set `stop_`, and is about to notify all workers. -/
  | notifying
  | joining
  | returned
deriving DecidableEq, Repr

/-- The pool, with the calls of `condition.notify_one` that are still to come. -/
structure SignalledPool (Task : Type) (threadNum : Nat) where
  tasks : List Task
  stop : Bool
  threads : Fin threadNum → PoolThread Task
  shutdown : ShutdownCall
  notifyOnes : Nat
  accepted : List Task
  finished : List Task

inductive SignalledStep (Task : Type) (threadNum : Nat) where
  | commit (task : Task)
  /-- A worker evaluates its condition, with what follows in the same section. -/
  | look (worker : Fin threadNum)
  | finish (worker : Fin threadNum)
  | callShutdown
  /-- `Shutdown` evaluates its condition, with what follows in the same section. -/
  | lookShutdown
  /-- `condition.notify_one`, with the worker that it wakes, if any is asleep. -/
  | notifyOne (worker : Option (Fin threadNum))
  /-- `condition.notify_all`. -/
  | notifyAll
  | join
  /-- A worker wakes up without being notified. -/
  | spurious (worker : Fin threadNum)
  /-- `Shutdown` wakes up without being notified. -/
  | spuriousShutdown

/-- The steps that go on by themselves, once they are called for. -/
def SignalledStep.Own : SignalledStep Task threadNum → Prop
  | .look _ | .finish _ | .lookShutdown | .notifyOne _ | .notifyAll | .join => True
  | .commit _ | .callShutdown | .spurious _ | .spuriousShutdown => False

/-! ### Threads -/

namespace PoolThread

/-- A worker that is notified evaluates its condition. -/
def notify : PoolThread Task → PoolThread Task
  | .asleep => .looking
  | .looking => .looking
  | .running task => .running task
  | .exited => .exited

/-- The worker where waiting is one phase. -/
def toWorker : PoolThread Task → Worker Task
  | .looking | .asleep => .waiting
  | .running task => .running task
  | .exited => .exited

def asleepWeight : PoolThread Task → Nat
  | .asleep => 1
  | .looking | .running _ | .exited => 0

def lookingWeight : PoolThread Task → Nat
  | .looking => 1
  | .asleep | .running _ | .exited => 0

/-- How much the worker may still do by itself. -/
def rank : PoolThread Task → Nat
  | .running _ => 2
  | .looking => 1
  | .asleep | .exited => 0

theorem toWorker_notify (thread : PoolThread Task) : thread.notify.toWorker = thread.toWorker := by
  cases thread <;> rfl

theorem rank_notify_le (thread : PoolThread Task) : thread.notify.rank ≤ thread.rank + 1 := by
  cases thread with
  | asleep => exact Nat.le_refl _
  | looking | running | exited => exact Nat.le_succ _

/-- How many workers sleep. -/
def sleepers (threads : Fin threadNum → PoolThread Task) : Nat := weigh asleepWeight threads

/-- How many workers are about to evaluate the condition. -/
def lookers (threads : Fin threadNum → PoolThread Task) : Nat := weigh lookingWeight threads

variable {threads : Fin threadNum → PoolThread Task} {worker : Fin threadNum}

/-- A worker wakes up. -/
theorem update_of_asleep (sleeps : threads worker = .asleep) :
    sleepers (Function.update threads worker .looking) + 1 = sleepers threads ∧
      lookers (Function.update threads worker .looking) = lookers threads + 1 := by
  have sleeping := weigh_update asleepWeight threads worker .looking
  have looking := weigh_update lookingWeight threads worker .looking
  rw [sleeps] at sleeping looking
  exact ⟨sleeping, looking⟩

/-- A worker has evaluated the condition, and does not sleep. -/
theorem update_of_looking (looks : threads worker = .looking) {thread : PoolThread Task}
    (awake : thread.asleepWeight = 0) (done : thread.lookingWeight = 0) :
    sleepers (Function.update threads worker thread) = sleepers threads ∧
      lookers (Function.update threads worker thread) + 1 = lookers threads := by
  have sleeping := weigh_update asleepWeight threads worker thread
  have looking := weigh_update lookingWeight threads worker thread
  rw [looks, awake] at sleeping
  rw [looks, done] at looking
  exact ⟨sleeping, looking⟩

/-- A worker has run its task. -/
theorem update_of_running {task : Task} (running : threads worker = .running task) :
    sleepers (Function.update threads worker .looking) = sleepers threads ∧
      lookers (Function.update threads worker .looking) = lookers threads + 1 := by
  have sleeping := weigh_update asleepWeight threads worker .looking
  have looking := weigh_update lookingWeight threads worker .looking
  rw [running] at sleeping looking
  exact ⟨sleeping, looking⟩

/-- How much the workers may still do by themselves. -/
def ranks (threads : Fin threadNum → PoolThread Task) : Nat := weigh rank threads

theorem ranks_notify_le (threads : Fin threadNum → PoolThread Task) :
    ranks (fun worker => (threads worker).notify) ≤ ranks threads + threadNum := by
  have sum := weigh_map_le rank_notify_le threads
  rw [Fintype.card_fin, Nat.mul_one] at sum
  exact sum

/-- After `notify_all` nobody sleeps. -/
theorem sleepers_notify : sleepers (fun worker => (threads worker).notify) = 0 := by
  refine weigh_eq_zero_iff.mpr fun worker => ?_
  cases threads worker <;> rfl

end PoolThread

namespace ShutdownCall

/-- `condition_producers_.notify_one()`. -/
def notify : ShutdownCall → ShutdownCall
  | .asleep => .looking
  | call => call

/-- The call where waiting is one phase. -/
def toPhase : ShutdownCall → ShutdownPhase
  | .pending | .looking | .asleep => .pending
  | .notifying | .joining => .joining
  | .returned => .returned

/-- How much the call may still do by itself, and wake so many workers. -/
def rank (threadNum : Nat) : ShutdownCall → Nat
  | .pending => 0
  | .looking => threadNum + 3
  | .asleep => threadNum + 2
  | .notifying => threadNum + 2
  | .joining => 1
  | .returned => 0

theorem toPhase_notify (call : ShutdownCall) : call.notify.toPhase = call.toPhase := by
  cases call <;> rfl

theorem rank_notify_le (threadNum : Nat) (call : ShutdownCall) :
    call.notify.rank threadNum ≤ call.rank threadNum + 1 := by
  cases call with
  | asleep => exact Nat.le_refl _
  | pending | looking | notifying | joining | returned => exact Nat.le_succ _

end ShutdownCall

namespace SignalledPool

def initial : SignalledPool Task threadNum :=
  ⟨[], false, fun _ => .looking, .pending, 0, [], []⟩

def setThread (pool : SignalledPool Task threadNum) (worker : Fin threadNum)
    (thread : PoolThread Task) : SignalledPool Task threadNum :=
  { pool with threads := Function.update pool.threads worker thread }

/-- A worker takes the task at the front, and notifies `Shutdown` if it was the last one. -/
def take (pool : SignalledPool Task threadNum) (worker : Fin threadNum) (task : Task)
    (tasks : List Task) : SignalledPool Task threadNum :=
  { pool with
    tasks, shutdown := if tasks = [] then pool.shutdown.notify else pool.shutdown }.setThread
      worker (.running task)

/-- The section of a worker. -/
def look (pool : SignalledPool Task threadNum) (worker : Fin threadNum) :
    SignalledPool Task threadNum :=
  if pool.stop then pool.setThread worker .exited
  else
    match pool.tasks with
    | [] => pool.setThread worker .asleep
    | task :: tasks => pool.take worker task tasks

def step (pool : SignalledPool Task threadNum) :
    SignalledStep Task threadNum → Option (SignalledPool Task threadNum)
  | .commit task =>
    let pool := { pool with notifyOnes := pool.notifyOnes + 1 }
    if pool.stop then some pool
    else some { pool with tasks := pool.tasks ++ [task], accepted := pool.accepted ++ [task] }
  | .look worker =>
    match pool.threads worker with
    | .looking => some (pool.look worker)
    | _ => none
  | .finish worker =>
    match pool.threads worker with
    | .running task =>
      some ({ pool with finished := pool.finished ++ [task] }.setThread worker .looking)
    | _ => none
  | .callShutdown =>
    if pool.shutdown = .pending then some { pool with shutdown := .looking } else none
  | .lookShutdown =>
    if pool.shutdown = .looking then
      match pool.tasks with
      | [] => some { pool with stop := true, shutdown := .notifying }
      | _ :: _ => some { pool with shutdown := .asleep }
    else none
  | .notifyOne (some worker) =>
    match pool.threads worker with
    | .asleep =>
      if 0 < pool.notifyOnes then
        some ({ pool with notifyOnes := pool.notifyOnes - 1 }.setThread worker .looking)
      else none
    | _ => none
  | .notifyOne none =>
    if 0 < pool.notifyOnes ∧ ∀ worker, (pool.threads worker).asleepWeight = 0 then
      some { pool with notifyOnes := pool.notifyOnes - 1 }
    else none
  | .notifyAll =>
    if pool.shutdown = .notifying then
      some { pool with
        threads := fun worker => (pool.threads worker).notify, shutdown := .joining }
    else none
  | .join =>
    if pool.shutdown = .joining ∧ ∀ worker, (pool.threads worker).toWorker.hasExited then
      some { pool with shutdown := .returned }
    else none
  | .spurious worker =>
    match pool.threads worker with
    | .asleep => some (pool.setThread worker .looking)
    | _ => none
  | .spuriousShutdown =>
    if pool.shutdown = .asleep then some { pool with shutdown := .looking } else none

/-! ### What a step can have done -/

inductive Takes (pool : SignalledPool Task threadNum) :
    SignalledStep Task threadNum → SignalledPool Task threadNum → Prop
  | commit (task : Task) (up : pool.stop = false) :
    Takes pool (.commit task)
      { pool with
        notifyOnes := pool.notifyOnes + 1
        tasks := pool.tasks ++ [task]
        accepted := pool.accepted ++ [task] }
  | commitStopped (task : Task) (stop : pool.stop = true) :
    Takes pool (.commit task) { pool with notifyOnes := pool.notifyOnes + 1 }
  | lookStopped {worker : Fin threadNum} (looks : pool.threads worker = .looking)
    (stop : pool.stop = true) : Takes pool (.look worker) (pool.setThread worker .exited)
  | lookNothing {worker : Fin threadNum} (looks : pool.threads worker = .looking)
    (up : pool.stop = false) (empty : pool.tasks = []) :
    Takes pool (.look worker) (pool.setThread worker .asleep)
  | lookTask {worker : Fin threadNum} (looks : pool.threads worker = .looking)
    (up : pool.stop = false) {task : Task} {tasks : List Task}
    (front : pool.tasks = task :: tasks) : Takes pool (.look worker) (pool.take worker task tasks)
  | finish {worker : Fin threadNum} {task : Task} (running : pool.threads worker = .running task) :
    Takes pool (.finish worker)
      ({ pool with finished := pool.finished ++ [task] }.setThread worker .looking)
  | callShutdown (pending : pool.shutdown = .pending) :
    Takes pool .callShutdown { pool with shutdown := .looking }
  | lookShutdown (looks : pool.shutdown = .looking) (empty : pool.tasks = []) :
    Takes pool .lookShutdown { pool with stop := true, shutdown := .notifying }
  | lookShutdownTasks (looks : pool.shutdown = .looking) (some : pool.tasks ≠ []) :
    Takes pool .lookShutdown { pool with shutdown := .asleep }
  | notifyOne {worker : Fin threadNum} (asleep : pool.threads worker = .asleep)
    (under : 0 < pool.notifyOnes) :
    Takes pool (.notifyOne (some worker))
      ({ pool with notifyOnes := pool.notifyOnes - 1 }.setThread worker .looking)
  | notifyNone (under : 0 < pool.notifyOnes)
    (awake : ∀ worker, (pool.threads worker).asleepWeight = 0) :
    Takes pool (.notifyOne none) { pool with notifyOnes := pool.notifyOnes - 1 }
  | notifyAll (notifying : pool.shutdown = .notifying) :
    Takes pool .notifyAll
      { pool with
        threads := fun worker => (pool.threads worker).notify, shutdown := .joining }
  | join (joining : pool.shutdown = .joining)
    (exited : ∀ worker, (pool.threads worker).toWorker.hasExited) :
    Takes pool .join { pool with shutdown := .returned }
  | spurious {worker : Fin threadNum} (asleep : pool.threads worker = .asleep) :
    Takes pool (.spurious worker) (pool.setThread worker .looking)
  | spuriousShutdown (asleep : pool.shutdown = .asleep) :
    Takes pool .spuriousShutdown { pool with shutdown := .looking }

theorem takes_of_look {pool : SignalledPool Task threadNum} {worker : Fin threadNum}
    (looks : pool.threads worker = .looking) : pool.Takes (.look worker) (pool.look worker) := by
  rw [look]
  by_cases stop : pool.stop = true
  · rw [if_pos stop]
    exact .lookStopped looks stop
  · have up := Bool.eq_false_iff.mpr stop
    rw [if_neg stop]
    cases queued : pool.tasks with
    | nil => exact .lookNothing looks up queued
    | cons task tasks => exact .lookTask looks up queued

theorem takes_of_step {pool next : SignalledPool Task threadNum}
    {label : SignalledStep Task threadNum} (taken : pool.step label = some next) :
    pool.Takes label next := by
  cases label with
  | commit task =>
    by_cases stop : pool.stop = true
    · cases (if_pos stop).symm.trans taken
      exact .commitStopped task stop
    · cases (if_neg stop).symm.trans taken
      exact .commit task (Bool.eq_false_iff.mpr stop)
  | look worker =>
    simp only [SignalledPool.step] at taken
    split at taken <;> cases taken
    case h_1 looks => exact takes_of_look looks
  | finish worker =>
    simp only [SignalledPool.step] at taken
    split at taken <;> cases taken
    case h_1 running => exact .finish running
  | callShutdown =>
    obtain ⟨pending, took⟩ := Option.ite_none_right_eq_some.mp taken
    cases took
    exact .callShutdown pending
  | lookShutdown =>
    obtain ⟨looks, took⟩ := Option.ite_none_right_eq_some.mp taken
    cases queued : pool.tasks with
    | nil =>
      rw [queued] at took
      cases took
      exact queued ▸ .lookShutdown looks queued
    | cons task tasks =>
      rw [queued] at took
      cases took
      exact queued ▸ .lookShutdownTasks looks (queued ▸ List.cons_ne_nil _ _)
  | notifyOne worker =>
    cases worker with
    | none =>
      obtain ⟨⟨under, awake⟩, took⟩ := Option.ite_none_right_eq_some.mp taken
      cases took
      exact .notifyNone under awake
    | some worker =>
      simp only [SignalledPool.step] at taken
      split at taken
      case h_1 asleep =>
        obtain ⟨under, took⟩ := Option.ite_none_right_eq_some.mp taken
        cases took
        exact .notifyOne asleep under
      case h_2 => cases taken
  | notifyAll =>
    obtain ⟨notifying, took⟩ := Option.ite_none_right_eq_some.mp taken
    cases took
    exact .notifyAll notifying
  | join =>
    obtain ⟨⟨joining, exited⟩, took⟩ := Option.ite_none_right_eq_some.mp taken
    cases took
    exact .join joining exited
  | spurious worker =>
    simp only [SignalledPool.step] at taken
    split at taken <;> cases taken
    case h_1 asleep => exact .spurious asleep
  | spuriousShutdown =>
    obtain ⟨asleep, took⟩ := Option.ite_none_right_eq_some.mp taken
    cases took
    exact .spuriousShutdown asleep

/-! ### The pool where waiting is one phase -/

def toThreadPool (pool : SignalledPool Task threadNum) : ThreadPool Task threadNum where
  tasks := pool.tasks
  stop := pool.stop
  workers worker := (pool.threads worker).toWorker
  shutdown := pool.shutdown.toPhase
  accepted := pool.accepted
  finished := pool.finished

theorem toThreadPool_setThread (pool : SignalledPool Task threadNum) (worker : Fin threadNum)
    (thread : PoolThread Task) :
    (pool.setThread worker thread).toThreadPool =
      pool.toThreadPool.setWorker worker thread.toWorker := by
  have workers : (fun other => (Function.update pool.threads worker thread other).toWorker) =
      Function.update (fun other => (pool.threads other).toWorker) worker thread.toWorker :=
    funext fun other => Function.apply_update (fun _ => PoolThread.toWorker) _ worker thread other
  simp only [setThread, toThreadPool, ThreadPool.setWorker, workers]

/-- A worker that goes on waiting has not moved. -/
theorem toThreadPool_setThread_self {pool : SignalledPool Task threadNum} {worker : Fin threadNum}
    {thread : PoolThread Task} (same : thread.toWorker = (pool.threads worker).toWorker) :
    (pool.setThread worker thread).toThreadPool = pool.toThreadPool := by
  rw [toThreadPool_setThread, same, ThreadPool.setWorker]
  exact congrArg (fun workers => { pool.toThreadPool with workers })
    (Function.update_eq_self worker pool.toThreadPool.workers)

/-- Each step is a step of the pool where waiting is one phase, or none. -/
theorem follows (pool : SignalledPool Task threadNum) (label : SignalledStep Task threadNum)
    (next : SignalledPool Task threadNum) (taken : pool.step label = some next) :
    Reaches ThreadPool.step pool.toThreadPool next.toThreadPool := by
  cases takes_of_step taken with
  | commit task up =>
    have commits : pool.toThreadPool.step (.commit task) = some _ :=
      if_neg (Bool.eq_false_iff.mp up)
    exact .single commits
  | commitStopped task stop =>
    have commits : pool.toThreadPool.step (.commit task) = some _ := if_pos stop
    exact .single commits
  | @lookStopped worker looks stop =>
    have waiting : pool.toThreadPool.workers worker = .waiting :=
      congrArg PoolThread.toWorker looks
    have exits : pool.toThreadPool.step (.take worker) =
        some (pool.toThreadPool.setWorker worker .exited) := by
      simp only [ThreadPool.step, waiting]
      exact if_pos stop
    rw [toThreadPool_setThread]
    exact .single exits
  | lookNothing looks up empty =>
    rw [toThreadPool_setThread_self (by rw [looks]; rfl)]
    exact .refl _ _
  | @lookTask worker looks up task tasks front =>
    have waiting : pool.toThreadPool.workers worker = .waiting :=
      congrArg PoolThread.toWorker looks
    have same : (if tasks = [] then pool.shutdown.notify else pool.shutdown).toPhase =
        pool.shutdown.toPhase := by
      split
      · exact ShutdownCall.toPhase_notify _
      · rfl
    have takes : pool.toThreadPool.step (.take worker) =
        some ({ pool.toThreadPool with tasks }.setWorker worker (.running task)) := by
      have queued : pool.toThreadPool.tasks = task :: tasks := front
      have running : ¬ pool.toThreadPool.stop = true := Bool.eq_false_iff.mp up
      simp only [ThreadPool.step, waiting, if_neg running, queued]
    rw [take, toThreadPool_setThread]
    simp only [toThreadPool, same] at takes ⊢
    exact .single takes
  | @finish worker task running =>
    have busy : pool.toThreadPool.workers worker = .running task :=
      congrArg PoolThread.toWorker running
    have finishes : pool.toThreadPool.step (.finish worker) =
        some ({ pool.toThreadPool with finished := pool.finished ++ [task] }.setWorker worker
          .waiting) := by
      simp only [ThreadPool.step, busy]
      rfl
    rw [toThreadPool_setThread]
    exact .single finishes
  | callShutdown pending =>
    have same : pool.toThreadPool = { pool with shutdown := .looking }.toThreadPool := by
      simp only [toThreadPool, pending, ShutdownCall.toPhase]
    rw [← same]
    exact .refl _ _
  | lookShutdown looks empty =>
    have pending : pool.toThreadPool.shutdown = .pending := congrArg ShutdownCall.toPhase looks
    have stops : pool.toThreadPool.step .stop = some _ := if_pos ⟨pending, empty⟩
    exact .single stops
  | lookShutdownTasks looks some =>
    have same : pool.toThreadPool = { pool with shutdown := .asleep }.toThreadPool := by
      simp only [toThreadPool, looks, ShutdownCall.toPhase]
    rw [← same]
    exact .refl _ _
  | notifyOne asleep under =>
    rw [toThreadPool_setThread_self (by simp only [asleep]; rfl)]
    exact .refl _ _
  | notifyNone under awake => exact .refl _ _
  | notifyAll notifying =>
    have same : pool.toThreadPool = { pool with
        threads := fun worker => (pool.threads worker).notify,
        shutdown := .joining }.toThreadPool := by
      simp only [toThreadPool, notifying, ShutdownCall.toPhase, PoolThread.toWorker_notify]
    rw [← same]
    exact .refl _ _
  | join joining exited =>
    have joins : pool.toThreadPool.shutdown = .joining := congrArg ShutdownCall.toPhase joining
    have returns : pool.toThreadPool.step .join = some _ := if_pos ⟨joins, exited⟩
    exact .single returns
  | spurious asleep =>
    rw [toThreadPool_setThread_self (by rw [asleep]; rfl)]
    exact .refl _ _
  | spuriousShutdown asleep =>
    have same : pool.toThreadPool = { pool with shutdown := .looking }.toThreadPool := by
      simp only [toThreadPool, asleep, ShutdownCall.toPhase]
    rw [← same]
    exact .refl _ _

/-! ### What every step keeps -/

/-- The pool is sound where waiting is one phase. While a worker sleeps, there is a look to come
for each task; the workers that sleep in a stopped pool will be woken; `Shutdown` sleeps only
while there are tasks; and workers leave only a stopped pool. -/
structure Sound (pool : SignalledPool Task threadNum) : Prop where
  coarse : pool.toThreadPool.Sound
  attended : Attended (PoolThread.sleepers pool.threads)
    (pool.notifyOnes + PoolThread.lookers pool.threads) pool.tasks.length
  stopped : pool.stop = true →
    PoolThread.sleepers pool.threads = 0 ∨ pool.shutdown = .notifying
  waits : pool.shutdown = .asleep → pool.tasks ≠ []
  exited : ∀ worker, pool.threads worker = .exited → pool.stop = true

theorem Sound.initial : (SignalledPool.initial : SignalledPool Task threadNum).Sound where
  coarse := .initial
  attended := .of_empty
  stopped := nofun
  waits := nofun
  exited := nofun

theorem Sound.coarse_step {pool next : SignalledPool Task threadNum}
    {label : SignalledStep Task threadNum} (sound : pool.Sound)
    (taken : pool.step label = some next) : next.toThreadPool.Sound := by
  obtain ⟨labels, ran⟩ := follows pool label next taken
  exact invariant_run ThreadPool.step (fun _ _ _ sound taken => sound.step taken) sound.coarse ran

/-- A worker that goes on does not leave. -/
theorem Sound.exited_update {pool : SignalledPool Task threadNum} (sound : pool.Sound)
    {worker other : Fin threadNum} (thread : PoolThread Task) (stays : thread ≠ .exited)
    (gone : Function.update pool.threads worker thread other = .exited) : pool.stop = true := by
  by_cases same : other = worker
  · rw [same, Function.update_self] at gone
    exact absurd gone stays
  · rw [Function.update_of_ne same] at gone
    exact sound.exited other gone

/-- `Shutdown` does not sleep behind the notification of the last task. -/
theorem waits_take {pool : SignalledPool Task threadNum} {worker : Fin threadNum} {task : Task}
    {tasks : List Task} (asleep : (pool.take worker task tasks).shutdown = .asleep) :
    tasks ≠ [] := by
  rintro rfl
  change (if ([] : List Task) = [] then pool.shutdown.notify else pool.shutdown) = .asleep at asleep
  rw [if_pos rfl] at asleep
  cases call : pool.shutdown <;> rw [call] at asleep <;> cases asleep

/-- A worker wakes up, with or without one of the notifications. -/
theorem Sound.wake {pool : SignalledPool Task threadNum} (sound : pool.Sound)
    {worker : Fin threadNum} (asleep : pool.threads worker = .asleep) {notifyOnes : Nat}
    (one : pool.notifyOnes ≤ notifyOnes + 1)
    (coarse : ({ pool with notifyOnes }.setThread worker .looking).toThreadPool.Sound) :
    ({ pool with notifyOnes }.setThread worker .looking).Sound := by
  obtain ⟨sleeping, looking⟩ := PoolThread.update_of_asleep asleep
  have attended := sound.attended
  rw [← sleeping] at attended
  refine ⟨coarse, attended.wake.mono ?_ (Nat.le_refl _), fun stop => ?_, sound.waits,
    fun other gone => sound.exited_update .looking nofun gone⟩
  · change _ ≤ notifyOnes + PoolThread.lookers (Function.update pool.threads worker .looking)
    omega
  · refine (sound.stopped stop).imp_left fun none => ?_
    change PoolThread.sleepers (Function.update pool.threads worker .looking) = 0
    omega

theorem Sound.step {pool next : SignalledPool Task threadNum}
    {label : SignalledStep Task threadNum} (sound : pool.Sound)
    (taken : pool.step label = some next) : next.Sound := by
  have coarse := sound.coarse_step taken
  cases takes_of_step taken with
  | commit task up =>
    refine ⟨coarse, ?_, sound.stopped, fun _ => ?_, sound.exited⟩
    · change Attended _ (pool.notifyOnes + 1 + _) (pool.tasks ++ [task]).length
      rw [List.length_append, Nat.add_right_comm]
      exact sound.attended.announce
    · exact List.append_ne_nil_of_right_ne_nil _ (List.cons_ne_nil _ _)
  | commitStopped task stop =>
    refine ⟨coarse, sound.attended.mono ?_ (Nat.le_refl _), sound.stopped, sound.waits,
      sound.exited⟩
    exact Nat.add_le_add_right (Nat.le_succ _) _
  | @lookStopped worker looks stop =>
    have empty : pool.tasks = [] := sound.coarse.stopped stop
    refine ⟨coarse, empty ▸ .of_empty, fun _ => ?_, sound.waits, fun other gone => stop⟩
    change PoolThread.sleepers (Function.update pool.threads worker .exited) = 0 ∨ _
    rw [(PoolThread.update_of_looking looks rfl rfl).1]
    exact sound.stopped stop
  | lookNothing looks up empty =>
    exact ⟨coarse, empty ▸ .of_empty, fun stop => absurd stop (Bool.eq_false_iff.mp up),
      sound.waits, fun other gone => sound.exited_update .asleep nofun gone⟩
  | @lookTask worker looks up task tasks front =>
    obtain ⟨sleeping, looking⟩ :=
      PoolThread.update_of_looking looks (rfl : (PoolThread.running task).asleepWeight = 0) rfl
    refine ⟨coarse, ?_, fun stop => absurd stop (Bool.eq_false_iff.mp up), waits_take,
      fun other gone => sound.exited_update (.running task) nofun gone⟩
    have attended := sound.attended
    rw [front, ← looking, ← sleeping] at attended
    exact attended.take
  | @finish worker task running =>
    obtain ⟨sleeping, looking⟩ := PoolThread.update_of_running running
    refine ⟨coarse, ?_, ?_, sound.waits, fun other gone => sound.exited_update .looking nofun gone⟩
    · change Attended (PoolThread.sleepers (Function.update pool.threads worker .looking))
        (_ + PoolThread.lookers (Function.update pool.threads worker .looking)) _
      rw [sleeping, looking]
      exact sound.attended.mono (Nat.le_succ _) (Nat.le_refl _)
    · change _ → PoolThread.sleepers (Function.update pool.threads worker .looking) = 0 ∨ _
      rw [sleeping]
      exact sound.stopped
  | callShutdown pending =>
    refine ⟨coarse, sound.attended, fun stop => .inl ?_, nofun, sound.exited⟩
    exact (sound.stopped stop).resolve_right (by rw [pending]; exact nofun)
  | lookShutdown looks empty =>
    exact ⟨coarse, empty ▸ .of_empty, fun _ => .inr rfl, nofun, fun _ _ => rfl⟩
  | lookShutdownTasks looks some =>
    refine ⟨coarse, sound.attended, fun stop => .inl ?_, fun _ => some, sound.exited⟩
    exact (sound.stopped stop).resolve_right (by rw [looks]; exact nofun)
  | notifyOne asleep under => exact sound.wake asleep (by omega) coarse
  | notifyNone under awake =>
    have none : PoolThread.sleepers pool.threads = 0 := weigh_eq_zero_iff.mpr awake
    exact ⟨coarse, none ▸ .of_awake, sound.stopped, sound.waits, sound.exited⟩
  | notifyAll notifying =>
    refine ⟨coarse, .inl PoolThread.sleepers_notify, fun _ => .inl PoolThread.sleepers_notify,
      nofun, fun worker gone => sound.exited worker ?_⟩
    change (pool.threads worker).notify = .exited at gone
    cases thread : pool.threads worker <;> rw [thread] at gone <;> cases gone
  | join joining exited =>
    refine ⟨coarse, sound.attended, fun stop => .inl ?_, nofun, sound.exited⟩
    exact (sound.stopped stop).resolve_right (by rw [joining]; exact nofun)
  | spurious asleep => exact sound.wake asleep (Nat.le_succ _) coarse
  | spuriousShutdown asleep =>
    refine ⟨coarse, sound.attended, fun stop => .inl ?_, nofun, sound.exited⟩
    exact (sound.stopped stop).resolve_right (by rw [asleep]; exact nofun)

/-! ### Coming to rest -/

/-- How much the steps that are called for may still do. -/
def rank (pool : SignalledPool Task threadNum) : Nat :=
  3 * pool.tasks.length + 2 * pool.notifyOnes + PoolThread.ranks pool.threads +
    pool.shutdown.rank threadNum

theorem rank_setThread (pool : SignalledPool Task threadNum) (worker : Fin threadNum)
    (thread : PoolThread Task) :
    (pool.setThread worker thread).rank + (pool.threads worker).rank = pool.rank + thread.rank := by
  have moved := weigh_update PoolThread.rank pool.threads worker thread
  simp only [rank, setThread, PoolThread.ranks]
  omega

/-- What goes on by itself comes to an end. -/
theorem rank_lt {pool next : SignalledPool Task threadNum} {label : SignalledStep Task threadNum}
    (own : label.Own) (taken : pool.step label = some next) : next.rank < pool.rank := by
  cases takes_of_step taken with
  | commit | commitStopped | callShutdown | spurious | spuriousShutdown => cases own
  | @lookStopped worker looks =>
    have moved := rank_setThread pool worker .exited
    simp only [looks, PoolThread.rank] at moved
    omega
  | @lookNothing worker looks =>
    have moved := rank_setThread pool worker .asleep
    simp only [looks, PoolThread.rank] at moved
    omega
  | @lookTask worker looks up task tasks front =>
    -- the look and the task pay for the run, and for waking `Shutdown`
    let taking : SignalledPool Task threadNum :=
      { pool with
        tasks, shutdown := if tasks = [] then pool.shutdown.notify else pool.shutdown }
    have moved := rank_setThread taking worker (.running task)
    have notified := pool.shutdown.rank_notify_le threadNum
    have call : taking.shutdown.rank threadNum ≤ pool.shutdown.rank threadNum + 1 := by
      change (if tasks = [] then _ else _ : ShutdownCall).rank threadNum ≤ _
      split <;> omega
    have before : pool.rank = 3 * (tasks.length + 1) + 2 * pool.notifyOnes +
        PoolThread.ranks pool.threads + pool.shutdown.rank threadNum := by
      rw [rank, front, List.length_cons]
    have after : taking.rank = 3 * tasks.length + 2 * pool.notifyOnes +
        PoolThread.ranks pool.threads + taking.shutdown.rank threadNum := rfl
    have looked : (taking.threads worker).rank = 1 := congrArg PoolThread.rank looks
    have runs : (PoolThread.running task).rank = 2 := rfl
    change (taking.setThread worker (.running task)).rank < _
    omega
  | @finish worker task running =>
    have moved := rank_setThread { pool with finished := pool.finished ++ [task] } worker .looking
    have same : rank { pool with finished := pool.finished ++ [task] } = pool.rank := rfl
    simp only [running, PoolThread.rank] at moved
    omega
  | lookShutdown looks =>
    simp only [rank, looks, ShutdownCall.rank]
    omega
  | lookShutdownTasks looks =>
    simp only [rank, looks, ShutdownCall.rank]
    omega
  | @notifyOne worker asleep under =>
    have moved := rank_setThread { pool with notifyOnes := pool.notifyOnes - 1 } worker .looking
    have fewer : rank { pool with notifyOnes := pool.notifyOnes - 1 } + 2 = pool.rank := by
      simp only [rank]
      omega
    simp only [asleep, PoolThread.rank] at moved
    omega
  | notifyNone under =>
    simp only [rank]
    omega
  | notifyAll notifying =>
    have woken := PoolThread.ranks_notify_le pool.threads
    simp only [rank, notifying, ShutdownCall.rank]
    omega
  | join joining =>
    simp only [rank, joining, ShutdownCall.rank]
    omega

/-- Where nothing can be notified, no notification is to come. -/
theorem notifyOnes_eq_zero {pool : SignalledPool Task threadNum}
    (still : ∀ worker, pool.step (.notifyOne worker) = none) : pool.notifyOnes = 0 := by
  refine Nat.eq_zero_of_not_pos fun under => ?_
  by_cases awake : ∀ worker, (pool.threads worker).asleepWeight = 0
  · have notifies := still none
    rw [SignalledPool.step, if_pos ⟨under, awake⟩] at notifies
    cases notifies
  · obtain ⟨worker, sleeps⟩ := not_forall.mp awake
    cases thread : pool.threads worker with
    | asleep =>
      have notifies := still (some worker)
      simp only [SignalledPool.step, thread, if_pos under] at notifies
      cases notifies
    | looking | running | exited =>
      rw [thread] at sleeps
      exact sleeps rfl

/-- While a worker sleeps that nobody is about to notify, there is nothing for it to do. -/
theorem Sound.tasks_of_asleep {pool : SignalledPool Task threadNum} (sound : pool.Sound)
    {worker : Fin threadNum} (asleep : pool.threads worker = .asleep)
    (notifyOnes : pool.notifyOnes = 0) (lookers : PoolThread.lookers pool.threads = 0) :
    pool.tasks = [] := by
  have sleeps : PoolThread.sleepers pool.threads ≠ 0 := fun none => by
    have awake := weigh_eq_zero_iff.mp none worker
    rw [asleep] at awake
    cases awake
  have attended := sound.attended
  rw [notifyOnes, lookers] at attended
  exact List.length_eq_zero_iff.mp (attended.eq_zero sleeps)

/-- Nothing goes on by itself. -/
def AtRest (pool : SignalledPool Task threadNum) : Prop :=
  ∀ label : SignalledStep Task threadNum, label.Own → pool.step label = none

namespace AtRest

variable {pool : SignalledPool Task threadNum}

/-- At rest, a worker sleeps or has left. -/
theorem threads (rest : pool.AtRest) (worker : Fin threadNum) :
    pool.threads worker = .asleep ∨ pool.threads worker = .exited := by
  cases thread : pool.threads worker with
  | asleep => exact .inl rfl
  | exited => exact .inr rfl
  | looking =>
    have looks := rest (.look worker) trivial
    simp only [SignalledPool.step, thread] at looks
    cases looks
  | running task =>
    have finishes := rest (.finish worker) trivial
    simp only [SignalledPool.step, thread] at finishes
    cases finishes

theorem lookers (rest : pool.AtRest) : PoolThread.lookers pool.threads = 0 := by
  refine weigh_eq_zero_iff.mpr fun worker => ?_
  rcases rest.threads worker with asleep | exited
  · rw [asleep]
    rfl
  · rw [exited]
    rfl

theorem notifyOnes (rest : pool.AtRest) : pool.notifyOnes = 0 :=
  notifyOnes_eq_zero fun worker => rest (.notifyOne worker) trivial

/-- At rest, `Shutdown` has not been called, or sleeps, or waits for a worker, or has
returned. -/
theorem shutdown (rest : pool.AtRest) :
    pool.shutdown ≠ .looking ∧ pool.shutdown ≠ .notifying ∧
      (pool.shutdown = .joining → ¬ ∀ worker, pool.threads worker = .exited) := by
  refine ⟨fun looks => ?_, fun notifying => ?_, fun joining exited => ?_⟩
  · have looking := rest .lookShutdown trivial
    rw [SignalledPool.step, if_pos looks] at looking
    split at looking <;> cases looking
  · have notifies := rest .notifyAll trivial
    rw [SignalledPool.step, if_pos notifying] at notifies
    cases notifies
  · have gone : ∀ worker, (pool.threads worker).toWorker.hasExited := fun worker => by
      rw [exited worker]
      rfl
    have joins := rest .join trivial
    rw [SignalledPool.step, if_pos ⟨joining, gone⟩] at joins
    cases joins

end AtRest

/-- A pool is at rest once `Shutdown` has returned and nothing is left to be notified. -/
theorem atRest_of_returned {pool : SignalledPool Task threadNum}
    (exited : ∀ worker, pool.threads worker = .exited) (notified : pool.notifyOnes = 0)
    (returned : pool.shutdown = .returned) : pool.AtRest := by
  intro label own
  cases label with
  | commit | callShutdown | spurious | spuriousShutdown => cases own
  | look worker | finish worker => simp only [SignalledPool.step, exited]
  | notifyOne worker =>
    cases worker with
    | none => simp only [SignalledPool.step, notified, Nat.lt_irrefl, false_and, if_false]
    | some worker => simp only [SignalledPool.step, exited]
  | lookShutdown | notifyAll | join => simp [SignalledPool.step, returned]

/-- A pool at rest that has not been stopped has no task, if it has a worker. -/
theorem Sound.tasks_of_rest {pool : SignalledPool Task threadNum} (sound : pool.Sound)
    (rest : pool.AtRest) (some : 0 < threadNum) : pool.tasks = [] := by
  by_cases stop : pool.stop = true
  · exact sound.coarse.stopped stop
  · have asleep : pool.threads ⟨0, some⟩ = .asleep :=
      (rest.threads _).resolve_right fun exited => stop (sound.exited _ exited)
    exact sound.tasks_of_asleep asleep rest.notifyOnes rest.lookers

/-- At rest, a call of `Shutdown` has returned. -/
theorem Sound.shutdown_of_rest {pool : SignalledPool Task threadNum} (sound : pool.Sound)
    (rest : pool.AtRest) (some : 0 < threadNum) :
    pool.shutdown = .pending ∨ pool.shutdown = .returned := by
  obtain ⟨notLooking, notNotifying, joins⟩ := rest.shutdown
  cases call : pool.shutdown with
  | pending => exact .inl rfl
  | returned => exact .inr rfl
  | looking => exact absurd call notLooking
  | notifying => exact absurd call notNotifying
  | asleep => exact absurd (sound.tasks_of_rest rest some) (sound.waits call)
  | joining =>
    -- nobody sleeps in a stopped pool whose workers have been notified
    have stop : pool.stop = true := sound.coarse.shutdown.mpr (by
      change pool.shutdown.toPhase ≠ .pending
      rw [call]
      exact nofun)
    have none := (sound.stopped stop).resolve_right notNotifying
    refine absurd (fun worker => (rest.threads worker).resolve_left fun asleep => ?_) (joins call)
    have awake := weigh_eq_zero_iff.mp none worker
    rw [asleep] at awake
    cases awake

/-- At rest, all that has been accepted is finished. -/
theorem Sound.finished_of_rest {pool : SignalledPool Task threadNum} (sound : pool.Sound)
    (rest : pool.AtRest) (some : 0 < threadNum) :
    (pool.accepted : Multiset Task) = pool.finished := by
  have idle : pool.toThreadPool.running = 0 := by
    have nothing : (fun worker => (pool.toThreadPool.workers worker).task) = fun _ => 0 := by
      funext worker
      change (pool.threads worker).toWorker.task = 0
      rcases rest.threads worker with asleep | exited
      · rw [asleep]
        rfl
      · rw [exited]
        rfl
    rw [ThreadPool.running, nothing, Library.Holdings.total_zero]
  have accounted : (pool.accepted : Multiset Task) =
      pool.tasks + pool.toThreadPool.running + pool.finished := sound.coarse.accounted
  rw [accounted, sound.tasks_of_rest rest some, idle]
  simp

end SignalledPool

/-- Whatever the threads have done in whatever order, the pool has done what a pool can have
done in which a waiting thread is one that is not yet allowed to go on. -/
theorem signalledPool_refines (steps : List (SignalledStep Task threadNum))
    (final : SignalledPool Task threadNum)
    (ran : run SignalledPool.step .initial steps = some final) :
    Reaches ThreadPool.step ThreadPool.initial final.toThreadPool :=
  reaches_of_simulation SignalledPool.follows ran

/-- A worker has slept and been notified while `Shutdown` waits. -/
theorem signalledPool_refines_woken :
    ∃ final, run SignalledPool.step (.initial : SignalledPool Nat 2)
        [.look 0, .look 1, .commit 7, .callShutdown, .lookShutdown, .notifyOne (some 1),
          .look 1] = some final ∧ Reaches ThreadPool.step ThreadPool.initial final.toThreadPool :=
  ⟨_, rfl, signalledPool_refines [.look 0, .look 1, .commit 7, .callShutdown, .lookShutdown,
    .notifyOne (some 1), .look 1] _ rfl⟩

/-- Whatever the threads have done in whatever order, what goes on by itself then is at rest after
boundedly many steps, in whatever order. At rest, in a pool with a worker, all tasks that have
been accepted are finished, each once, and a call of `Shutdown` has returned. -/
theorem signalledPool_rests (steps : List (SignalledStep Task threadNum))
    (reached : SignalledPool Task threadNum)
    (ran : run SignalledPool.step .initial steps = some reached)
    (own : List (SignalledStep Task threadNum)) (owned : ∀ label ∈ own, label.Own)
    (final : SignalledPool Task threadNum)
    (went : run SignalledPool.step reached own = some final) :
    own.length ≤ reached.rank ∧
      (final.AtRest → 0 < threadNum → (final.accepted : Multiset Task) = final.finished ∧
        (final.shutdown = .pending ∨ final.shutdown = .returned)) := by
  have preserved : ∀ (pool : SignalledPool Task threadNum) (label : SignalledStep Task threadNum)
      (next : SignalledPool Task threadNum), pool.Sound → pool.step label = some next →
        next.Sound := fun _ _ _ sound taken => sound.step taken
  have sound : reached.Sound := invariant_run SignalledPool.step preserved .initial ran
  have soundFinal : final.Sound := invariant_run SignalledPool.step preserved sound went
  have bounded := length_add_rank_le SignalledPool.step
    (fun pool label next sound _ taken => preserved pool label next sound taken)
    (fun _ _ _ _ own taken => SignalledPool.rank_lt own taken) sound owned went
  exact ⟨Nat.le_of_add_right_le bounded, fun rest some =>
    ⟨soundFinal.finished_of_rest rest some, soundFinal.shutdown_of_rest rest some⟩⟩

/-- `Shutdown` waits for a task that a sleeping worker is woken for. -/
theorem signalledPool_rests_shutdown :
    ∃ reached final, run SignalledPool.step (.initial : SignalledPool Nat 1)
        [.look 0, .commit 7, .callShutdown, .lookShutdown] = some reached ∧
      run SignalledPool.step reached
        [.notifyOne (some 0), .look 0, .lookShutdown, .finish 0, .notifyAll, .look 0, .join] =
          some final ∧
      7 ≤ reached.rank ∧ final.AtRest ∧ (final.accepted : Multiset Nat) = final.finished ∧
      final.shutdown = .returned := by
  obtain ⟨reached, final, ran, went, exited, notified, returned⟩ : ∃ reached final,
      run SignalledPool.step (.initial : SignalledPool Nat 1)
        [.look 0, .commit 7, .callShutdown, .lookShutdown] = some reached ∧
      run SignalledPool.step reached
        [.notifyOne (some 0), .look 0, .lookShutdown, .finish 0, .notifyAll, .look 0, .join] =
          some final ∧
      final.threads 0 = .exited ∧ final.notifyOnes = 0 ∧ final.shutdown = .returned :=
    ⟨_, _, rfl, rfl, rfl, rfl, rfl⟩
  have rest : final.AtRest := SignalledPool.atRest_of_returned
    (fun worker => by rw [Subsingleton.elim worker 0, exited]) notified returned
  obtain ⟨bounded, rests⟩ := signalledPool_rests _ reached ran _ (by simp [SignalledStep.Own]) final
    went
  exact ⟨reached, final, ran, went, bounded, rest, (rests rest Nat.one_pos).1, returned⟩

end Luce
