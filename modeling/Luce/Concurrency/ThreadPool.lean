/-
This file models the pool of threads that run tasks, and proves that it neither loses
nor duplicates a task.

A step is one pass through a section that holds `queue_mtx_`, or something that a thread
does between two of them. A section behind a `wait` is entered when its condition holds.
`Shutdown` waits until the queue is empty and sets `stop_` in the same section, and
`Commit` queues nothing once `stop_` is set, so the queue stays empty although a worker
returns without looking at it.
-/

import Luce.Library.Holdings
import Luce.Library.Transition

namespace Luce

open Library.Holdings Library.Transition

variable {Task : Type}

/-- What the thread of a worker is doing. -/
inductive Worker (Task : Type) where
  /-- It is about to enter the section that takes a task. -/
  | waiting
  | running (task : Task)
  | exited
deriving DecidableEq, Repr

/-- How far the call of `Shutdown` is. -/
inductive ShutdownPhase where
  | pending | joining | returned
deriving DecidableEq, Repr

/-- The pool, with the tasks that have been accepted and those that are finished. -/
structure ThreadPool (Task : Type) (threadNum : Nat) where
  tasks : List Task
  stop : Bool
  workers : Fin threadNum → Worker Task
  shutdown : ShutdownPhase
  accepted : List Task
  finished : List Task

inductive ThreadPoolStep (Task : Type) (threadNum : Nat) where
  /-- The section of `Commit`. -/
  | commit (task : Task)
  /-- The section of a worker, behind its `wait`. -/
  | take (worker : Fin threadNum)
  /-- A worker's task is at its end. -/
  | finish (worker : Fin threadNum)
  /-- The section of `Shutdown`, behind its `wait`. -/
  | stop
  /-- `Shutdown` has joined all workers. -/
  | join

/-- The task that a worker runs, if any. -/
def Worker.task : Worker Task → Multiset Task
  | .running task => {task}
  | .waiting | .exited => 0

def Worker.hasExited : Worker Task → Bool
  | .exited => true
  | .waiting | .running _ => false

theorem Worker.task_of_hasExited {worker : Worker Task} (exited : worker.hasExited) :
    worker.task = 0 := by
  cases worker with
  | exited => rfl
  | waiting => cases exited
  | running => cases exited

namespace ThreadPool

variable {threadNum : Nat}

def initial : ThreadPool Task threadNum := ⟨[], false, fun _ => .waiting, .pending, [], []⟩

/-- The tasks that are taken and not finished. -/
def running (pool : ThreadPool Task threadNum) : Multiset Task :=
  total fun worker => (pool.workers worker).task

def setWorker (pool : ThreadPool Task threadNum) (worker : Fin threadNum) (state : Worker Task) :
    ThreadPool Task threadNum :=
  { pool with workers := Function.update pool.workers worker state }

def step (pool : ThreadPool Task threadNum) :
    ThreadPoolStep Task threadNum → Option (ThreadPool Task threadNum)
  | .commit task =>
    if pool.stop then some pool
    else some { pool with tasks := pool.tasks ++ [task], accepted := pool.accepted ++ [task] }
  | .take worker =>
    match pool.workers worker with
    | .waiting =>
      if pool.stop then some (pool.setWorker worker .exited)
      else
        match pool.tasks with
        | [] => none
        | task :: tasks => some ({ pool with tasks }.setWorker worker (.running task))
    | _ => none
  | .finish worker =>
    match pool.workers worker with
    | .running task =>
      some ({ pool with finished := pool.finished ++ [task] }.setWorker worker .waiting)
    | _ => none
  | .stop =>
    if pool.shutdown = .pending ∧ pool.tasks = [] then
      some { pool with stop := true, shutdown := .joining }
    else none
  | .join =>
    if pool.shutdown = .joining ∧ ∀ worker, (pool.workers worker).hasExited then
      some { pool with shutdown := .returned }
    else none

/-! ### What every step keeps -/

/-- No task is lost or duplicated; nothing is queued once the pool is stopped; and the
workers have exited once `Shutdown` has returned. -/
structure Sound (pool : ThreadPool Task threadNum) : Prop where
  accounted : (pool.accepted : Multiset Task) = pool.tasks + pool.running + pool.finished
  stopped : pool.stop = true → pool.tasks = []
  shutdown : pool.stop = true ↔ pool.shutdown ≠ .pending
  returned : pool.shutdown = .returned → ∀ worker, (pool.workers worker).hasExited

theorem Sound.initial : (ThreadPool.initial : ThreadPool Task threadNum).Sound where
  accounted := by
    have nothing : (ThreadPool.initial : ThreadPool Task threadNum).running = 0 := total_zero
    rw [nothing]
    rfl
  stopped := nofun
  shutdown := ⟨nofun, fun pending => absurd rfl pending⟩
  returned := nofun

/-- What is running, once a worker gives back its task and is given another one. -/
theorem running_setWorker (pool : ThreadPool Task threadNum) (worker : Fin threadNum)
    (state : Worker Task) :
    (pool.setWorker worker state).running + (pool.workers worker).task =
      pool.running + state.task :=
  total_exchange Worker.task pool.workers worker state

/-- `Shutdown` does not return while a worker works. -/
theorem Sound.not_returned {pool : ThreadPool Task threadNum} (sound : pool.Sound)
    {worker : Fin threadNum} (working : (pool.workers worker).hasExited = false) :
    pool.shutdown ≠ .returned := fun returned =>
  absurd (sound.returned returned worker) (Bool.eq_false_iff.mp working)

/-- `Commit` queues a task. -/
theorem Sound.commit {pool : ThreadPool Task threadNum} (sound : pool.Sound)
    (up : pool.stop = false) (task : Task) :
    Sound { pool with tasks := pool.tasks ++ [task], accepted := pool.accepted ++ [task] } where
  accounted := by
    have before := sound.accounted
    change ((pool.accepted ++ [task] : List Task) : Multiset Task) =
      ((pool.tasks ++ [task] : List Task) : Multiset Task) + pool.running + pool.finished
    rw [← Multiset.coe_add, ← Multiset.coe_add, before]
    ac_rfl
  stopped stop := absurd stop (Bool.eq_false_iff.mp up)
  shutdown := sound.shutdown
  returned := sound.returned

/-- A worker takes the task at the front. -/
theorem Sound.take {pool : ThreadPool Task threadNum} (sound : pool.Sound)
    {worker : Fin threadNum} (waiting : pool.workers worker = .waiting) {task : Task}
    {tasks : List Task} (front : pool.tasks = task :: tasks) :
    Sound ({ pool with tasks }.setWorker worker (.running task)) where
  accounted := by
    have before := sound.accounted
    have taken := running_setWorker { pool with tasks } worker (.running task)
    change _ + (pool.workers worker).task = pool.running + {task} at taken
    rw [waiting, Worker.task, add_zero] at taken
    rw [front, ← Multiset.cons_coe, ← Multiset.singleton_add] at before
    rw [taken]
    change (pool.accepted : Multiset Task) = tasks + (pool.running + {task}) + pool.finished
    rw [before]
    ac_rfl
  stopped stop := by
    have none := sound.stopped stop
    rw [front] at none
    cases none
  shutdown := sound.shutdown
  returned returned := absurd returned (sound.not_returned (by rw [waiting]; rfl))

/-- A worker's task ends. -/
theorem Sound.finish {pool : ThreadPool Task threadNum} (sound : pool.Sound)
    {worker : Fin threadNum} {task : Task} (running : pool.workers worker = .running task) :
    Sound ({ pool with finished := pool.finished ++ [task] }.setWorker worker .waiting) where
  accounted := by
    have before := sound.accounted
    have given := running_setWorker pool worker .waiting
    rw [running, Worker.task, Worker.task, add_zero] at given
    rw [← given] at before
    change (pool.accepted : Multiset Task) = pool.tasks + (pool.setWorker worker .waiting).running +
      ((pool.finished ++ [task] : List Task) : Multiset Task)
    rw [before, ← Multiset.coe_add, Multiset.coe_singleton]
    ac_rfl
  stopped := sound.stopped
  shutdown := sound.shutdown
  returned returned := absurd returned (sound.not_returned (by rw [running]; rfl))

/-- A worker exits, the pool being stopped. -/
theorem Sound.exit {pool : ThreadPool Task threadNum} (sound : pool.Sound)
    {worker : Fin threadNum} (waiting : pool.workers worker = .waiting) :
    (pool.setWorker worker .exited).Sound where
  accounted := by
    have same := running_setWorker pool worker .exited
    rw [waiting, Worker.task, Worker.task, add_zero, add_zero] at same
    rw [same]
    exact sound.accounted
  stopped := sound.stopped
  shutdown := sound.shutdown
  returned returned := absurd returned (sound.not_returned (by rw [waiting]; rfl))

theorem Sound.step {pool next : ThreadPool Task threadNum}
    {label : ThreadPoolStep Task threadNum} (sound : pool.Sound)
    (taken : pool.step label = some next) : next.Sound := by
  cases label with
  | commit task =>
    simp only [ThreadPool.step] at taken
    split at taken
    case isTrue =>
      cases taken
      exact sound
    case isFalse up =>
      cases taken
      exact sound.commit (Bool.eq_false_iff.mpr up) task
  | take worker =>
    simp only [ThreadPool.step] at taken
    split at taken
    case h_1 waiting =>
      split at taken
      case isTrue =>
        cases taken
        exact sound.exit waiting
      case isFalse =>
        split at taken <;> cases taken
        case h_2 front => exact sound.take waiting front
    case h_2 => cases taken
  | finish worker =>
    simp only [ThreadPool.step] at taken
    split at taken <;> cases taken
    case h_1 running => exact sound.finish running
  | stop =>
    simp only [ThreadPool.step] at taken
    split at taken
    case isTrue allowed =>
      cases taken
      exact ⟨sound.accounted, fun _ => allowed.2, ⟨fun _ => nofun, fun _ => rfl⟩, nofun⟩
    case isFalse => cases taken
  | join =>
    simp only [ThreadPool.step] at taken
    split at taken
    case isFalse => cases taken
    case isTrue allowed =>
      cases taken
      obtain ⟨joining, exited⟩ := allowed
      have stop : pool.stop = true := sound.shutdown.mpr (by rw [joining]; exact nofun)
      exact ⟨sound.accounted, sound.stopped, ⟨fun _ => nofun, fun _ => stop⟩, fun _ => exited⟩

/-- Once `Shutdown` has returned, everything accepted is finished. -/
theorem Sound.all_finished {pool : ThreadPool Task threadNum} (sound : pool.Sound)
    (returned : pool.shutdown = .returned) :
    (pool.accepted : Multiset Task) = pool.finished := by
  have stop : pool.stop = true := sound.shutdown.mpr (by rw [returned]; exact nofun)
  have idle : pool.running = 0 := by
    have none : (fun worker => (pool.workers worker).task) = fun _ => 0 :=
      funext fun worker => Worker.task_of_hasExited (sound.returned returned worker)
    rw [running, none, total_zero]
  rw [sound.accounted, sound.stopped stop, idle]
  simp

end ThreadPool

/-- In whatever the threads reach in whatever order, every accepted task is queued,
running or finished, and only one of them; a stopped pool has no queued task; and once
`Shutdown` has returned, the accepted tasks are the finished ones. -/
theorem threadPool_accounts {threadNum : Nat} (steps : List (ThreadPoolStep Task threadNum))
    (final : ThreadPool Task threadNum)
    (ran : run ThreadPool.step .initial steps = some final) :
    (final.accepted : Multiset Task) = final.tasks + final.running + final.finished ∧
      (final.stop = true → final.tasks = []) ∧
      (final.shutdown = .returned → (final.accepted : Multiset Task) = final.finished) := by
  have sound : final.Sound := invariant_run ThreadPool.step
    (fun _ _ _ sound taken => sound.step taken) .initial ran
  exact ⟨sound.accounted, sound.stopped, sound.all_finished⟩

/-- Two workers run three tasks, one of which is committed too late. -/
theorem threadPool_accounts_three :
    ∃ final, run ThreadPool.step (.initial : ThreadPool Nat 2)
      [.commit 7, .commit 8, .take 1, .take 0, .finish 0, .stop, .commit 9, .take 0, .finish 1,
        .take 1, .join] = some final ∧ (final.accepted : Multiset Nat) = final.finished :=
  ⟨_, rfl, (threadPool_accounts [.commit 7, .commit 8, .take 1, .take 0, .finish 0, .stop,
    .commit 9, .take 0, .finish 1, .take 1, .join] _ rfl).2.2 rfl⟩

end Luce
