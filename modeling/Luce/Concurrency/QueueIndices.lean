/-
This file settles when the queues that the coroutine pool uses are there.

The constructor makes as many queues as its argument says, and starts as many workers as
`thread_num_` says: as many as there are processors, if the argument is zero. Every index of
a queue is taken modulo `thread_num_` or compared with it. So an index is that of a queue as
long as the two numbers agree, and no index is when there is no queue. What a worker or a
call does is told by the indices it uses, one after the other.
-/

import Luce.Concurrency.CoThreadPool

namespace Luce.Co

/-- What the constructor of a pool sets for good. -/
structure PoolSizes where
  threadNum : UInt64
  /-- The size of `task_queues_`. -/
  taskQueues : UInt64
  enableWorkSteal : Bool
deriving DecidableEq, Repr

/-- An `int32_t` as a `size_t`. -/
def asSize (id : Int32) : UInt64 := id.toInt64.toUInt64

/-- What an `int` counts through while it is below the bound. At `2 ^ 31` it overflows. -/
def counter (bound : UInt64) : List UInt64 :=
  (List.range (min bound.toNat (2 ^ 31))).map UInt64.ofNat

/-- The indices that a loop tries, up to the first try that succeeds, and whether one does. -/
def tries (succeeds : UInt64 → Bool) (index : UInt64 → UInt64) :
    List UInt64 → List UInt64 × Bool
  | [] => ([], false)
  | i :: rest =>
    if succeeds i then ([index i], true)
    else
      let (tried, found) := tries succeeds index rest
      (index i :: tried, found)

namespace PoolSizes

/-- The constructor, on a machine with so many processors. -/
def construct (hardwareConcurrency : UInt32) (threadNum : UInt64) (enableWorkSteal : Bool) :
    PoolSizes where
  threadNum := if threadNum ≠ 0 then threadNum else hardwareConcurrency.toUInt64
  taskQueues := threadNum
  enableWorkSteal

variable (pool : PoolSizes)

def getThreadNum : UInt64 := pool.threadNum

/-- The identities that the constructor starts workers with. -/
def workerIds : List UInt64 := counter pool.threadNum

/-- A turn of the loop of a worker. -/
def turn (id : UInt64) (popped : UInt64 → Bool) : List UInt64 :=
  let (tried, found) :=
    if pool.enableWorkSteal then
      tries popped (fun i => (id + i) % pool.threadNum) (counter pool.threadNum)
    else ([], false)
  if found then tried else tried ++ [id]

/-- `rand() % thread_num_` as an `int32_t`. -/
def draw (rand : Fin (2 ^ 31)) : Int32 := (UInt64.ofNat rand % pool.threadNum).toUInt32.toInt32

def scheduleById (stopped : Bool) (coro : Option CoroHandle) (id : Int32)
    (pushed : UInt64 → Bool) (rand : Fin (2 ^ 31)) : List UInt64 :=
  if coro = none then []
  else if stopped then []
  else if id = -1 then
    let (tried, found) :=
      if pool.enableWorkSteal then
        tries pushed (fun i => i % pool.threadNum) (counter (pool.threadNum * 2))
      else ([], false)
    if found then tried else tried ++ [asSize (pool.draw rand)]
  else if asSize id < pool.threadNum then [asSize id]
  else [] -- The assertion fails.

def getItemCount : List UInt64 := counter pool.threadNum

/-- Every index that is used is that of a queue. -/
structure Inside : Prop where
  turn : ∀ id ∈ pool.workerIds, ∀ popped, ∀ index ∈ pool.turn id popped, index < pool.taskQueues
  scheduleById : ∀ stopped coro id pushed rand,
    id = -1 ∨ 0 ≤ id ∧ asSize id < pool.getThreadNum →
      ∀ index ∈ pool.scheduleById stopped coro id pushed rand, index < pool.taskQueues
  getItemCount : ∀ index ∈ pool.getItemCount, index < pool.taskQueues

end PoolSizes

/-! ### What the loops use -/

theorem mem_counter {bound i : UInt64} (member : i ∈ counter bound) : i < bound := by
  obtain ⟨value, below, rfl⟩ := List.mem_map.mp member
  have less := List.mem_range.mp below
  rw [UInt64.lt_iff_toNat_lt, UInt64.toNat_ofNat']
  omega

theorem mem_tries {succeeds : UInt64 → Bool} {index : UInt64 → UInt64} {rounds : List UInt64}
    {used : UInt64} (member : used ∈ (tries succeeds index rounds).1) :
    ∃ i ∈ rounds, used = index i := by
  induction rounds with
  | nil => cases member
  | cons i rest inductionHypothesis =>
    rw [tries] at member
    split at member
    · exact ⟨i, List.mem_cons_self, List.mem_singleton.mp member⟩
    · rcases List.mem_cons.mp member with same | later
      · exact ⟨i, List.mem_cons_self, same⟩
      · obtain ⟨j, inside, same⟩ := inductionHypothesis later
        exact ⟨j, List.mem_cons_of_mem i inside, same⟩

/-- A number that fits an `int32_t` is the same as a `size_t` again. -/
theorem asSize_toInt32 {value : UInt64} (narrow : value.toNat < 2 ^ 31) :
    asSize value.toUInt32.toInt32 = value := by
  have positive : (value.toBitVec.setWidth 32).msb = false := by
    rw [BitVec.msb_eq_false_iff_two_mul_lt, BitVec.toNat_setWidth, UInt64.toNat_toBitVec]
    omega
  refine UInt64.toBitVec_inj.mp ?_
  show (value.toBitVec.setWidth 32).signExtend 64 = value.toBitVec
  rw [BitVec.signExtend_eq_setWidth_of_msb_false positive]
  refine BitVec.eq_of_toNat_eq ?_
  rw [BitVec.toNat_setWidth, BitVec.toNat_setWidth, UInt64.toNat_toBitVec]
  omega

namespace PoolSizes

variable {pool : PoolSizes}

theorem asSize_draw (rand : Fin (2 ^ 31)) :
    asSize (pool.draw rand) = UInt64.ofNat rand % pool.threadNum := by
  refine asSize_toInt32 ?_
  have small := rand.isLt
  have drawn : (UInt64.ofNat rand).toNat = rand := by
    rw [UInt64.toNat_ofNat']
    omega
  rw [UInt64.toNat_mod, drawn]
  exact (Nat.mod_le _ _).trans_lt small

/-- A loop that takes its indices modulo `thread_num_`, if it is run at all, and the index that
is used where no try succeeds. -/
theorem lt_of_tried (positive : 0 < pool.threadNum) {succeeds : UInt64 → Bool}
    (index : UInt64 → UInt64) {rounds : List UInt64} {tried : List UInt64 × Bool}
    (loop : tried = if pool.enableWorkSteal then
      tries succeeds (fun i => index i % pool.threadNum) rounds else ([], false))
    {last used : UInt64} (below : last < pool.threadNum)
    (member : used ∈ if tried.2 then tried.1 else tried.1 ++ [last]) : used < pool.threadNum := by
  have inLoop : ∀ used ∈ tried.1, used < pool.threadNum := by
    intro used member
    rw [loop] at member
    split at member
    · obtain ⟨i, _, rfl⟩ := mem_tries member
      exact UInt64.mod_lt _ positive
    · cases member
  split at member
  · exact inLoop used member
  · rcases List.mem_append.mp member with before | fallback
    · exact inLoop used before
    · exact List.mem_singleton.mp fallback ▸ below

theorem lt_of_mem_turn (positive : 0 < pool.threadNum) {id : UInt64} (own : id < pool.threadNum)
    {popped : UInt64 → Bool} {index : UInt64} (member : index ∈ pool.turn id popped) :
    index < pool.threadNum :=
  lt_of_tried positive (fun i => id + i) rfl own member

theorem lt_of_mem_scheduleById (positive : 0 < pool.threadNum) {stopped : Bool}
    {coro : Option CoroHandle} {id : Int32} {pushed : UInt64 → Bool} {rand : Fin (2 ^ 31)}
    {index : UInt64} (member : index ∈ pool.scheduleById stopped coro id pushed rand) :
    index < pool.threadNum := by
  have drawn : asSize (pool.draw rand) < pool.threadNum := by
    rw [asSize_draw]
    exact UInt64.mod_lt _ positive
  unfold scheduleById at member
  split at member
  · cases member
  · split at member
    · cases member
    · split at member
      · exact lt_of_tried positive (fun i => i) rfl drawn member
      · split at member
        · rename_i below
          exact List.mem_singleton.mp member ▸ below
        · cases member

/-- Where there are as many queues as `thread_num_` says, every index is that of a queue. -/
theorem inside_of_eq (positive : 0 < pool.threadNum) (same : pool.taskQueues = pool.threadNum) :
    pool.Inside where
  turn _ started _ _ member := same ▸ lt_of_mem_turn positive (mem_counter started) member
  scheduleById _ _ _ _ _ _ _ member := same ▸ lt_of_mem_scheduleById positive member
  getItemCount _ member := same ▸ mem_counter member

/-- Where there is a worker, some index is used. -/
theorem Inside.taskQueues_ne_zero (inside : pool.Inside) (positive : 0 < pool.threadNum) :
    pool.taskQueues ≠ 0 := by
  intro none
  have counted : 0 ∈ pool.getItemCount := by
    refine List.mem_map.mpr ⟨0, List.mem_range.mpr ?_, rfl⟩
    exact lt_min (UInt64.lt_iff_toNat_lt.mp positive) (by decide)
  have below := inside.getItemCount 0 counted
  rw [none] at below
  exact absurd below (by decide)

end PoolSizes

/-- With at least one processor, every index that the workers, `ScheduleById` and `GetItemCount`
use is that of a queue, exactly when the pool is not made for zero threads. -/
theorem queueIndices_inside_iff (hardwareConcurrency : UInt32) (threadNum : UInt64)
    (enableWorkSteal : Bool) (present : 1 ≤ hardwareConcurrency) :
    (PoolSizes.construct hardwareConcurrency threadNum enableWorkSteal).Inside ↔
      threadNum ≠ 0 := by
  constructor
  · rintro inside rfl
    exact inside.taskQueues_ne_zero present rfl
  · intro nonzero
    have same : (PoolSizes.construct hardwareConcurrency threadNum enableWorkSteal).threadNum =
        threadNum := if_pos nonzero
    exact PoolSizes.inside_of_eq (same.symm ▸ UInt64.pos_iff_ne_zero.mpr nonzero) same.symm

/-- Two threads, on a machine with four processors. -/
theorem queueIndices_inside_two : (PoolSizes.construct 4 2 true).Inside :=
  (queueIndices_inside_iff 4 2 true (by decide)).mpr (by decide)

/-- With zero threads asked for, a worker is started and pops from the first of no queues. -/
theorem queueIndices_outside :
    (PoolSizes.construct 4 0 false).getThreadNum = 4 ∧
      0 ∈ (PoolSizes.construct 4 0 false).workerIds ∧
      0 ∈ (PoolSizes.construct 4 0 false).turn 0 (fun _ => false) ∧
      ¬ 0 < (PoolSizes.construct 4 0 false).taskQueues := by
  decide

end Luce.Co
