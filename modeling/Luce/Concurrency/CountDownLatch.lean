/-
This file models the latch that threads wait at until it is counted down, and decides
when it lets all of them through.

A step is one operation on the mutex or on the condition variable, with what the thread
does up to the next one. `CountDown` notifies once, when it takes the count to zero, and
only one thread. A thread that is blocked then and is not the one stays blocked, as a later
`CountDown` finds another count. So everything is well as long as the count is taken to
zero with at most one thread blocked.
-/

import Luce.Library.Transition
import Mathlib.Algebra.Ring.Int.Defs
import Mathlib.Data.Finset.Card
import Mathlib.Data.Int.Order.Basic
import Mathlib.Logic.Function.Basic

namespace Luce

open Library.Transition

inductive LatchCall where
  | wait | countDown | getCount
deriving DecidableEq, Repr

/-- What a thread is doing. -/
inductive LatchPhase where
  | outside
  /-- It is about to lock `mtx_`. -/
  | locking (call : LatchCall)
  /-- It has locked `mtx_`, and does what the call is for. -/
  | inside (call : LatchCall)
  /-- It is in `condition_.wait`, which has unlocked `mtx_`. -/
  | waiting
  /-- It is about to unlock `mtx_` and return. -/
  | leaving
deriving DecidableEq, Repr

def LatchPhase.holds : LatchPhase → Bool
  | .inside _ | .leaving => true
  | .outside | .locking _ | .waiting => false

/-- A latch, with the thread that has locked `mtx_` and those that are blocked on
`condition_`. -/
structure CountDownLatch (Thread : Type) where
  count : Int
  holder : Option Thread
  blocked : Finset Thread
  phases : Thread → LatchPhase

inductive LatchStep (Thread : Type) where
  | call (thread : Thread) (call : LatchCall)
  /-- `mtx_` is locked at the beginning of a call, or when `condition_.wait` returns. -/
  | lock (thread : Thread)
  /-- One turn of the loop of `Wait`. -/
  | wait (thread : Thread)
  /-- The body of `CountDown`, and whom it notifies. -/
  | countDown (thread : Thread) (notified : Option Thread)
  | getCount (thread : Thread)
  | unlock (thread : Thread)
  /-- A wake-up that nobody has asked for. -/
  | spurious (thread : Thread)
deriving DecidableEq, Repr

namespace CountDownLatch

variable {Thread : Type}

def initial (count : Int) : CountDownLatch Thread := ⟨count, none, ∅, fun _ => .outside⟩

def move [DecidableEq Thread] (latch : CountDownLatch Thread) (thread : Thread)
    (phase : LatchPhase) (holder : Option Thread) : CountDownLatch Thread :=
  { latch with phases := Function.update latch.phases thread phase, holder }

/-- `condition_.notify_one()`: one of the blocked threads is no longer, if there is one. -/
def notifyOne [DecidableEq Thread] (blocked : Finset Thread) :
    Option Thread → Option (Finset Thread)
  | some notified => if notified ∈ blocked then some (blocked.erase notified) else none
  | none => if blocked = ∅ then some ∅ else none

def step [DecidableEq Thread] (latch : CountDownLatch Thread) :
    LatchStep Thread → Option (CountDownLatch Thread)
  | .call thread call =>
    if latch.phases thread = .outside then some (latch.move thread (.locking call) latch.holder)
    else none
  | .lock thread =>
    if latch.holder = none then
      match latch.phases thread with
      | .locking call => some (latch.move thread (.inside call) (some thread))
      | .waiting =>
        if thread ∈ latch.blocked then none
        else some (latch.move thread (.inside .wait) (some thread))
      | _ => none
    else none
  | .wait thread =>
    if latch.phases thread = .inside .wait then
      if latch.count > 0 then
        some ({ latch with blocked := insert thread latch.blocked }.move thread .waiting none)
      else some (latch.move thread .leaving latch.holder)
    else none
  | .countDown thread notified =>
    -- A count of `-2^31` overflows.
    if latch.phases thread = .inside .countDown ∧ latch.count ≠ -2 ^ 31 then
      let latch := { latch with count := latch.count - 1 }.move thread .leaving latch.holder
      if latch.count = 0 then
        (notifyOne latch.blocked notified).map fun blocked => { latch with blocked }
      else if notified = none then some latch
      else none
    else none
  | .getCount thread =>
    if latch.phases thread = .inside .getCount then some (latch.move thread .leaving latch.holder)
    else none
  | .unlock thread =>
    if latch.phases thread = .leaving then some (latch.move thread .outside none) else none
  | .spurious thread =>
    if thread ∈ latch.blocked then some { latch with blocked := latch.blocked.erase thread }
    else none

/-- The thread is blocked in `condition_.wait` and has not been notified. -/
def Stuck (latch : CountDownLatch Thread) (thread : Thread) : Prop :=
  latch.phases thread = .waiting ∧ thread ∈ latch.blocked

/-- With the count used up, no thread is left blocked. -/
def ReleasesAll (latch : CountDownLatch Thread) : Prop :=
  latch.count ≤ 0 → ∀ thread, ¬ latch.Stuck thread

/-- A `CountDown` that takes the count to zero finds at most one thread blocked. -/
def OneBlocked (latch : CountDownLatch Thread) : LatchStep Thread → Prop
  | .countDown _ _ => latch.count = 1 → latch.blocked.card ≤ 1
  | _ => True

instance (latch : CountDownLatch Thread) (label : LatchStep Thread) :
    Decidable (latch.OneBlocked label) :=
  match label with
  | .countDown _ _ => inferInstanceAs (Decidable (latch.count = 1 → latch.blocked.card ≤ 1))
  | .call _ _ | .lock _ | .wait _ | .getCount _ | .unlock _ | .spurious _ => isTrue trivial

/-! ### Who holds the mutex, and who is blocked -/

/-- The threads inside are the one that holds `mtx_`, and those blocked are in `Wait`. -/
structure Coherent (latch : CountDownLatch Thread) : Prop where
  exclusive : ∀ thread, (latch.phases thread).holds = true ↔ latch.holder = some thread
  waiting : ∀ thread ∈ latch.blocked, latch.phases thread = .waiting

theorem Coherent.initial (count : Int) :
    (CountDownLatch.initial count : CountDownLatch Thread).Coherent where
  exclusive _ := ⟨nofun, nofun⟩
  waiting _ member := absurd member (Finset.notMem_empty _)

theorem Coherent.notMem {latch : CountDownLatch Thread} (coherent : latch.Coherent)
    {thread : Thread} (elsewhere : latch.phases thread ≠ .waiting) : thread ∉ latch.blocked :=
  fun member => elsewhere (coherent.waiting thread member)

/-- Some of the blocked threads are no longer. -/
theorem Coherent.shrink {latch : CountDownLatch Thread} (coherent : latch.Coherent)
    {blocked : Finset Thread} (fewer : blocked ⊆ latch.blocked) :
    Coherent { latch with blocked } where
  exclusive := coherent.exclusive
  waiting thread member := coherent.waiting thread (fewer member)

variable [DecidableEq Thread]

/-- A thread that is not blocked moves, and takes or gives back the mutex with it. -/
theorem Coherent.move {latch : CountDownLatch Thread} (coherent : latch.Coherent)
    {thread : Thread} (awake : thread ∉ latch.blocked) {phase : LatchPhase} {holder : Option Thread}
    (own : phase.holds = true ↔ holder = some thread)
    (others : ∀ other, other ≠ thread → (holder = some other ↔ latch.holder = some other)) :
    (latch.move thread phase holder).Coherent where
  exclusive other := by
    by_cases same : other = thread
    · subst same
      simpa [CountDownLatch.move] using own
    · simpa [CountDownLatch.move, same, others other same] using coherent.exclusive other
  waiting other member := by
    have apart : other ≠ thread := fun same => awake (same ▸ member)
    simpa [CountDownLatch.move, apart] using coherent.waiting other member

/-- A move that leaves the mutex as it is. -/
theorem Coherent.keep {latch : CountDownLatch Thread} (coherent : latch.Coherent)
    {thread : Thread} (elsewhere : latch.phases thread ≠ .waiting) {phase : LatchPhase}
    (same : phase.holds = (latch.phases thread).holds) :
    (latch.move thread phase latch.holder).Coherent :=
  coherent.move (coherent.notMem elsewhere) (by rw [same]; exact coherent.exclusive thread)
    fun _ _ => Iff.rfl

/-- A thread that holds the mutex gives it back and is blocked. -/
theorem Coherent.block {latch : CountDownLatch Thread} (coherent : latch.Coherent)
    {thread : Thread} (holds : latch.holder = some thread) :
    Coherent ({ latch with blocked := insert thread latch.blocked }.move thread .waiting none) where
  exclusive other := by
    by_cases same : other = thread
    · subst same
      simp [CountDownLatch.move, LatchPhase.holds]
    · have notHeld := coherent.exclusive other
      rw [holds, Option.some_inj] at notHeld
      simp [CountDownLatch.move, same, notHeld, Ne.symm same]
  waiting other member := by
    by_cases same : other = thread
    · subst same
      simp [CountDownLatch.move]
    · have before := Finset.mem_of_mem_insert_of_ne member same
      simpa [CountDownLatch.move, same] using coherent.waiting other before

theorem notifyOne_spec {blocked left : Finset Thread} {notified : Option Thread}
    (notifies : notifyOne blocked notified = some left) :
    left ⊆ blocked ∧ (left = ∅ ↔ blocked.card ≤ 1) := by
  cases notified with
  | none =>
    simp only [notifyOne] at notifies
    split at notifies
    case isTrue nobody =>
      cases notifies
      simp [nobody]
    case isFalse => cases notifies
  | some thread =>
    simp only [notifyOne] at notifies
    split at notifies
    case isFalse => cases notifies
    case isTrue member =>
      cases notifies
      refine ⟨Finset.erase_subset thread blocked, ?_⟩
      rw [← Finset.card_eq_zero, Finset.card_erase_of_mem member]
      omega

theorem Coherent.step {latch next : CountDownLatch Thread} {label : LatchStep Thread}
    (coherent : latch.Coherent) (taken : latch.step label = some next) : next.Coherent := by
  cases label with
  | call | getCount =>
    obtain ⟨phase, moved⟩ := Option.ite_none_right_eq_some.mp taken
    cases moved
    exact coherent.keep (by rw [phase]; exact nofun) (by rw [phase]; rfl)
  | lock thread =>
    obtain ⟨free, taken⟩ := Option.ite_none_right_eq_some.mp taken
    have others : ∀ other, other ≠ thread →
        (some thread = some other ↔ latch.holder = some other) := by
      intro other apart
      rw [free]
      exact iff_of_false (fun same => apart (Option.some.inj same).symm) nofun
    split at taken
    case h_1 call locking =>
      cases taken
      exact coherent.move (coherent.notMem (by rw [locking]; exact nofun))
        (iff_of_true rfl rfl) others
    case h_2 =>
      obtain ⟨awake, moved⟩ := Option.ite_none_left_eq_some.mp taken
      cases moved
      exact coherent.move awake (iff_of_true rfl rfl) others
    case h_3 => cases taken
  | wait thread =>
    obtain ⟨inside, taken⟩ := Option.ite_none_right_eq_some.mp taken
    split at taken
    case isTrue =>
      cases taken
      exact coherent.block ((coherent.exclusive thread).mp (by rw [inside]; rfl))
    case isFalse =>
      cases taken
      exact coherent.keep (by rw [inside]; exact nofun) (by rw [inside]; rfl)
  | countDown thread notified =>
    obtain ⟨⟨inside, _⟩, taken⟩ := Option.ite_none_right_eq_some.mp taken
    have counted : Coherent { latch with count := latch.count - 1 } :=
      ⟨coherent.exclusive, coherent.waiting⟩
    have moved : Coherent ({ latch with count := latch.count - 1 }.move thread .leaving
        latch.holder) :=
      counted.keep (by rw [inside]; exact nofun) (by rw [inside]; rfl)
    split at taken
    case isTrue =>
      obtain ⟨left, notifies, rfl⟩ := Option.map_eq_some_iff.mp taken
      exact moved.shrink (notifyOne_spec notifies).1
    case isFalse =>
      obtain ⟨_, same⟩ := Option.ite_none_right_eq_some.mp taken
      cases same
      exact moved
  | unlock thread =>
    obtain ⟨leaving, moved⟩ := Option.ite_none_right_eq_some.mp taken
    cases moved
    have held := (coherent.exclusive thread).mp (by rw [leaving]; rfl)
    refine coherent.move (coherent.notMem (by rw [leaving]; exact nofun))
      (iff_of_false nofun nofun) fun other apart => ?_
    rw [held]
    exact iff_of_false nofun fun same => apart (Option.some.inj same).symm
  | spurious thread =>
    obtain ⟨_, woken⟩ := Option.ite_none_right_eq_some.mp taken
    cases woken
    exact coherent.shrink (Finset.erase_subset _ _)

/-! ### When all are released -/

omit [DecidableEq Thread] in
theorem Coherent.releasesAll_iff {latch : CountDownLatch Thread} (coherent : latch.Coherent) :
    latch.ReleasesAll ↔ (latch.count ≤ 0 → latch.blocked = ∅) := by
  refine forall_congr' fun _ => ⟨fun released => ?_, fun nobody thread stuck => ?_⟩
  · exact Finset.eq_empty_of_forall_notMem fun thread member =>
      released thread ⟨coherent.waiting thread member, member⟩
  · exact Finset.notMem_empty thread (nobody ▸ stuck.2)

/-- Nothing but `CountDown` changes the count, and a thread is only blocked while the count
is positive. -/
theorem step_unblocked {latch next : CountDownLatch Thread} {label : LatchStep Thread}
    (other : ∀ thread notified, label ≠ .countDown thread notified)
    (taken : latch.step label = some next) :
    next.count = latch.count ∧ (latch.count ≤ 0 → next.blocked ⊆ latch.blocked) := by
  cases label with
  | call | getCount | unlock =>
    obtain ⟨_, moved⟩ := Option.ite_none_right_eq_some.mp taken
    cases moved
    exact ⟨rfl, fun _ => subset_rfl⟩
  | lock thread =>
    obtain ⟨_, taken⟩ := Option.ite_none_right_eq_some.mp taken
    split at taken
    case h_1 =>
      cases taken
      exact ⟨rfl, fun _ => subset_rfl⟩
    case h_2 =>
      obtain ⟨_, moved⟩ := Option.ite_none_left_eq_some.mp taken
      cases moved
      exact ⟨rfl, fun _ => subset_rfl⟩
    case h_3 => cases taken
  | wait thread =>
    obtain ⟨_, taken⟩ := Option.ite_none_right_eq_some.mp taken
    split at taken
    case isTrue positive =>
      cases taken
      exact ⟨rfl, fun used => absurd positive (not_lt.mpr used)⟩
    case isFalse =>
      cases taken
      exact ⟨rfl, fun _ => subset_rfl⟩
  | countDown thread notified => exact absurd rfl (other thread notified)
  | spurious thread =>
    obtain ⟨_, woken⟩ := Option.ite_none_right_eq_some.mp taken
    cases woken
    exact ⟨rfl, fun _ => Finset.erase_subset _ _⟩

/-- `CountDown` notifies when it takes the count to zero, and else leaves the blocked
threads as they are. -/
theorem step_countDown {latch next : CountDownLatch Thread} {thread : Thread}
    {notified : Option Thread} (taken : latch.step (.countDown thread notified) = some next) :
    next.count = latch.count - 1 ∧
      (latch.count = 1 → notifyOne latch.blocked notified = some next.blocked) ∧
      (latch.count ≠ 1 → next.blocked = latch.blocked) := by
  obtain ⟨_, taken⟩ := Option.ite_none_right_eq_some.mp taken
  split at taken
  case isTrue zero =>
    obtain ⟨left, notifies, rfl⟩ := Option.map_eq_some_iff.mp taken
    have last : latch.count = 1 := Int.sub_eq_zero.mp zero
    exact ⟨rfl, fun _ => notifies, fun more => absurd last more⟩
  case isFalse notZero =>
    obtain ⟨_, same⟩ := Option.ite_none_right_eq_some.mp taken
    cases same
    exact ⟨rfl, fun last => absurd (Int.sub_eq_zero.mpr last) notZero, fun _ => rfl⟩

/-- A step leaves nobody blocked behind a used-up count exactly when it takes the count to
zero with at most one thread blocked, or does something else. -/
theorem ReleasesAll.step_iff {latch next : CountDownLatch Thread} {label : LatchStep Thread}
    (coherent : latch.Coherent) (released : latch.ReleasesAll)
    (taken : latch.step label = some next) : next.ReleasesAll ↔ latch.OneBlocked label := by
  rw [(coherent.step taken).releasesAll_iff]
  have nobody := coherent.releasesAll_iff.mp released
  by_cases counts : ∃ thread notified, label = .countDown thread notified
  · obtain ⟨thread, notified, rfl⟩ := counts
    obtain ⟨count, last, more⟩ := step_countDown taken
    by_cases one : latch.count = 1
    · have emptied := (notifyOne_spec (last one)).2
      have used : next.count ≤ 0 := by omega
      exact ⟨fun all _ => emptied.mp (all used), fun few _ => emptied.mpr (few one)⟩
    · refine iff_of_true (fun used => ?_) fun here => absurd here one
      rw [more one]
      exact nobody (by omega)
  · have other : ∀ thread notified, label ≠ .countDown thread notified :=
      fun thread notified same => counts ⟨thread, notified, same⟩
    obtain ⟨count, fewer⟩ := step_unblocked other taken
    have free : latch.OneBlocked label := by
      cases label with
      | countDown thread notified => exact absurd rfl (other thread notified)
      | call | lock | wait | getCount | unlock | spurious => trivial
    refine iff_of_true (fun used => ?_) free
    rw [count] at used
    exact Finset.subset_empty.mp (nobody used ▸ fewer used)

end CountDownLatch

/-- Whatever the threads do in whatever order, nobody is left blocked in any state on the way
whose count is used up, exactly when each `CountDown` on the way that takes the count to zero
finds at most one thread blocked. -/
theorem countDownLatch_releases_iff {Thread : Type} [DecidableEq Thread] (count : Int)
    (steps : List (LatchStep Thread)) (final : CountDownLatch Thread)
    (ran : run CountDownLatch.step (.initial count) steps = some final) :
    (∀ taken, taken <+: steps → ∀ reached,
      run CountDownLatch.step (.initial count) taken = some reached → reached.ReleasesAll) ↔
      Along CountDownLatch.step CountDownLatch.OneBlocked (.initial count) steps :=
  along_iff_reached CountDownLatch.step (fun _ _ _ coherent taken => coherent.step taken)
    (fun _ _ _ coherent released taken => released.step_iff coherent taken) (.initial count)
    (fun _ _ stuck => Finset.notMem_empty _ stuck.2) ran

/-- One thread waits for two others to count down. -/
def oneWaits : List (LatchStep Nat) :=
  [.call 0 .wait, .call 1 .countDown, .lock 0, .wait 0, .lock 1, .countDown 1 none, .unlock 1,
    .call 2 .countDown, .lock 2, .countDown 2 (some 0), .unlock 2, .lock 0, .wait 0, .unlock 0]

theorem countDownLatch_releases_one :
    ∃ final, run CountDownLatch.step (.initial 2) oneWaits = some final ∧
      ∀ taken, taken <+: oneWaits → ∀ reached,
        run CountDownLatch.step (.initial 2) taken = some reached → reached.ReleasesAll :=
  ⟨_, rfl, (countDownLatch_releases_iff 2 oneWaits _ rfl).mpr (by decide)⟩

/-- Two threads wait for one to count down, and the second is left. -/
theorem countDownLatch_strands :
    ∃ reached : CountDownLatch Nat,
      run CountDownLatch.step (.initial 1) [.call 0 .wait, .lock 0, .wait 0, .call 1 .wait,
        .lock 1, .wait 1, .call 2 .countDown, .lock 2, .countDown 2 (some 0), .unlock 2] =
          some reached ∧
      reached.count ≤ 0 ∧ reached.Stuck 1 :=
  ⟨_, rfl, by decide, rfl, by decide⟩

end Luce
