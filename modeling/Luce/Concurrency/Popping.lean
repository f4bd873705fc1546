/-
This file models how threads wait in `pop` of the blocking queue, and proves that none of
them sleeps through an item or through `stop`.

A step is one pass through a section that holds `mtx_`, a notification, or a wake-up that
nobody has asked for. The lock is given back before `cond_` is notified, so any number of
notifications may be under way, and whoever is scheduled first may take an item that another
thread has been woken for.
-/

import Luce.Concurrency.CoThreadPool
import Luce.Library.Waiting

namespace Luce

open Library.Transition Library.Waiting

/-- Where a thread is that may call `pop`. -/
inductive Popper where
  | outside
  /-- It is about to hold the lock and to evaluate the condition. -/
  | looking
  /-- It is in `cond_.wait`. -/
  | asleep
deriving DecidableEq, Repr

/-- A thread that is notified evaluates its condition. -/
def Popper.notify : Popper → Popper
  | .asleep => .looking
  | .outside => .outside
  | .looking => .looking

def Popper.asleepWeight : Popper → Nat
  | .asleep => 1
  | .outside | .looking => 0

def Popper.lookingWeight : Popper → Nat
  | .looking => 1
  | .outside | .asleep => 0

/-! ### How many threads sleep or look -/

namespace Popper

variable {threads : Nat}

/-- How many threads sleep. -/
def sleepers (poppers : Fin threads → Popper) : Nat := weigh asleepWeight poppers

/-- How many threads are about to evaluate the condition. -/
def lookers (poppers : Fin threads → Popper) : Nat := weigh lookingWeight poppers

variable {poppers : Fin threads → Popper} {thread : Fin threads}

/-- A thread calls `pop`. -/
theorem update_of_outside (outside : poppers thread = .outside) :
    sleepers (Function.update poppers thread .looking) = sleepers poppers ∧
      lookers (Function.update poppers thread .looking) = lookers poppers + 1 := by
  have sleeping := weigh_update asleepWeight poppers thread .looking
  have looking := weigh_update lookingWeight poppers thread .looking
  rw [outside] at sleeping looking
  exact ⟨sleeping, looking⟩

/-- A thread wakes up. -/
theorem update_of_asleep (sleeps : poppers thread = .asleep) :
    sleepers (Function.update poppers thread .looking) + 1 = sleepers poppers ∧
      lookers (Function.update poppers thread .looking) = lookers poppers + 1 := by
  have sleeping := weigh_update asleepWeight poppers thread .looking
  have looking := weigh_update lookingWeight poppers thread .looking
  rw [sleeps] at sleeping looking
  exact ⟨sleeping, looking⟩

/-- A thread has evaluated the condition, and returns or goes to sleep. -/
theorem update_of_looking (looks : poppers thread = .looking) :
    sleepers (Function.update poppers thread .outside) = sleepers poppers ∧
      lookers (Function.update poppers thread .outside) + 1 = lookers poppers ∧
      lookers (Function.update poppers thread .asleep) + 1 = lookers poppers := by
  have sleeping := weigh_update asleepWeight poppers thread .outside
  have looking := weigh_update lookingWeight poppers thread .outside
  have lookingAsleep := weigh_update lookingWeight poppers thread .asleep
  rw [looks] at sleeping looking lookingAsleep
  exact ⟨sleeping, looking, lookingAsleep⟩

theorem sleepers_eq_zero_iff : sleepers poppers = 0 ↔ ∀ thread, poppers thread ≠ .asleep := by
  refine weigh_eq_zero_iff.trans (forall_congr' fun thread => ?_)
  cases poppers thread with
  | asleep => exact iff_of_false (Nat.succ_ne_zero 0) (fun differs => differs rfl)
  | outside | looking => exact iff_of_true rfl nofun

/-- After `notify_all` nobody sleeps. -/
theorem sleepers_notify : sleepers (fun thread => (poppers thread).notify) = 0 := by
  refine weigh_eq_zero_iff.mpr fun thread => ?_
  cases poppers thread <;> rfl

theorem lookers_notify_le (poppers : Fin threads → Popper) :
    lookers (fun thread => (poppers thread).notify) ≤ lookers poppers + threads := by
  have bounded : ∀ popper : Popper, popper.notify.lookingWeight ≤ popper.lookingWeight + 1 := by
    intro popper
    cases popper <;> decide
  have sum := weigh_map_le bounded poppers
  rw [Fintype.card_fin, Nat.mul_one] at sum
  exact sum

end Popper

namespace BlockingQueue

variable {Item : Type} {threads : Nat}

/-- A queue, the threads that pop from it, and the calls of `notify_one` and `notify_all`
that are still to come. -/
structure Shared (Item : Type) (threads : Nat) where
  queue : BlockingQueue Item
  poppers : Fin threads → Popper
  notifyOnes : Nat
  notifyAlls : Nat

inductive SharedStep (Item : Type) (threads : Nat) where
  | push (value : Item)
  /-- It gets the lock or does not. -/
  | tryPush (value : Item) (locked : Bool)
  | callPop (thread : Fin threads)
  /-- The condition of `pop` is evaluated, with what follows in the same section. -/
  | look (thread : Fin threads)
  | tryPopIf (locked : Bool) (predict : Item → Bool)
  | stop
  /-- `notify_one`, with the thread that it wakes, if any is asleep. -/
  | notifyOne (thread : Option (Fin threads))
  | notifyAll
  /-- A wake-up that nobody has asked for. -/
  | spurious (thread : Fin threads)

/-- The steps that go on by themselves, once they are called for. -/
def SharedStep.Own : SharedStep Item threads → Prop
  | .look _ | .notifyOne _ | .notifyAll => True
  | .push _ | .tryPush _ _ | .callPop _ | .tryPopIf _ _ | .stop | .spurious _ => False

namespace Shared

def initial : Shared Item threads := ⟨.new, fun _ => .outside, 0, 0⟩

def setPopper (shared : Shared Item threads) (thread : Fin threads) (popper : Popper) :
    Shared Item threads :=
  { shared with poppers := Function.update shared.poppers thread popper }

def step (shared : Shared Item threads) : SharedStep Item threads → Option (Shared Item threads)
  | .push value =>
    some { shared with queue := shared.queue.push value, notifyOnes := shared.notifyOnes + 1 }
  | .tryPush value locked =>
    match shared.queue.tryPush locked value with
    | (true, queue) => some { shared with queue, notifyOnes := shared.notifyOnes + 1 }
    | (false, queue) => some { shared with queue }
  | .callPop thread =>
    if shared.poppers thread = .outside then some (shared.setPopper thread .looking) else none
  | .look thread =>
    if shared.poppers thread = .looking then
      match shared.queue.pop with
      | some (_, queue) => some ({ shared with queue }.setPopper thread .outside)
      | none => some (shared.setPopper thread .asleep)
    else none
  | .tryPopIf locked predict =>
    some { shared with queue := (shared.queue.tryPopIf locked predict).2 }
  | .stop =>
    some { shared with
      queue := { shared.queue with stop := true }, notifyAlls := shared.notifyAlls + 1 }
  | .notifyOne (some thread) =>
    if 0 < shared.notifyOnes ∧ shared.poppers thread = .asleep then
      some ({ shared with notifyOnes := shared.notifyOnes - 1 }.setPopper thread .looking)
    else none
  | .notifyOne none =>
    if 0 < shared.notifyOnes ∧ ∀ thread, shared.poppers thread ≠ .asleep then
      some { shared with notifyOnes := shared.notifyOnes - 1 }
    else none
  | .notifyAll =>
    if 0 < shared.notifyAlls then
      some { shared with
        poppers := fun thread => (shared.poppers thread).notify
        notifyAlls := shared.notifyAlls - 1 }
    else none
  | .spurious thread =>
    if shared.poppers thread = .asleep then some (shared.setPopper thread .looking) else none

/-- How much the steps that are called for may still do. -/
def rank (shared : Shared Item threads) : Nat :=
  2 * shared.notifyOnes + (threads + 1) * shared.notifyAlls + Popper.lookers shared.poppers

/-- Items leave in the order in which they have come; while a thread sleeps, there is a look
to come for each item, and the threads that sleep on a stopped queue will be woken. -/
structure Sound (shared : Shared Item threads) : Prop where
  fifo : shared.queue.pushed = shared.queue.popped ++ shared.queue.items
  attended : Attended (Popper.sleepers shared.poppers)
    (shared.notifyOnes + Popper.lookers shared.poppers) shared.queue.items.length
  stopped : shared.queue.stop = true → Popper.sleepers shared.poppers = 0 ∨ 0 < shared.notifyAlls

theorem Sound.initial : (Shared.initial : Shared Item threads).Sound where
  fifo := rfl
  attended := .of_empty
  stopped := nofun

/-! ### What a step can have done -/

inductive Takes (shared : Shared Item threads) :
    SharedStep Item threads → Shared Item threads → Prop
  | pushed {label : SharedStep Item threads} (value : Item) (other : ¬ label.Own) :
    Takes shared label
      { shared with queue := shared.queue.push value, notifyOnes := shared.notifyOnes + 1 }
  | nothing {label : SharedStep Item threads} (other : ¬ label.Own) : Takes shared label shared
  | callPop {thread : Fin threads} (outside : shared.poppers thread = .outside) :
    Takes shared (.callPop thread) (shared.setPopper thread .looking)
  | lookItem {thread : Fin threads} (looks : shared.poppers thread = .looking) {item : Item}
    {items : List Item} (front : shared.queue.items = item :: items) :
    Takes shared (.look thread)
      ({ shared with queue := shared.queue.popFront item items }.setPopper thread .outside)
  | lookStopped {thread : Fin threads} (looks : shared.poppers thread = .looking)
    (empty : shared.queue.items = []) :
    Takes shared (.look thread) (shared.setPopper thread .outside)
  | lookNothing {thread : Fin threads} (looks : shared.poppers thread = .looking)
    (empty : shared.queue.items = []) (up : shared.queue.stop = false) :
    Takes shared (.look thread) (shared.setPopper thread .asleep)
  | tryPopIf (locked : Bool) (predict : Item → Bool) {item : Item} {items : List Item}
    (front : shared.queue.items = item :: items) :
    Takes shared (.tryPopIf locked predict)
      { shared with queue := shared.queue.popFront item items }
  | stop : Takes shared .stop
      { shared with
        queue := { shared.queue with stop := true }, notifyAlls := shared.notifyAlls + 1 }
  | notifyOne {thread : Fin threads} (under : 0 < shared.notifyOnes)
    (asleep : shared.poppers thread = .asleep) :
    Takes shared (.notifyOne (some thread))
      ({ shared with notifyOnes := shared.notifyOnes - 1 }.setPopper thread .looking)
  | notifyNone (under : 0 < shared.notifyOnes)
    (awake : ∀ thread, shared.poppers thread ≠ .asleep) :
    Takes shared (.notifyOne none) { shared with notifyOnes := shared.notifyOnes - 1 }
  | notifyAll (under : 0 < shared.notifyAlls) :
    Takes shared .notifyAll
      { shared with
        poppers := fun thread => (shared.poppers thread).notify
        notifyAlls := shared.notifyAlls - 1 }
  | spurious {thread : Fin threads} (asleep : shared.poppers thread = .asleep) :
    Takes shared (.spurious thread) (shared.setPopper thread .looking)

/-- Where `pop` waits, the queue is empty and not stopped. -/
theorem pop_eq_none {queue : BlockingQueue Item} (waits : queue.pop = none) :
    queue.items = [] ∧ queue.stop = false := by
  unfold BlockingQueue.pop at waits
  split at waits
  case h_1 => cases waits
  case h_2 empty =>
    split at waits
    case isTrue => cases waits
    case isFalse up => exact ⟨empty, Bool.eq_false_iff.mpr up⟩

theorem takes_of_step {shared next : Shared Item threads} {label : SharedStep Item threads}
    (taken : shared.step label = some next) : shared.Takes label next := by
  cases label with
  | push value =>
    cases taken
    exact .pushed value id
  | tryPush value locked =>
    cases locked <;> cases taken
    · exact .nothing id
    · exact .pushed value id
  | callPop thread =>
    obtain ⟨outside, rfl⟩ := Option.ite_none_right_eq_some.mp taken |>.imp_right Option.some.inj
    exact .callPop outside
  | look thread =>
    obtain ⟨looks, took⟩ := Option.ite_none_right_eq_some.mp taken
    cases popped : shared.queue.pop with
    | none =>
      rw [popped] at took
      cases took
      exact .lookNothing looks (pop_eq_none popped).1 (pop_eq_none popped).2
    | some result =>
      obtain ⟨item, queue⟩ := result
      rw [popped] at took
      cases took
      cases item with
      | none =>
        obtain ⟨empty, -, rfl⟩ := pop_eq_nothing popped
        exact .lookStopped looks empty
      | some item =>
        obtain ⟨items, front, rfl⟩ := pop_eq_item popped
        exact .lookItem looks front
  | tryPopIf locked predict =>
    cases taken
    obtain ⟨item, items, front, -, popped⟩ | popped :=
      tryPopIf_cases shared.queue locked predict
    · rw [popped]
      exact .tryPopIf locked predict front
    · rw [popped]
      exact .nothing id
  | stop =>
    cases taken
    exact .stop
  | notifyOne thread =>
    cases thread with
    | none =>
      obtain ⟨⟨under, awake⟩, rfl⟩ :=
        Option.ite_none_right_eq_some.mp taken |>.imp_right Option.some.inj
      exact .notifyNone under awake
    | some thread =>
      obtain ⟨⟨under, asleep⟩, rfl⟩ :=
        Option.ite_none_right_eq_some.mp taken |>.imp_right Option.some.inj
      exact .notifyOne under asleep
  | notifyAll =>
    obtain ⟨under, rfl⟩ := Option.ite_none_right_eq_some.mp taken |>.imp_right Option.some.inj
    exact .notifyAll under
  | spurious thread =>
    obtain ⟨asleep, rfl⟩ := Option.ite_none_right_eq_some.mp taken |>.imp_right Option.some.inj
    exact .spurious asleep

/-! ### What every step keeps -/

/-- What is popped was in front. -/
theorem Sound.fifo_popFront {shared : Shared Item threads} (sound : shared.Sound) {item : Item}
    {items : List Item} (front : shared.queue.items = item :: items) :
    (shared.queue.popFront item items).pushed =
      (shared.queue.popFront item items).popped ++ (shared.queue.popFront item items).items := by
  change shared.queue.pushed = (shared.queue.popped ++ [item]) ++ items
  rw [sound.fifo, front, List.append_assoc, List.singleton_append]

/-- A thread wakes up, with or without one of the notifications. -/
theorem Sound.wake {shared : Shared Item threads} (sound : shared.Sound) {thread : Fin threads}
    (sleeps : shared.poppers thread = .asleep) {notifyOnes : Nat}
    (one : shared.notifyOnes ≤ notifyOnes + 1) :
    ({ shared with notifyOnes }.setPopper thread .looking).Sound := by
  obtain ⟨sleeping, looking⟩ := Popper.update_of_asleep sleeps
  have attended := sound.attended
  rw [← sleeping] at attended
  refine ⟨sound.fifo, attended.wake.mono ?_ (Nat.le_refl _), fun stop => ?_⟩
  · change _ ≤ notifyOnes + Popper.lookers (Function.update shared.poppers thread .looking)
    omega
  · refine (sound.stopped stop).imp_left fun none => ?_
    change Popper.sleepers (Function.update shared.poppers thread .looking) = 0
    omega

theorem Sound.step {shared next : Shared Item threads} {label : SharedStep Item threads}
    (sound : shared.Sound) (taken : shared.step label = some next) : next.Sound := by
  cases takes_of_step taken with
  | pushed value =>
    refine ⟨?_, ?_, sound.stopped⟩
    · change shared.queue.pushed ++ [value] =
        shared.queue.popped ++ (shared.queue.items ++ [value])
      rw [sound.fifo, List.append_assoc]
    · change Attended _ (shared.notifyOnes + 1 + _) (shared.queue.items ++ [value]).length
      rw [List.length_append, Nat.add_right_comm]
      exact sound.attended.announce
  | nothing => exact sound
  | @callPop thread outside =>
    obtain ⟨sleeping, looking⟩ := Popper.update_of_outside outside
    refine ⟨sound.fifo, ?_, ?_⟩
    · change Attended (Popper.sleepers (Function.update shared.poppers thread .looking))
        (_ + Popper.lookers (Function.update shared.poppers thread .looking)) _
      rw [sleeping, looking]
      exact sound.attended.mono (Nat.le_succ _) (Nat.le_refl _)
    · change _ → Popper.sleepers (Function.update shared.poppers thread .looking) = 0 ∨ _
      rw [sleeping]
      exact sound.stopped
  | @lookItem thread looks item items front =>
    obtain ⟨sleeping, looking, -⟩ := Popper.update_of_looking looks
    refine ⟨sound.fifo_popFront front, ?_, ?_⟩
    · have attended := sound.attended
      rw [front, ← looking, ← sleeping] at attended
      exact attended.take
    · change _ → Popper.sleepers (Function.update shared.poppers thread .outside) = 0 ∨ _
      rw [sleeping]
      exact sound.stopped
  | @lookStopped thread looks empty =>
    refine ⟨sound.fifo, empty ▸ .of_empty, ?_⟩
    change _ → Popper.sleepers (Function.update shared.poppers thread .outside) = 0 ∨ _
    rw [(Popper.update_of_looking looks).1]
    exact sound.stopped
  | lookNothing looks empty up =>
    exact ⟨sound.fifo, empty ▸ .of_empty, fun stop => absurd stop (Bool.eq_false_iff.mp up)⟩
  | tryPopIf locked predict front =>
    refine ⟨sound.fifo_popFront front, ?_, sound.stopped⟩
    have attended := sound.attended
    rw [front] at attended
    exact attended.mono (Nat.le_refl _) (Nat.le_succ _)
  | stop => exact ⟨sound.fifo, sound.attended, fun _ => .inr (Nat.succ_pos _)⟩
  | notifyOne under sleeps => exact sound.wake sleeps (by omega)
  | notifyNone under awake =>
    have none := Popper.sleepers_eq_zero_iff.mpr awake
    exact ⟨sound.fifo, none ▸ .of_awake, sound.stopped⟩
  | notifyAll under =>
    exact ⟨sound.fifo, .inl Popper.sleepers_notify, fun _ => .inl Popper.sleepers_notify⟩
  | spurious sleeps => exact sound.wake sleeps (Nat.le_succ _)

/-! ### Coming to rest -/

/-- What goes on by itself comes to an end. -/
theorem rank_lt {shared next : Shared Item threads} {label : SharedStep Item threads}
    (own : label.Own) (taken : shared.step label = some next) : next.rank < shared.rank := by
  cases takes_of_step taken with
  | pushed value other => exact absurd own other
  | nothing other => exact absurd own other
  | callPop => cases own
  | lookItem looks | lookStopped looks =>
    have looking := (Popper.update_of_looking looks).2.1
    simp only [rank, setPopper]
    omega
  | lookNothing looks =>
    have looking := (Popper.update_of_looking looks).2.2
    simp only [rank, setPopper]
    omega
  | tryPopIf => cases own
  | stop => cases own
  | notifyOne under sleeps =>
    have looking := (Popper.update_of_asleep sleeps).2
    simp only [rank, setPopper]
    omega
  | notifyNone under =>
    simp only [rank]
    omega
  | notifyAll under =>
    have looking := Popper.lookers_notify_le shared.poppers
    obtain ⟨fewer, notifyAlls⟩ := Nat.exists_eq_succ_of_ne_zero (Nat.ne_of_gt under)
    simp only [rank, notifyAlls, Nat.succ_sub_one, Nat.mul_succ]
    omega
  | spurious => cases own

/-- Where nothing goes on by itself, whoever is in `pop` sleeps. -/
theorem asleep_of_rest {shared : Shared Item threads}
    (rest : ∀ label : SharedStep Item threads, label.Own → shared.step label = none) :
    shared.notifyOnes = 0 ∧ shared.notifyAlls = 0 ∧
      ∀ thread, shared.poppers thread ≠ .looking := by
  refine ⟨Nat.eq_zero_of_not_pos fun under => ?_, Nat.eq_zero_of_not_pos fun under => ?_,
    fun thread looks => ?_⟩
  · by_cases awake : ∀ thread, shared.poppers thread ≠ .asleep
    · have taken := rest (.notifyOne none) trivial
      rw [Shared.step, if_pos ⟨under, awake⟩] at taken
      cases taken
    · obtain ⟨thread, sleeps⟩ := not_forall_not.mp awake
      have taken := rest (.notifyOne (some thread)) trivial
      rw [Shared.step, if_pos ⟨under, sleeps⟩] at taken
      cases taken
  · have taken := rest .notifyAll trivial
    rw [Shared.step, if_pos under] at taken
    cases taken
  · have taken := rest (.look thread) trivial
    rw [Shared.step, if_pos looks] at taken
    split at taken <;> cases taken

/-- At rest, whoever sleeps has nothing to find. -/
theorem Sound.nothing_of_rest {shared : Shared Item threads} (sound : shared.Sound)
    (rest : ∀ label : SharedStep Item threads, label.Own → shared.step label = none)
    {thread : Fin threads} (inside : shared.poppers thread ≠ .outside) :
    shared.poppers thread = .asleep ∧ shared.queue.items = [] ∧ shared.queue.stop = false := by
  obtain ⟨noOnes, noAlls, noLooks⟩ := asleep_of_rest rest
  have sleeps : shared.poppers thread = .asleep := by
    cases popper : shared.poppers thread with
    | outside => exact absurd popper inside
    | looking => exact absurd popper (noLooks thread)
    | asleep => rfl
  have some : Popper.sleepers shared.poppers ≠ 0 := fun zero =>
    Popper.sleepers_eq_zero_iff.mp zero thread sleeps
  have still : Popper.lookers shared.poppers = 0 := by
    refine weigh_eq_zero_iff.mpr fun other => ?_
    cases popper : shared.poppers other with
    | looking => exact absurd popper (noLooks other)
    | outside | asleep => rfl
  have attended := sound.attended
  rw [noOnes, still] at attended
  refine ⟨sleeps, List.length_eq_zero_iff.mp (attended.eq_zero some), ?_⟩
  refine Bool.eq_false_iff.mpr fun stop => ?_
  have under := (sound.stopped stop).resolve_left some
  exact Nat.ne_of_gt under noAlls

end Shared

/-- Whatever the threads have done in whatever order, items leave a queue in the order in which
they have come. What goes on by itself then (notifications, and looks at the queue) is at rest
after boundedly many steps, in whatever order; and at rest, a call of `pop` that has not
returned sleeps, and the queue is empty and not stopped. -/
theorem pop_wakes (steps : List (SharedStep Item threads)) (reached : Shared Item threads)
    (ran : run Shared.step .initial steps = some reached) (own : List (SharedStep Item threads))
    (owned : ∀ label ∈ own, label.Own) (final : Shared Item threads)
    (went : run Shared.step reached own = some final) :
    final.queue.pushed = final.queue.popped ++ final.queue.items ∧ own.length ≤ reached.rank ∧
      ((∀ label : SharedStep Item threads, label.Own → final.step label = none) →
        ∀ thread, final.poppers thread ≠ .outside →
          final.poppers thread = .asleep ∧ final.queue.items = [] ∧
            final.queue.stop = false) := by
  have preserved : ∀ (shared : Shared Item threads) (label : SharedStep Item threads)
      (next : Shared Item threads), shared.Sound → shared.step label = some next → next.Sound :=
    fun _ _ _ sound taken => sound.step taken
  have sound : reached.Sound := invariant_run Shared.step preserved .initial ran
  have soundFinal : final.Sound := invariant_run Shared.step preserved sound went
  have bounded := length_add_rank_le Shared.step
    (fun pool label next sound _ taken => preserved pool label next sound taken)
    (fun _ _ _ _ own taken => Shared.rank_lt own taken) sound owned went
  exact ⟨soundFinal.fifo, Nat.le_of_add_right_le bounded,
    fun rest thread inside => soundFinal.nothing_of_rest rest inside⟩

/-- Two threads sleep, two items come, and one of them is taken by a third party while a thread
has been woken for it. -/
theorem pop_wakes_two :
    ∃ reached final, run Shared.step (.initial : Shared Nat 2)
        [.callPop 0, .look 0, .callPop 1, .look 1, .push 7, .push 8, .notifyOne (some 1),
          .tryPopIf true fun _ => true] = some reached ∧
      run Shared.step reached [.look 1, .notifyOne (some 0), .look 0] = some final ∧
      final.queue.pushed = final.queue.popped ++ final.queue.items ∧
      final.poppers 0 = .asleep ∧ final.queue.items = [] ∧ 3 ≤ reached.rank := by
  refine ⟨_, _, rfl, rfl, ?_⟩
  obtain ⟨fifo, bounded, -⟩ := pop_wakes
    ([.callPop 0, .look 0, .callPop 1, .look 1, .push 7, .push 8, .notifyOne (some 1),
      .tryPopIf true fun _ => true] : List (SharedStep Nat 2)) _ rfl
    [.look 1, .notifyOne (some 0), .look 0] (by simp [SharedStep.Own]) _ rfl
  exact ⟨fifo, rfl, rfl, bounded⟩

end BlockingQueue

end Luce
