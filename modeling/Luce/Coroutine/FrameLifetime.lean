/-
This file decides when the frames of coroutines are destroyed at most once and not touched
afterwards, and when `run` returns what its coroutine has returned.

It is so as long as a task whose body has begun is left alone until it is done, and `run` is
called for no other task that is not done than a void one whose body suspends itself before it
returns.
-/

import Luce.Coroutine.Ownership

namespace Luce.Co

open Library.Transition

/-! ### What there is to see of a frame -/

namespace Frames

variable {Point Value : Type}

abbrev point (frames : Frames Point Value) (handle : FrameHandle) : Option (Option Point) :=
  (frames handle).map Frame.point

abbrev isDetached (frames : Frames Point Value) (handle : FrameHandle) : Option Bool :=
  (frames handle).map (·.promise.isDetached)

abbrev continuation (frames : Frames Point Value) (handle : FrameHandle) :
    Option (Option FrameHandle) :=
  (frames handle).map (·.promise.continuation)

abbrev value (frames : Frames Point Value) (handle : FrameHandle) : Option (Option Value) :=
  (frames handle).map (·.promise.value)

@[grind =] theorem map_update {Field : Type} (frames : Frames Point Value)
    (handle other : FrameHandle) (frame : Option (Frame Point Value))
    (field : Frame Point Value → Field) :
    (Function.update frames handle frame other).map field =
      if other = handle then frame.map field else (frames other).map field := by
  rw [Function.update_apply]
  split <;> rfl

theorem exists_of_map {Field : Type} {frames : Frames Point Value} {handle : FrameHandle}
    {field : Frame Point Value → Field} {seen : Field}
    (sees : (frames handle).map field = some seen) : ∃ frame, frames handle = some frame :=
  (Option.map_eq_some_iff.mp sees).imp fun _ => And.left

end Frames

namespace Coroutines

variable {Value : Type} {isVoid : FrameHandle → Bool}

/-- No frame has been touched that was not there, and what `run` has returned was returned by
its coroutine. -/
structure Sound (world : Coroutines Value) : Prop where
  faultless : world.faulted = false
  returned : ∀ entry ∈ world.returned,
    ∃ value, entry.2 = some value ∧ world.coReturned entry.1 = some value

/-! ### The condition -/

def Unstarted (world : Coroutines Value) (handle : FrameHandle) : Prop :=
  world.frames.point handle = some (some .unstarted)

def Done (world : Coroutines Value) (handle : FrameHandle) : Prop :=
  world.frames.point handle = some none

/-- A task whose body has begun is left alone until it is done. A task without a handle is only
moved and destroyed. `run` is called for a task that is done, or for one that is void and has
not begun, and whose body suspends itself before it returns. -/
def Careful (isVoid : FrameHandle → Bool) (world : Coroutines Value) : CoroutinesStep Value → Prop
  | .construct | .move _ | .resume _ | .suspend => True
  | .destroy task => ∀ object ∈ world.tasks task, ∀ handle ∈ object,
      world.Unstarted handle ∨ world.Done handle
  | .detach task | .await task => ∀ object ∈ world.tasks task,
      ∃ handle ∈ object, world.Unstarted handle ∨ world.Done handle
  | .run task => ∀ object ∈ world.tasks task,
      ∃ handle ∈ object, isVoid handle = true ∧ world.Unstarted handle ∨ world.Done handle
  | .spawn task => ∀ object ∈ world.tasks task, ∃ handle ∈ object, world.Unstarted handle
  | .coReturn _ => ∀ current ∈ world.resumptions.head?, ∀ resumption ∈ world.resumptions,
      resumption.runs ≠ some current.executing

instance (world : Coroutines Value) : DecidablePred world.Unstarted := fun handle =>
  inferInstanceAs (Decidable (world.frames.point handle = some (some .unstarted)))

instance (world : Coroutines Value) : DecidablePred world.Done := fun handle =>
  inferInstanceAs (Decidable (world.frames.point handle = some none))

instance (world : Coroutines Value) : DecidablePred (Careful isVoid world)
  | .construct | .move _ | .resume _ | .suspend => inferInstanceAs (Decidable True)
  | .destroy task => inferInstanceAs (Decidable (∀ object ∈ world.tasks task, ∀ handle ∈ object,
      world.Unstarted handle ∨ world.Done handle))
  | .detach task | .await task => inferInstanceAs (Decidable (∀ object ∈ world.tasks task,
      ∃ handle ∈ object, world.Unstarted handle ∨ world.Done handle))
  | .run task => inferInstanceAs (Decidable (∀ object ∈ world.tasks task,
      ∃ handle ∈ object, isVoid handle = true ∧ world.Unstarted handle ∨ world.Done handle))
  | .spawn task => inferInstanceAs (Decidable (∀ object ∈ world.tasks task,
      ∃ handle ∈ object, world.Unstarted handle))
  | .coReturn _ => inferInstanceAs (Decidable (∀ current ∈ world.resumptions.head?,
      ∀ resumption ∈ world.resumptions, resumption.runs ≠ some current.executing))

/-! ### What careful steps keep -/

/-- The body has begun and is not done. -/
def Begun (world : Coroutines Value) (handle : FrameHandle) : Prop :=
  world.frames handle ≠ none ∧ ¬ world.Unstarted handle ∧ ¬ world.Done handle

structure Healthy (isVoid : FrameHandle → Bool) (world : Coroutines Value) : Prop where
  faultless : world.faulted = false
  freshFrame : ∀ handle, world.created ≤ handle → world.frames handle = none
  freshTask : ∀ task, world.objects ≤ task → world.tasks task = none
  /-- A task has a frame of its own, which is not detached. -/
  owned : ∀ task handle, world.tasks task = some (some handle) →
    world.frames.isDetached handle = some false
  unique : ∀ task other handle, world.tasks task = some (some handle) →
    world.tasks other = some (some handle) → task = other
  saved : ∀ handle ∈ world.saved, world.frames.point handle = some (some .leaf) ∨
    world.Unstarted handle ∧ world.frames.isDetached handle = some true
  savedOnce : world.saved.Nodup
  executing : ∀ resumption ∈ world.resumptions,
    world.frames.point resumption.executing = some (some .executing)
  executingOnce : (world.resumptions.map Resumption.executing).Nodup
  /-- Whoever awaits a task is its continuation. -/
  awaits : ∀ handle task, world.frames.point handle = some (some (.awaiting task)) →
    world.frames.continuation task = some (some handle) ∧ world.Begun task
  continued : ∀ handle awaiter, world.frames.continuation handle = some (some awaiter) →
    world.Done handle ∨ world.frames.isDetached handle = some false ∧
      world.frames.point awaiter = some (some (.awaiting handle))
  /-- `run` waits for a frame that is detached and not done. -/
  runs : ∀ resumption ∈ world.resumptions, ∀ handle, resumption.runs = some handle →
    isVoid handle = true ∧ world.frames.isDetached handle = some true ∧ world.Begun handle
  value : ∀ handle, world.Done handle →
    world.frames.value handle = some (world.coReturned handle) ∧ world.coReturned handle ≠ none
  /-- Only what is done or has been destroyed has returned a value. -/
  finished : ∀ handle, world.coReturned handle ≠ none →
    handle < world.created ∧ (world.Done handle ∨ world.frames handle = none)
  returned : ∀ entry ∈ world.returned,
    entry.2 = world.coReturned entry.1 ∧ world.coReturned entry.1 ≠ none

namespace Healthy

attribute [local grind] Unstarted Done Begun
attribute [local grind cases] Healthy
attribute [local grind =] Function.update_apply

theorem initial : (initial : Coroutines Value).Healthy isVoid where
  faultless := rfl
  freshFrame _ _ := rfl
  freshTask _ _ := rfl
  owned := nofun
  unique := nofun
  saved := nofun
  savedOnce := .nil
  executing := nofun
  executingOnce := .nil
  awaits := nofun
  continued := nofun
  runs := nofun
  value := nofun
  finished _ returned := absurd rfl returned
  returned := nofun

variable {world : Coroutines Value}

theorem construct (healthy : world.Healthy isVoid) : world.construct.Healthy isVoid := by
  constructor
  all_goals simp only [Coroutines.construct, setTask, Frames.create]
  all_goals grind

theorem move {task : Nat} {object : Option FrameHandle} (healthy : world.Healthy isVoid)
    (held : world.tasks task = some object) : (world.move task object).Healthy isVoid := by
  constructor
  all_goals simp only [Coroutines.move, setTask]
  all_goals grind

theorem destroy {task : Nat} {object : Option FrameHandle} (healthy : world.Healthy isVoid)
    (held : world.tasks task = some object)
    (careful : ∀ handle, object = some handle → world.Unstarted handle ∨ world.Done handle) :
    ∃ next, world.destroy task object = some next ∧ next.Healthy isVoid := by
  cases object with
  | none =>
    refine ⟨_, rfl, ?_⟩
    constructor
    all_goals simp only [setTask]
    all_goals grind
  | some handle =>
    have idle := careful handle rfl
    obtain ⟨frame, found⟩ := Frames.exists_of_map (healthy.owned task handle held)
    have destroyed : world.destroy task (some handle) =
        some { world.setTask task none with frames := Function.update world.frames handle none } := by
      grind [Coroutines.destroy, Frames.destroy]
    refine ⟨_, destroyed, ?_⟩
    constructor
    all_goals simp only [setTask]
    all_goals grind

theorem detach {task : Nat} {handle : FrameHandle} (healthy : world.Healthy isVoid)
    (held : world.tasks task = some (some handle))
    (careful : world.Unstarted handle ∨ world.Done handle) :
    ∃ next, world.detach task (some handle) = some next ∧ next.Healthy isVoid ∧
      (world.Unstarted handle → next.Unstarted handle ∧ next.saved = world.saved ∧
        next.frames.isDetached handle = some true) := by
  obtain ⟨frame, found⟩ := Frames.exists_of_map (healthy.owned task handle held)
  have detached : world.detach task (some handle) = some { world.setTask task (some none) with
      frames := Function.update world.frames handle
        (some { frame with promise := { frame.promise with isDetached := true } }) } := by
    grind [Coroutines.detach, Frames.detach]
  refine ⟨_, detached, ?_, ?_⟩
  · constructor
    all_goals simp only [setTask]
    all_goals grind
  · simp only [setTask]
    grind

/-- `resume` is called for a coroutine that has not begun or is at a leaf, and that nobody else
resumes. -/
theorem call {handle : FrameHandle} {runs : Option FrameHandle} (healthy : world.Healthy isVoid)
    (waits : world.frames.point handle = some (some .leaf) ∨
      world.Unstarted handle ∧ world.frames.isDetached handle = some true)
    (unsaved : handle ∉ world.saved)
    (ran : ∀ other, runs = some other →
      other = handle ∧ isVoid handle = true ∧ world.frames.isDetached handle = some true) :
    ∃ next, world.enter handle = some next ∧
      { next with resumptions := ⟨handle, runs⟩ :: next.resumptions }.Healthy isVoid := by
  obtain ⟨frame, found⟩ : ∃ frame, world.frames handle = some frame := by
    obtain leaf | ⟨unstarted, -⟩ := waits
    · exact Frames.exists_of_map leaf
    · exact Frames.exists_of_map unstarted
  have entered : world.enter handle = some { world with
      frames := Function.update world.frames handle (some { frame with point := some .executing }) } := by
    simp only [enter, Frames.setPoint, found]
    grind
  refine ⟨_, entered, ?_⟩
  constructor
  all_goals grind

theorem resume {handle : FrameHandle} (healthy : world.Healthy isVoid)
    (keeps : handle ∈ world.saved) :
    ∃ next, world.resume handle = some next ∧ next.Healthy isVoid := by
  have erased : { world with saved := world.saved.erase handle }.Healthy isVoid := by
    constructor
    all_goals grind
  have unsaved : handle ∉ world.saved.erase handle := healthy.savedOnce.not_mem_erase
  have ran : ∀ other, none = some other →
      other = handle ∧ isVoid handle = true ∧ world.frames.isDetached handle = some true := nofun
  obtain ⟨next, entered, kept⟩ := erased.call (healthy.saved handle keeps) unsaved ran
  refine ⟨_, ?_, kept⟩
  simp only [Coroutines.resume, entered, Option.bind_eq_bind, Option.bind_some, Option.pure_def]

theorem spawn {task : Nat} {handle : FrameHandle} (healthy : world.Healthy isVoid)
    (held : world.tasks task = some (some handle)) (careful : world.Unstarted handle) :
    ∃ next, world.spawn task (some handle) = some next ∧ next.Healthy isVoid := by
  have owned := healthy.owned task handle held
  obtain ⟨next, detached, kept, still⟩ := healthy.detach held (.inl careful)
  obtain ⟨unstarted, same, isDetached⟩ := still careful
  have unsaved : handle ∉ next.saved := by
    rw [same]
    grind
  refine ⟨{ next with saved := handle :: next.saved }, ?_, ?_⟩
  · simp only [Coroutines.spawn, detached, Option.bind_eq_bind, Option.bind_some, Option.pure_def]
  · constructor
    all_goals grind

theorem run {task : Nat} {handle : FrameHandle} (healthy : world.Healthy isVoid)
    (held : world.tasks task = some (some handle))
    (careful : isVoid handle = true ∧ world.Unstarted handle ∨ world.Done handle) :
    ∃ next, world.run isVoid task (some handle) = some next ∧ next.Healthy isVoid := by
  obtain ⟨frame, found⟩ := Frames.exists_of_map (healthy.owned task handle held)
  obtain ⟨void, unstarted⟩ | done := careful
  · have notDone : world.frames.done handle = some false := by
      grind [Frames.done]
    obtain ⟨next, detached, kept, still⟩ := healthy.detach held (.inl unstarted)
    obtain ⟨unstarted', same, isDetached⟩ := still unstarted
    have unsaved : handle ∉ next.saved := by
      rw [same]
      grind
    have ran : ∀ other, some handle = some other →
        other = handle ∧ isVoid handle = true ∧ next.frames.isDetached handle = some true := by
      grind
    obtain ⟨final, entered, called⟩ := kept.call (.inr ⟨unstarted', isDetached⟩) unsaved ran
    refine ⟨_, ?_, called⟩
    simp only [Coroutines.run, notDone, detached, entered, Option.bind_eq_bind, Option.bind_some,
      Option.pure_def, Bool.false_eq_true, if_false]
  · have isDone : world.frames.done handle = some true := by
      grind [Frames.done]
    simp only [Coroutines.run, isDone, readResult, found, Option.bind_eq_bind, Option.bind_some,
      Option.pure_def, if_true]
    by_cases void : isVoid handle = true
    · exact ⟨world, if_pos void, healthy⟩
    · refine ⟨_, if_neg void, ?_⟩
      constructor
      all_goals grind

/-- The coroutine on top of the stack is being executed. -/
theorem executing_head {resumption : Resumption} {resumptions : List Resumption}
    (healthy : world.Healthy isVoid) (stack : world.resumptions = resumption :: resumptions) :
    world.frames.point resumption.executing = some (some .executing) :=
  healthy.executing resumption (by simp [stack])

/-- What `run` waits for stays the same when another coroutine is executed. -/
theorem runs_of_mem {resumption after : Resumption} {resumptions : List Resumption}
    {current handle : FrameHandle} (healthy : world.Healthy isVoid)
    (stack : world.resumptions = resumption :: resumptions)
    (among : after ∈ { resumption with executing := current } :: resumptions)
    (ran : after.runs = some handle) :
    isVoid handle = true ∧ world.frames.isDetached handle = some true ∧ world.Begun handle := by
  obtain rfl | among := List.mem_cons.mp among
  · exact healthy.runs resumption (by simp [stack]) handle ran
  · exact healthy.runs after (by simp [stack, among]) handle ran

theorem await {task : Nat} {handle : FrameHandle} {resumption : Resumption}
    {resumptions : List Resumption} (healthy : world.Healthy isVoid)
    (stack : world.resumptions = resumption :: resumptions)
    (held : world.tasks task = some (some handle))
    (careful : world.Unstarted handle ∨ world.Done handle) :
    ∃ next, world.await resumption.executing (some handle) = some next ∧
      next.Healthy isVoid := by
  obtain ⟨frame, found⟩ := Frames.exists_of_map (healthy.owned task handle held)
  obtain unstarted | done := careful
  · have executing := healthy.executing_head stack
    obtain ⟨current, there⟩ := Frames.exists_of_map executing
    have apart : handle ≠ resumption.executing := by
      grind
    have awaited : world.await resumption.executing (some handle) = some { world with
        frames := Function.update
          (Function.update world.frames resumption.executing
            (some { current with point := some (.awaiting handle) }))
          handle (some { frame with
            promise := { frame.promise with continuation := some resumption.executing }
            point := some .executing })
        resumptions := { resumption with executing := handle } :: resumptions } := by
      have notDone : world.frames.done handle = some false := by
        grind [Frames.done]
      have point : frame.point = some .unstarted := by
        grind
      simp only [Coroutines.await, notDone, Frames.setPoint, there, Frames.setContinuation, found,
        Function.update_of_ne apart, enter, Function.update_self, point, Function.update_idem,
        transfer, stack, Option.bind_eq_bind, Option.bind_some, Option.pure_def,
        Bool.false_eq_true, if_false]
    refine ⟨_, awaited, ?_⟩
    constructor
    case awaits =>
      intro other task waits
      by_cases self : other = resumption.executing
      · grind
      · have before : world.frames.point other = some (some (.awaiting task)) := by
          -- where the frames alone decide, the invariant only lengthens the search
          clear healthy
          grind
        obtain ⟨continued, begun⟩ := healthy.awaits other task before
        have unawaited : task ≠ handle := by
          rintro rfl
          exact begun.2.1 unstarted
        clear healthy
        grind
    case continued =>
      intro other awaiter continues
      have owned := healthy.owned task handle held
      by_cases self : other = handle
      · clear healthy
        grind
      · have before : world.frames.continuation other = some (some awaiter) := by
          clear healthy
          grind
        have kept := healthy.continued other awaiter before
        clear healthy
        grind
    case runs =>
      intro after among other ran
      have kept := healthy.runs_of_mem stack among ran
      clear healthy
      grind
    all_goals grind
  · have isDone : world.frames.done handle = some true := by
      grind [Frames.done]
    refine ⟨world, ?_, healthy⟩
    simp only [Coroutines.await, isDone, Option.bind_eq_bind, Option.bind_some, Option.pure_def,
      if_true]

/-- The call of `resume` returns, if what `run` has resumed is void and still there. -/
theorem leave_eq {resumption : Resumption} {resumptions : List Resumption}
    (stack : world.resumptions = resumption :: resumptions)
    (present : ∀ handle, resumption.runs = some handle →
      isVoid handle = true ∧ world.frames handle ≠ none) :
    world.leave isVoid = some { world with resumptions } := by
  simp only [leave, stack]
  cases ran : resumption.runs with
  | none => rfl
  | some handle =>
    obtain ⟨void, there⟩ := present handle ran
    obtain ⟨frame, found⟩ := Option.ne_none_iff_exists'.mp there
    simp only [readResult, found, void, Option.bind_eq_bind, Option.bind_some, Option.pure_def,
      if_true]

theorem suspend {resumption : Resumption} {resumptions : List Resumption}
    (healthy : world.Healthy isVoid) (stack : world.resumptions = resumption :: resumptions) :
    ∃ next, world.suspend isVoid resumption.executing = some next ∧ next.Healthy isVoid := by
  have executing := healthy.executing_head stack
  obtain ⟨current, there⟩ := Frames.exists_of_map executing
  have suspended : world.suspend isVoid resumption.executing = some { world with
      frames := Function.update world.frames resumption.executing
        (some { current with point := some .leaf })
      saved := resumption.executing :: world.saved
      resumptions } := by
    simp only [Coroutines.suspend, Frames.setPoint, there, Option.bind_eq_bind, Option.bind_some,
      Option.pure_def]
    refine leave_eq stack fun handle ran => ?_
    obtain ⟨void, -, begun, -⟩ := healthy.runs resumption (by simp [stack]) handle ran
    refine ⟨void, ?_⟩
    simp only [Function.update_apply]
    split <;> simp [begun]
  refine ⟨_, suspended, ?_⟩
  constructor
  all_goals grind

/-- A coroutine returns that somebody awaits, who goes on. -/
theorem continues {resumption : Resumption} {resumptions : List Resumption} {value : Value}
    {frame : Frame LifePoint Value} {awaiter : FrameHandle} (healthy : world.Healthy isVoid)
    (stack : world.resumptions = resumption :: resumptions)
    (found : world.frames resumption.executing = some frame)
    (awaited : frame.promise.continuation = some awaiter) :
    ∃ next, world.coReturn isVoid resumption.executing value = some next ∧
      next.Healthy isVoid := by
  have executing := healthy.executing_head stack
  obtain ⟨isDetached, awaits⟩ : frame.promise.isDetached = false ∧
      world.frames.point awaiter = some (some (.awaiting resumption.executing)) := by
    have kept := healthy.continued resumption.executing awaiter
    grind
  obtain ⟨other, there⟩ := Frames.exists_of_map awaits
  have point : other.point = some (.awaiting resumption.executing) := by
    grind
  have apart : awaiter ≠ resumption.executing := by
    grind
  have returns : world.coReturn isVoid resumption.executing value = some { world with
      frames := Function.update
        (Function.update world.frames resumption.executing
          (some ⟨{ frame.promise with value := some value }, none⟩))
        awaiter (some { other with point := some .executing })
      resumptions := { resumption with executing := awaiter } :: resumptions
      coReturned := Function.update world.coReturned resumption.executing (some value) } := by
    simp only [Coroutines.coReturn, Frames.returnValue, found, isDetached, awaited, enter,
      Function.update_of_ne apart, there, point, Function.update_self, Frames.setPoint, transfer,
      stack, Option.bind_eq_bind, Option.bind_some, Option.pure_def, Bool.false_eq_true, if_false]
  refine ⟨_, returns, ?_⟩
  constructor
  case awaits =>
    intro waiter task waits
    have before : world.frames.point waiter = some (some (.awaiting task)) := by
      clear healthy
      grind
    obtain ⟨continued, begun⟩ := healthy.awaits waiter task before
    clear healthy
    grind
  case continued =>
    intro task waiter continues
    have before : world.frames.continuation task = some (some waiter) := by
      clear healthy
      grind
    have kept := healthy.continued task waiter before
    clear healthy
    grind
  case runs =>
    intro after among handle ran
    have kept := healthy.runs_of_mem stack among ran
    clear healthy
    grind
  all_goals grind

/-- A coroutine returns that nobody awaits: it is destroyed if it is detached, and its call of
`resume` returns. -/
theorem ends {resumption : Resumption} {resumptions : List Resumption} {value : Value}
    {frame : Frame LifePoint Value} (healthy : world.Healthy isVoid)
    (stack : world.resumptions = resumption :: resumptions)
    (found : world.frames resumption.executing = some frame)
    (unawaited : frame.promise.continuation = none)
    (careful : ∀ other ∈ world.resumptions, other.runs ≠ some resumption.executing) :
    ∃ next, world.coReturn isVoid resumption.executing value = some next ∧
      next.Healthy isVoid := by
  have executing := healthy.executing_head stack
  let after : Option (Frame LifePoint Value) :=
    if frame.promise.isDetached then none
    else some ⟨{ frame.promise with value := some value }, none⟩
  have returns : world.coReturn isVoid resumption.executing value = some { world with
      frames := Function.update world.frames resumption.executing after
      resumptions
      coReturned := Function.update world.coReturned resumption.executing (some value) } := by
    have finalSuspend : world.frames.returnValue resumption.executing value =
        some (none, Function.update world.frames resumption.executing after) := by
      simp only [Frames.returnValue, found, unawaited, Option.bind_eq_bind, Option.bind_some]
      by_cases isDetached : frame.promise.isDetached = true
      · simp [after, isDetached, Frames.destroy]
      · simp [after, isDetached, unawaited]
    simp only [Coroutines.coReturn, finalSuspend, Option.bind_eq_bind, Option.bind_some]
    refine leave_eq stack fun handle ran => ?_
    have member : resumption ∈ world.resumptions := by simp [stack]
    obtain ⟨void, -, begun, -⟩ := healthy.runs resumption member handle ran
    have apart : handle ≠ resumption.executing := by
      rintro rfl
      exact careful resumption member ran
    exact ⟨void, by simpa only [Function.update_of_ne apart] using begun⟩
  refine ⟨_, returns, ?_⟩
  constructor
  all_goals grind

theorem coReturn {resumption : Resumption} {resumptions : List Resumption} (value : Value)
    (healthy : world.Healthy isVoid) (stack : world.resumptions = resumption :: resumptions)
    (careful : ∀ other ∈ world.resumptions, other.runs ≠ some resumption.executing) :
    ∃ next, world.coReturn isVoid resumption.executing value = some next ∧
      next.Healthy isVoid := by
  obtain ⟨frame, found⟩ := Frames.exists_of_map (healthy.executing_head stack)
  cases awaited : frame.promise.continuation with
  | none => exact healthy.ends stack found awaited careful
  | some awaiter => exact healthy.continues stack found awaited

/-- What is done with careful steps succeeds. -/
theorem perform {label : CoroutinesStep Value} {outcome : Option (Coroutines Value)}
    (healthy : world.Healthy isVoid) (careful : Careful isVoid world label)
    (performed : world.perform isVoid label = some outcome) :
    ∃ next, outcome = some next ∧ next.Healthy isVoid := by
  cases label with
  | construct =>
    cases performed
    exact ⟨_, rfl, healthy.construct⟩
  | move task =>
    obtain ⟨object, held, rfl⟩ := Option.map_eq_some_iff.mp performed
    exact ⟨_, rfl, healthy.move held⟩
  | destroy task =>
    obtain ⟨object, held, rfl⟩ := Option.map_eq_some_iff.mp performed
    exact healthy.destroy held (careful object held)
  | detach task =>
    obtain ⟨object, held, rfl⟩ := Option.map_eq_some_iff.mp performed
    obtain ⟨handle, rfl, idle⟩ := careful object held
    obtain ⟨next, detached, kept, -⟩ := healthy.detach held idle
    exact ⟨next, detached, kept⟩
  | run task =>
    obtain ⟨object, held, rfl⟩ := Option.map_eq_some_iff.mp performed
    obtain ⟨handle, rfl, idle⟩ := careful object held
    exact healthy.run held idle
  | await task =>
    obtain ⟨resumption, top, performed⟩ := Option.bind_eq_some_iff.mp performed
    obtain ⟨object, held, same⟩ := Option.bind_eq_some_iff.mp performed
    obtain ⟨handle, rfl, idle⟩ := careful object held
    obtain ⟨resumptions, stack⟩ := List.head?_eq_some_iff.mp top
    cases same
    exact healthy.await stack held idle
  | spawn task =>
    obtain ⟨object, held, rfl⟩ := Option.map_eq_some_iff.mp performed
    obtain ⟨handle, rfl, unstarted⟩ := careful object held
    exact healthy.spawn held unstarted
  | resume handle =>
    obtain ⟨keeps, same⟩ := Option.ite_none_right_eq_some.mp performed
    cases same
    exact healthy.resume keeps
  | suspend =>
    obtain ⟨resumption, top, rfl⟩ := Option.map_eq_some_iff.mp performed
    obtain ⟨resumptions, stack⟩ := List.head?_eq_some_iff.mp top
    exact healthy.suspend stack
  | coReturn value =>
    obtain ⟨resumption, top, rfl⟩ := Option.map_eq_some_iff.mp performed
    obtain ⟨resumptions, stack⟩ := List.head?_eq_some_iff.mp top
    exact healthy.coReturn value stack (careful resumption top)

theorem step {label : CoroutinesStep Value} {next : Coroutines Value}
    (healthy : world.Healthy isVoid) (careful : Careful isVoid world label)
    (taken : world.step isVoid label = some next) : next.Healthy isVoid := by
  rw [Coroutines.step, healthy.faultless, if_neg Bool.false_ne_true] at taken
  obtain ⟨outcome, performed, rfl⟩ := Option.map_eq_some_iff.mp taken
  obtain ⟨after, rfl, kept⟩ := healthy.perform careful performed
  exact kept

theorem sound (healthy : world.Healthy isVoid) : world.Sound where
  faultless := healthy.faultless
  returned entry among := by
    obtain ⟨same, present⟩ := healthy.returned entry among
    obtain ⟨value, returned⟩ := Option.ne_none_iff_exists'.mp present
    exact ⟨value, same.trans returned, returned⟩

end Healthy

/-- In a run of careful steps a frame is destroyed at most once and not touched afterwards,
and `run` returns what its coroutine has returned. -/
theorem sound_of_careful (isVoid : FrameHandle → Bool) (labels : List (CoroutinesStep Value))
    (final : Coroutines Value)
    (careful : Along (step isVoid) (Careful isVoid) initial labels)
    (ran : Library.Transition.run (step isVoid) initial labels = some final) : final.Sound :=
  (invariant_along (step isVoid) (fun _ _ _ healthy careful => healthy.step careful)
    Healthy.initial careful ran).sound

/-- A void task is run and awaits another one, whose result it takes again by `run`. -/
theorem sound_of_careful_awaiting :
    ∃ final, Library.Transition.run (step fun handle => handle = 0) initial
      [.construct, .run 0, .construct, .await 1, .suspend, .resume 1, .coReturn 5, .run 1,
        .destroy 1, .coReturn 0] = some final ∧
      final.Sound ∧ final.returned = [(1, some 5)] :=
  ⟨_, rfl, sound_of_careful (fun handle => handle = 0) [.construct, .run 0, .construct, .await 1,
    .suspend, .resume 1, .coReturn 5, .run 1, .destroy 1, .coReturn 0] _
    ⟨trivial, by decide, trivial, by decide, trivial, trivial, by decide, by decide, by decide,
      by decide, trivial⟩ rfl, rfl⟩

/-- The body of a task returns within `run`, which then reads the result in a frame that has
been destroyed. -/
theorem not_sound_of_run :
    ∃ final, Library.Transition.run (step fun _ => false) initial
      [.construct, .run 0, .coReturn 5] = some final ∧ ¬ final.Sound :=
  ⟨_, rfl, fun sound => nomatch sound.faultless⟩

end Coroutines

end Luce.Co
