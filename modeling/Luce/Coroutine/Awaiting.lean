/-
This file proves that awaiting tasks is calling functions.

The frames of the coroutines that wait for one another are the stack of a machine for
procedures: each frame knows its continuation, which is the caller, and where the caller
waits for it. So whatever the coroutines do is what the machine for procedures does, which
is what the recursion does.
-/

import Luce.Coroutine.Task

namespace Luce.Co

open Library.Procedure Library.Transition

variable {Effect Answer Value : Type}

/-! ### The frames as a stack -/

/-- The frame of a coroutine above these callers. Only the outermost one may be detached. -/
def frameOf (isDetached : Bool) (stack : Stack Effect Answer Value) (value : Option Value)
    (point : Option (SuspendPoint Effect Answer Value)) :
    Frame (SuspendPoint Effect Answer Value) Value :=
  ⟨⟨value, stack.head?.map Prod.fst, isDetached && stack.isEmpty⟩, point⟩

/-- The callers wait, each for the one that it has called, and have been created earlier. -/
def Callers (isDetached : Bool) (frames : Frames (SuspendPoint Effect Answer Value) Value) :
    FrameHandle → Stack Effect Answer Value → Prop
  | callee, [] => callee = 0
  | callee, (caller, rest) :: stack =>
    caller < callee ∧
      frames caller = some (frameOf isDetached stack none (some (.awaiting callee rest))) ∧
      Callers isDetached frames caller stack

/-- What happens to frames that are not older than the callee does not concern the callers. -/
theorem Callers.congr {isDetached : Bool}
    {frames later : Frames (SuspendPoint Effect Answer Value) Value} {callee : FrameHandle}
    {stack : Stack Effect Answer Value} (callers : Callers isDetached frames callee stack)
    (older : ∀ handle, handle < callee → later handle = frames handle) :
    Callers isDetached later callee stack := by
  induction stack generalizing callee with
  | nil => exact callers
  | cons top stack inductionHypothesis =>
    obtain ⟨caller, rest⟩ := top
    obtain ⟨before, waits, others⟩ := callers
    exact ⟨before, (older caller before).trans waits,
      inductionHypothesis others fun handle earlier => older handle (Nat.lt_trans earlier before)⟩

/-- What the machine for tasks executes and has saved, and the frame of the innermost
coroutine, when the machine for procedures is there. -/
def Controls (isDetached : Bool) (machine : TaskMachine Effect Answer Value)
    (stack : Stack Effect Answer Value) : Control Effect Answer Value → Prop
  | .running self body => machine.running = some self ∧ machine.saved = none ∧
      machine.frames self = some (frameOf isDetached stack none (some (.before body)))
  | .waiting self rest => machine.running = none ∧ machine.saved = some self ∧
      machine.frames self = some (frameOf isDetached stack none (some (.leaf rest)))
  | .returning self value => machine.running = stack.head?.map Prod.fst ∧ machine.saved = none ∧
      machine.frames self = if isDetached && stack.isEmpty then none
        else some (frameOf isDetached stack (some value) none)

structure Represents (isDetached : Bool) (machine : TaskMachine Effect Answer Value)
    (state : State Effect Answer Value) : Prop where
  controls : Controls isDetached machine state.stack state.control
  callers : Callers isDetached machine.frames state.control.self state.stack
  older : state.control.self < machine.created
  created : machine.created = state.next
  trace : machine.trace = state.trace

theorem Represents.initial (body : Body Effect Answer Value) (isDetached : Bool) :
    Represents isDetached (TaskMachine.initial body isDetached) (State.initial body) where
  controls := ⟨rfl, rfl, by simp [TaskMachine.initial, State.initial, frameOf]⟩
  callers := rfl
  older := Nat.one_pos
  created := rfl
  trace := rfl

section

variable {isDetached : Bool} {machine : TaskMachine Effect Answer Value}
  {state : State Effect Answer Value}

/-- The innermost coroutine goes on by itself. -/
theorem callers_update {self : FrameHandle} {stack : Stack Effect Answer Value}
    (callers : Callers isDetached machine.frames self stack)
    (frame : Option (Frame (SuspendPoint Effect Answer Value) Value)) :
    Callers isDetached (Function.update machine.frames self frame) self stack :=
  callers.congr fun _ earlier => Function.update_of_ne (Nat.ne_of_lt earlier) ..

theorem agree_perform {self : Nat} {effect : Effect} {rest : Body Effect Answer Value}
    {stack : Stack Effect Answer Value} {next : Nat} {trace : List (Event Effect Value)}
    (represents : Represents isDetached machine
      ⟨.running self (.perform effect rest), stack, next, trace⟩) :
    ∃ later, machine.proceed = some later ∧ Represents isDetached later
      ⟨.running self rest, stack, next, trace ++ [.performed self effect]⟩ := by
  obtain ⟨⟨running, saved, frame⟩, callers, older, created, rfl⟩ := represents
  refine ⟨{ machine with
      frames := Function.update machine.frames self
        (some (frameOf isDetached stack none (some (.before rest))))
      trace := machine.trace ++ [.performed self effect] }, ?_, ?_⟩
  · simp [TaskMachine.proceed, running, frame, frameOf, Frames.setPoint]
  · exact ⟨⟨running, saved, Function.update_self ..⟩, callers_update callers _, older, created, rfl⟩

theorem agree_ask {self : Nat} {rest : Answer → Body Effect Answer Value}
    {stack : Stack Effect Answer Value} {next : Nat} {trace : List (Event Effect Value)}
    (represents : Represents isDetached machine ⟨.running self (.ask rest), stack, next, trace⟩) :
    ∃ later, machine.proceed = some later ∧
      Represents isDetached later ⟨.waiting self rest, stack, next, trace⟩ := by
  obtain ⟨⟨running, saved, frame⟩, callers, older, created, rfl⟩ := represents
  refine ⟨{ machine with
      frames := Function.update machine.frames self
        (some (frameOf isDetached stack none (some (.leaf rest))))
      running := none
      saved := some self }, ?_, ?_⟩
  · simp [TaskMachine.proceed, running, frame, frameOf, Frames.setPoint]
  · exact ⟨⟨rfl, rfl, Function.update_self ..⟩, callers_update callers _, older, created, rfl⟩

theorem agree_call {self : Nat} {callee : Body Effect Answer Value}
    {rest : Value → Body Effect Answer Value} {stack : Stack Effect Answer Value} {next : Nat}
    {trace : List (Event Effect Value)}
    (represents : Represents isDetached machine
      ⟨.running self (.call callee rest), stack, next, trace⟩) :
    ∃ later, machine.proceed = some later ∧ Represents isDetached later
      ⟨.running next callee, (self, rest) :: stack, next + 1, trace ++ [.started next]⟩ := by
  obtain ⟨⟨running, saved, frame⟩, callers, older, rfl, rfl⟩ := represents
  change self < machine.created at older
  have apart : self ≠ machine.created := Nat.ne_of_lt older
  let waits := frameOf isDetached stack none (some (.awaiting machine.created rest))
  let begins := frameOf isDetached ((self, rest) :: stack) none (some (.before callee))
  let frames := Function.update (Function.update (machine.frames.create machine.created
    (.before callee)) self (some waits)) machine.created (some begins)
  have unchanged : ∀ handle, handle < self → frames handle = machine.frames handle := by
    intro handle earlier
    have below := Nat.lt_trans earlier older
    simp only [frames, Frames.create, Function.update_of_ne (Nat.ne_of_lt below),
      Function.update_of_ne (Nat.ne_of_lt earlier)]
  have caller : frames self = some waits :=
    (Function.update_of_ne apart ..).trans (Function.update_self ..)
  refine ⟨{ machine with
      frames
      created := machine.created + 1
      running := some machine.created
      trace := machine.trace ++ [.started machine.created] }, ?_, ?_⟩
  · simp [TaskMachine.proceed, running, frame, frameOf, TaskMachine.await, Frames.create, Frames.done,
      Frames.setPoint, Frames.setContinuation, Function.update_of_ne apart,
      Function.update_of_ne apart.symm, frames, waits, begins]
  · exact ⟨⟨rfl, saved, Function.update_self ..⟩, ⟨older, caller, callers.congr unchanged⟩,
      Nat.lt_succ_self _, rfl, rfl⟩

theorem agree_ret {self : Nat} {value : Value} {stack : Stack Effect Answer Value} {next : Nat}
    {trace : List (Event Effect Value)}
    (represents : Represents isDetached machine ⟨.running self (.ret value), stack, next, trace⟩) :
    ∃ later, machine.proceed = some later ∧ Represents isDetached later
      ⟨.returning self value, stack, next, trace ++ [.finished self value]⟩ := by
  obtain ⟨⟨running, saved, frame⟩, callers, older, created, rfl⟩ := represents
  refine ⟨{ machine with
      frames := Function.update machine.frames self (if isDetached && stack.isEmpty then none
        else some (frameOf isDetached stack (some value) none))
      running := stack.head?.map Prod.fst
      trace := machine.trace ++ [.finished self value] }, ?_, ?_⟩
  · cases detached : isDetached && stack.isEmpty with
    | true =>
      simp [TaskMachine.proceed, running, frame, frameOf, Frames.returnValue, Frames.destroy,
        detached]
    | false => simp [TaskMachine.proceed, running, frame, frameOf, Frames.returnValue, detached]
  · exact ⟨⟨rfl, saved, Function.update_self ..⟩, callers_update callers _, older, created, rfl⟩

theorem agree_continue {self caller : Nat} {value : Value} {rest : Value → Body Effect Answer Value}
    {stack : Stack Effect Answer Value} {next : Nat} {trace : List (Event Effect Value)}
    (represents : Represents isDetached machine
      ⟨.returning self value, (caller, rest) :: stack, next, trace⟩) :
    ∃ later, machine.proceed = some later ∧ Represents isDetached later
      ⟨.running caller (rest value), stack, next, trace ++ [.continued caller self value]⟩ := by
  obtain ⟨⟨running, saved, frame⟩, ⟨earlier, waits, callers⟩, older, created, rfl⟩ := represents
  change caller < self at earlier
  change self < machine.created at older
  have apart : caller ≠ self := Nat.ne_of_lt earlier
  simp only [List.isEmpty_cons, Bool.and_false, Bool.false_eq_true, if_false] at frame
  let frames := Function.update (Function.update machine.frames self none) caller
    (some (frameOf isDetached stack none (some (.before (rest value)))))
  have unchanged : ∀ handle, handle < caller → frames handle = machine.frames handle := by
    intro handle before
    have below := Nat.lt_trans before earlier
    simp only [frames, Function.update_of_ne (Nat.ne_of_lt before),
      Function.update_of_ne (Nat.ne_of_lt below)]
  refine ⟨{ machine with frames, trace := machine.trace ++ [.continued caller self value] }, ?_, ?_⟩
  · simp [TaskMachine.proceed, running, waits, frame, frameOf, Control.self,
      TaskMachine.resumeAwait, Frames.result, Frames.destroy, Frames.setPoint,
      Function.update_of_ne apart, frames]
  · exact ⟨⟨running, saved, Function.update_self ..⟩, callers.congr unchanged,
      Nat.lt_trans earlier older, created, rfl⟩

theorem agree_answer {self : Nat} {rest : Answer → Body Effect Answer Value}
    {stack : Stack Effect Answer Value} {next : Nat} {trace : List (Event Effect Value)}
    (represents : Represents isDetached machine ⟨.waiting self rest, stack, next, trace⟩)
    (given : Answer) :
    ∃ later, machine.answer given = some later ∧
      Represents isDetached later ⟨.running self (rest given), stack, next, trace⟩ := by
  obtain ⟨⟨running, saved, frame⟩, callers, older, created, rfl⟩ := represents
  refine ⟨{ machine with
      frames := Function.update machine.frames self
        (some (frameOf isDetached stack none (some (.before (rest given)))))
      running := some self
      saved := none }, ?_, ?_⟩
  · simp [TaskMachine.answer, running, saved, frame, frameOf, Frames.setPoint]
  · exact ⟨⟨rfl, rfl, Function.update_self ..⟩, callers_update callers _, older, created, rfl⟩

theorem agree_of_exists {later : Option (TaskMachine Effect Answer Value)}
    (agrees : ∃ next, later = some next ∧ Represents isDetached next state) :
    Option.Rel (Represents isDetached) later (some state) := by
  obtain ⟨next, rfl, represents⟩ := agrees
  exact .some represents

/-- Outside the machine nothing is executed, and inside it no handle has been saved. -/
theorem proceed_of_outside (outside : machine.running = none) : machine.proceed = none := by
  simp [TaskMachine.proceed, outside]

theorem answer_of_inside (inside : machine.saved = none) (given : Answer) :
    machine.answer given = none := by
  simp [TaskMachine.answer, inside]

/-- The two machines do the same, label by label. -/
theorem agree_step (label : Label Answer) (represents : Represents isDetached machine state) :
    Option.Rel (Represents isDetached) (machine.step label) (state.step label) := by
  obtain ⟨control, stack, next, trace⟩ := state
  cases control with
  | running self body =>
    cases label with
    | proceed =>
      cases body with
      | perform effect rest => exact agree_of_exists (agree_perform represents)
      | ask rest => exact agree_of_exists (agree_ask represents)
      | call callee rest => exact agree_of_exists (agree_call represents)
      | ret value => exact agree_of_exists (agree_ret represents)
    | answer given =>
      rw [TaskMachine.step, answer_of_inside represents.controls.2.1]
      cases body <;> exact .none
  | waiting self rest =>
    cases label with
    | proceed =>
      rw [TaskMachine.step, proceed_of_outside represents.controls.1]
      exact .none
    | answer given => exact agree_of_exists (agree_answer represents given)
  | returning self value =>
    cases label with
    | proceed =>
      cases stack with
      | nil =>
        rw [TaskMachine.step, proceed_of_outside represents.controls.1]
        exact .none
      | cons top stack => exact agree_of_exists (agree_continue represents)
    | answer given =>
      rw [TaskMachine.step, answer_of_inside represents.controls.2.1]
      exact .none

/-- What the machine for tasks reaches is what the machine for procedures reaches. -/
theorem represents_of_run {body : Body Effect Answer Value} {labels : List (Label Answer)}
    (ran : run TaskMachine.step (.initial body isDetached) labels = some machine) :
    ∃ state, run State.step (.initial body) labels = some state ∧
      Represents isDetached machine state := by
  have agreed := run_agrees (fun _ _ label represents => agree_step label represents)
    (Represents.initial body isDetached) labels
  rw [ran] at agreed
  generalize run State.step (.initial body) labels = other at agreed
  cases agreed with
  | some represents => exact ⟨_, rfl, represents⟩

theorem run_of_represents {body : Body Effect Answer Value} {labels : List (Label Answer)}
    (isDetached : Bool) (reached : run State.step (.initial body) labels = some state) :
    ∃ machine, run TaskMachine.step (.initial body isDetached) labels = some machine ∧
      Represents isDetached machine state := by
  have agreed := run_agrees (fun _ _ label represents => agree_step label represents)
    (Represents.initial body isDetached) labels
  rw [reached] at agreed
  generalize run TaskMachine.step (.initial body isDetached) labels = other at agreed
  cases agreed with
  | some represents => exact ⟨_, rfl, represents⟩

end

/-! ### Driving the outermost coroutine to its end -/

/-- Nothing is executed, and nobody has a handle to resume. -/
def TaskMachine.Completed (machine : TaskMachine Effect Answer Value) : Prop :=
  machine.running = none ∧ machine.saved = none

theorem completed_iff {isDetached : Bool} {machine : TaskMachine Effect Answer Value}
    {state : State Effect Answer Value} (represents : Represents isDetached machine state) :
    machine.Completed ↔ state.stack = [] ∧ ∃ value, state.control = .returning 0 value := by
  obtain ⟨control, stack, next, trace⟩ := state
  cases control with
  | running self body =>
    constructor
    · rintro ⟨outside, -⟩
      cases represents.controls.1.symm.trans outside
    · rintro ⟨-, value, same⟩
      cases same
  | waiting self rest =>
    constructor
    · rintro ⟨-, unsaved⟩
      cases represents.controls.2.1.symm.trans unsaved
    · rintro ⟨-, value, same⟩
      cases same
  | returning self value =>
    obtain ⟨⟨running, saved, -⟩, callers, -⟩ := represents
    cases stack with
    | nil =>
      obtain rfl : self = 0 := callers
      exact ⟨fun _ => ⟨rfl, value, rfl⟩, fun _ => ⟨running, saved⟩⟩
    | cons top stack =>
      constructor
      · rintro ⟨outside, -⟩
        cases running.symm.trans outside
      · rintro ⟨empty, -⟩
        cases empty

/-- While a coroutine is executed, it goes on. -/
theorem proceeds {isDetached : Bool} {machine : TaskMachine Effect Answer Value}
    {state : State Effect Answer Value} (represents : Represents isDetached machine state)
    (inside : machine.running ≠ none) : ∃ next, machine.step .proceed = some next := by
  have agreed := agree_step .proceed represents
  obtain ⟨next, taken⟩ | ⟨self, rest, waiting⟩ | ⟨self, value, returning, empty⟩ :=
    state.step_or_wait
  · rw [taken] at agreed
    generalize machine.step .proceed = later at agreed
    cases agreed with
    | some => exact ⟨_, rfl⟩
  · have controls := represents.controls
    rw [waiting] at controls
    exact absurd controls.1 inside
  · have controls := represents.controls
    rw [returning, empty] at controls
    exact absurd controls.1 inside

/-- While a handle is saved, any answer resumes it. -/
theorem resumes {isDetached : Bool} {machine : TaskMachine Effect Answer Value}
    {state : State Effect Answer Value} (represents : Represents isDetached machine state)
    (outside : machine.saved ≠ none) (given : Answer) :
    ∃ next, machine.step (.answer given) = some next := by
  obtain ⟨control, stack, next, trace⟩ := state
  cases control with
  | running self body => exact absurd represents.controls.2.1 outside
  | waiting self rest =>
    obtain ⟨later, taken, -⟩ := agree_answer represents given
    exact ⟨later, taken⟩
  | returning self value => exact absurd represents.controls.2.1 outside

/-- The value is in the promise of the outermost coroutine, unless it has been detached. -/
theorem result_of_returning {machine : TaskMachine Effect Answer Value} {value : Value} {next : Nat}
    {trace : List (Event Effect Value)}
    (represents : Represents false machine ⟨.returning 0 value, [], next, trace⟩) :
    machine.frames.result 0 = some value := by
  obtain ⟨⟨-, -, frame⟩, -⟩ := represents
  simp only [Bool.false_and, Bool.false_eq_true, if_false] at frame
  simp [Frames.result, frame, frameOf]

/-- Each task that has been awaited was started once, finished once, and then its awaiter was
continued once with its value. -/
theorem awaited_once {body : Body Effect Answer Value} {answers : List Answer}
    {inner : List (Event Effect Value)} {value : Value} {next : Nat}
    (evaluated : body.eval 0 1 answers = some ⟨inner, value, next, []⟩)
    {trace : List (Event Effect Value)} (traced : trace = [.started 0] ++ inner ++ [.finished 0 value])
    {task : Nat} (awaited : 1 ≤ task) (created : task < next) :
    ∃ awaiter result, trace.filter (·.Marks task) =
      [.started task, .finished task result, .continued awaiter task result] := by
  have marks := (Body.eval_marks evaluated).2 task
  rw [if_pos ⟨awaited, created⟩] at marks
  obtain ⟨awaiter, result, filtered⟩ := marks
  dsimp only at filtered
  have other : (0 : Nat) ≠ task := by omega
  exact ⟨awaiter, result, by simp [traced, filtered, other]⟩

/-- Whatever an outermost task and the tasks that it awaits do, the machine for tasks can
always go on until the outermost one is done. Then it has performed the same, and given the
same values to the same bodies, as the recursion in which awaiting a task is calling a
function; each awaited task was started once, and its awaiter continued once, after the task
has finished. And where the recursion ends with the given answers, the machine can be
driven to that end with them. -/
theorem awaiting_is_calling (body : Body Effect Answer Value) (isDetached : Bool) :
    (∀ (labels : List (Label Answer)) (final : TaskMachine Effect Answer Value),
      run TaskMachine.step (.initial body isDetached) labels = some final →
        (final.running ≠ none → ∃ next, final.step .proceed = some next) ∧
        (final.saved ≠ none → ∀ given, ∃ next, final.step (.answer given) = some next) ∧
        (final.Completed → ∃ inner value,
          body.eval 0 1 (answersOf labels) = some ⟨inner, value, final.created, []⟩ ∧
            final.trace = [.started 0] ++ inner ++ [.finished 0 value] ∧
            (isDetached = false → final.frames.result 0 = some value) ∧
            ∀ task, 1 ≤ task → task < final.created → ∃ awaiter result,
              final.trace.filter (·.Marks task) =
                [.started task, .finished task result, .continued awaiter task result])) ∧
      ∀ (answers : List Answer) (outcome : Outcome Effect Answer Value),
        body.eval 0 1 answers = some outcome → outcome.answers = [] →
          ∃ labels final, run TaskMachine.step (.initial body isDetached) labels = some final ∧
            answersOf labels = answers ∧ final.Completed := by
  refine ⟨fun labels final ran => ?_, fun answers outcome evaluated exhausted => ?_⟩
  · obtain ⟨state, reached, represents⟩ := represents_of_run ran
    refine ⟨proceeds represents, resumes represents, fun completed => ?_⟩
    obtain ⟨control, stack, next, trace⟩ := state
    obtain ⟨empty, value, returning⟩ := (completed_iff represents).mp completed
    obtain rfl : stack = [] := empty
    obtain rfl : control = .returning 0 value := returning
    obtain ⟨inner, evaluated, traced⟩ := State.takes_iff_eval.mp ⟨labels, reached, rfl⟩
    have created : final.created = next := represents.created
    have same := represents.trace.trans traced
    refine ⟨inner, value, created ▸ evaluated, same, ?_, fun task awaited before => ?_⟩
    · rintro rfl
      exact result_of_returning represents
    · exact awaited_once evaluated same awaited (created ▸ before)
  · obtain ⟨inner, value, next, left⟩ := outcome
    obtain rfl : left = [] := exhausted
    obtain ⟨labels, reached, given⟩ := State.takes_iff_eval.mpr ⟨inner, evaluated, rfl⟩
    obtain ⟨final, ran, represents⟩ := run_of_represents isDetached reached
    exact ⟨labels, final, ran, given, (completed_iff represents).mpr ⟨rfl, value, rfl⟩⟩

end Luce.Co
