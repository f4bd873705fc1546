/-
This file compares two ways to run procedures that call one another.

A body performs effects, asks for answers from outside, calls other bodies, and returns a
value. It can be evaluated by recursion, where a call is a call of the evaluator. It can also
be run by a machine that does one thing at a time and keeps a stack of the callers. Both
number the activations in the order in which they begin. What a state of the machine will
come to, as the recursion says it, is the same before and after each step, so that the
machine does what the recursion does; and where the recursion ends, the machine gets there.
-/

import Luce.Library.Transition
import Mathlib.Data.List.Basic

namespace Library.Procedure

open Transition

variable {Effect Answer Value : Type}

/-! ### Recursion -/

inductive Body (Effect Answer Value : Type) where
  | perform (effect : Effect) (rest : Body Effect Answer Value)
  | ask (rest : Answer → Body Effect Answer Value)
  | call (callee : Body Effect Answer Value) (rest : Value → Body Effect Answer Value)
  | ret (value : Value)

/-- What happens, and in which activation. -/
inductive Event (Effect Value : Type) where
  | performed (activation : Nat) (effect : Effect)
  | started (activation : Nat)
  | finished (activation : Nat) (value : Value)
  | continued (caller callee : Nat) (value : Value)
deriving DecidableEq, Repr

/-- What an evaluation comes to: what has happened, the value, the number of the next
activation, and the answers that are left. -/
structure Outcome (Effect Answer Value : Type) where
  trace : List (Event Effect Value)
  value : Value
  next : Nat
  answers : List Answer
deriving DecidableEq, Repr

/-- The outcome after other events. -/
def Outcome.after (outcome : Outcome Effect Answer Value) (events : List (Event Effect Value)) :
    Outcome Effect Answer Value :=
  { outcome with trace := events ++ outcome.trace }

/-- A body is evaluated as an activation with its own number, if there are enough answers. -/
def Body.eval : Body Effect Answer Value → Nat → Nat → List Answer →
    Option (Outcome Effect Answer Value)
  | .perform effect rest, self, next, answers =>
    (rest.eval self next answers).map (·.after [.performed self effect])
  | .ask _, _, _, [] => none
  | .ask rest, self, next, answer :: answers => (rest answer).eval self next answers
  | .call callee rest, self, next, answers => do
    let first ← callee.eval next (next + 1) answers
    let second ← (rest first.value).eval self first.next first.answers
    return second.after ([.started next] ++ first.trace ++
      [.finished next first.value, .continued self next first.value])
  | .ret value, _, next, answers => some ⟨[], value, next, answers⟩

theorem Body.eval_call_eq_some {callee : Body Effect Answer Value}
    {rest : Value → Body Effect Answer Value} {self next : Nat} {answers : List Answer}
    {outcome : Outcome Effect Answer Value}
    (evaluated : (Body.call callee rest).eval self next answers = some outcome) :
    ∃ first second, callee.eval next (next + 1) answers = some first ∧
      (rest first.value).eval self first.next first.answers = some second ∧
      outcome = second.after ([.started next] ++ first.trace ++
        [.finished next first.value, .continued self next first.value]) := by
  obtain ⟨first, evaluatedFirst, evaluated⟩ := Option.bind_eq_some_iff.mp evaluated
  obtain ⟨second, evaluatedSecond, same⟩ := Option.bind_eq_some_iff.mp evaluated
  exact ⟨first, second, evaluatedFirst, evaluatedSecond, (Option.some.inj same).symm⟩

/-! ### The machine -/

inductive Control (Effect Answer Value : Type) where
  | running (self : Nat) (body : Body Effect Answer Value)
  | waiting (self : Nat) (rest : Answer → Body Effect Answer Value)
  | returning (self : Nat) (value : Value)

/-- The activation that goes on, waits or has returned. -/
def Control.self : Control Effect Answer Value → Nat
  | .running self _ | .waiting self _ | .returning self _ => self

/-- The callers, the innermost first, with what each does with the value. -/
abbrev Stack (Effect Answer Value : Type) := List (Nat × (Value → Body Effect Answer Value))

structure State (Effect Answer Value : Type) where
  control : Control Effect Answer Value
  stack : Stack Effect Answer Value
  next : Nat
  trace : List (Event Effect Value)

inductive Label (Answer : Type) where
  | proceed
  | answer (answer : Answer)
deriving DecidableEq, Repr

def Label.answers : Label Answer → List Answer
  | .proceed => []
  | .answer given => [given]

@[simp] theorem Label.answers_proceed : (Label.proceed : Label Answer).answers = [] := rfl

@[simp] theorem Label.answers_answer (given : Answer) : (Label.answer given).answers = [given] := rfl

/-- The answers that are given in a run. -/
def answersOf (labels : List (Label Answer)) : List Answer := labels.flatMap Label.answers

namespace State

def initial (body : Body Effect Answer Value) : State Effect Answer Value :=
  ⟨.running 0 body, [], 1, [.started 0]⟩

def step (state : State Effect Answer Value) (label : Label Answer) :
    Option (State Effect Answer Value) :=
  match state.control, label with
  | .running self (.perform effect rest), .proceed =>
    some { state with
      control := .running self rest
      trace := state.trace ++ [.performed self effect] }
  | .running self (.ask rest), .proceed => some { state with control := .waiting self rest }
  | .running self (.call callee rest), .proceed =>
    some {
      control := .running state.next callee
      stack := (self, rest) :: state.stack
      next := state.next + 1
      trace := state.trace ++ [.started state.next] }
  | .running self (.ret value), .proceed =>
    some { state with
      control := .returning self value
      trace := state.trace ++ [.finished self value] }
  | .waiting self rest, .answer answer =>
    some { state with control := .running self (rest answer) }
  | .returning self value, .proceed =>
    match state.stack with
    | [] => none
    | (caller, rest) :: stack =>
      some { state with
        control := .running caller (rest value)
        stack
        trace := state.trace ++ [.continued caller self value] }
  | _, _ => none

/-! ### What a state comes to -/

/-- What the callers come to once the innermost of them gets this value. -/
def unwind : Stack Effect Answer Value → Nat → Value → Nat → List Answer →
    Option (Outcome Effect Answer Value)
  | [], _, value, next, answers => some ⟨[], value, next, answers⟩
  | (caller, rest) :: stack, callee, value, next, answers => do
    let outcome ← (rest value).eval caller next answers
    let last ← unwind stack caller outcome.value outcome.next outcome.answers
    return last.after ([.continued caller callee value] ++ outcome.trace ++
      [.finished caller outcome.value])

/-- What a body and its callers come to. -/
def complete (stack : Stack Effect Answer Value) (self : Nat) (body : Body Effect Answer Value)
    (next : Nat) (answers : List Answer) : Option (Outcome Effect Answer Value) := do
  let outcome ← body.eval self next answers
  let last ← unwind stack self outcome.value outcome.next outcome.answers
  return last.after (outcome.trace ++ [.finished self outcome.value])

/-- What the state comes to with these answers, with all that has happened before. -/
def comesTo (state : State Effect Answer Value) (answers : List Answer) :
    Option (Outcome Effect Answer Value) :=
  match state.control, answers with
  | .running self body, answers =>
    (complete state.stack self body state.next answers).map (·.after state.trace)
  | .waiting _ _, [] => none
  | .waiting self rest, answer :: answers =>
    (complete state.stack self (rest answer) state.next answers).map (·.after state.trace)
  | .returning self value, answers =>
    (unwind state.stack self value state.next answers).map (·.after state.trace)

@[simp] theorem after_after (outcome : Outcome Effect Answer Value)
    (first second : List (Event Effect Value)) :
    (outcome.after second).after first = outcome.after (first ++ second) := by
  rw [Outcome.after, Outcome.after, Outcome.after, List.append_assoc]

section

variable (stack : Stack Effect Answer Value) (self next : Nat) (answers : List Answer)

theorem complete_perform (effect : Effect) (rest : Body Effect Answer Value) :
    complete stack self (.perform effect rest) next answers =
      (complete stack self rest next answers).map (·.after [.performed self effect]) := by
  simp only [complete, Body.eval, Option.bind_eq_bind, Option.pure_def, Option.bind_map,
    Option.map_bind, Function.comp_def, Option.map_some, after_after]
  rfl

theorem complete_call (callee : Body Effect Answer Value)
    (rest : Value → Body Effect Answer Value) :
    complete stack self (.call callee rest) next answers =
      (complete ((self, rest) :: stack) next callee (next + 1) answers).map
        (·.after [.started next]) := by
  simp only [complete, unwind, Body.eval, Option.bind_eq_bind, Option.pure_def, Option.bind_assoc,
    Option.bind_some, Option.map_bind, Function.comp_def, Option.map_some,
    Outcome.after, List.append_assoc, List.cons_append, List.nil_append]

theorem complete_ret (value : Value) : complete stack self (.ret value) next answers =
    (unwind stack self value next answers).map (·.after [.finished self value]) := by
  simp only [complete, Body.eval, Option.bind_eq_bind, Option.pure_def, Option.bind_some,
    List.nil_append]
  cases unwind stack self value next answers <;> rfl

theorem unwind_cons (caller : Nat) (rest : Value → Body Effect Answer Value) (value : Value) :
    unwind ((caller, rest) :: stack) self value next answers =
      (complete stack caller (rest value) next answers).map
        (·.after [.continued caller self value]) := by
  simp only [complete, unwind, Option.bind_eq_bind, Option.pure_def, Option.map_bind,
    Function.comp_def, Option.map_some, after_after, List.append_assoc]

end

/-- A step leaves what the state comes to as it is, but for the answer that it takes. -/
theorem comesTo_step {state next : State Effect Answer Value} {label : Label Answer}
    (taken : state.step label = some next) (answers : List Answer) :
    next.comesTo answers = state.comesTo (label.answers ++ answers) := by
  obtain ⟨control, stack, count, trace⟩ := state
  cases control with
  | running self body =>
    cases label with
    | answer => cases body <;> cases taken
    | proceed =>
      cases body with
      | perform effect rest =>
        cases taken
        simp only [comesTo, complete_perform, Option.map_map, Function.comp_def, after_after]
        rfl
      | ask rest =>
        cases taken
        cases answers <;> rfl
      | call callee rest =>
        cases taken
        simp only [comesTo, complete_call, Option.map_map, Function.comp_def, after_after]
        rfl
      | ret value =>
        cases taken
        simp only [comesTo, complete_ret, Option.map_map, Function.comp_def, after_after]
        rfl
  | waiting self rest =>
    cases label with
    | proceed => cases taken
    | answer given =>
      cases taken
      rfl
  | returning self value =>
    cases label with
    | answer => cases taken
    | proceed =>
      cases stack with
      | nil => cases taken
      | cons top stack =>
        obtain ⟨caller, rest⟩ := top
        cases taken
        simp only [comesTo, unwind_cons, Option.map_map, Function.comp_def, after_after]
        rfl

theorem comesTo_run {state final : State Effect Answer Value} {labels : List (Label Answer)}
    (ran : run step state labels = some final) (answers : List Answer) :
    final.comesTo answers = state.comesTo (answersOf labels ++ answers) := by
  induction labels generalizing state with
  | nil =>
    cases ran
    rfl
  | cons label labels inductionHypothesis =>
    obtain ⟨next, taken, rest⟩ := (run_cons step).mp ran
    rw [inductionHypothesis rest, comesTo_step taken, answersOf, answersOf, List.flatMap_cons,
      List.append_assoc]

/-! ### The machine gets there -/

/-- Some run that takes just these answers leads from one state to the other. -/
def Takes (state : State Effect Answer Value) (answers : List Answer)
    (final : State Effect Answer Value) : Prop :=
  ∃ labels, run step state labels = some final ∧ answersOf labels = answers

theorem Takes.head {state next final : State Effect Answer Value} {label : Label Answer}
    {answers : List Answer} (taken : state.step label = some next)
    (takes : next.Takes answers final) : state.Takes (label.answers ++ answers) final := by
  obtain ⟨labels, ran, rfl⟩ := takes
  exact ⟨label :: labels, (run_cons step).mpr ⟨next, taken, ran⟩, List.flatMap_cons ..⟩

theorem Takes.trans {state middle final : State Effect Answer Value} {before after : List Answer}
    (first : state.Takes before middle) (second : middle.Takes after final) :
    state.Takes (before ++ after) final := by
  obtain ⟨labels, ran, rfl⟩ := first
  induction labels generalizing state with
  | nil =>
    cases ran
    exact second
  | cons label labels inductionHypothesis =>
    obtain ⟨next, taken, rest⟩ := (run_cons step).mp ran
    rw [answersOf, List.flatMap_cons, List.append_assoc]
    exact (inductionHypothesis rest).head taken

/-- Where the recursion ends, the machine returns the same value from the same body, and has
performed the same in between. -/
theorem takes_of_eval {body : Body Effect Answer Value} {self next : Nat} {answers : List Answer}
    {outcome : Outcome Effect Answer Value} (evaluated : body.eval self next answers = some outcome)
    (stack : Stack Effect Answer Value) (trace : List (Event Effect Value)) :
    ∃ used, answers = used ++ outcome.answers ∧
      State.Takes ⟨.running self body, stack, next, trace⟩ used
        ⟨.returning self outcome.value, stack, outcome.next,
          trace ++ outcome.trace ++ [.finished self outcome.value]⟩ := by
  induction body generalizing self next answers outcome stack trace with
  | perform effect rest inductionHypothesis =>
    obtain ⟨later, evaluatedLater, rfl⟩ := Option.map_eq_some_iff.mp evaluated
    obtain ⟨used, split, takes⟩ :=
      inductionHypothesis evaluatedLater stack (trace ++ [.performed self effect])
    have taken : State.step ⟨.running self (.perform effect rest), stack, next, trace⟩ .proceed =
        some ⟨.running self rest, stack, next, trace ++ [.performed self effect]⟩ := rfl
    refine ⟨used, split, ?_⟩
    simpa [Outcome.after] using takes.head taken
  | ask rest inductionHypothesis =>
    cases answers with
    | nil => cases evaluated
    | cons given answers =>
      obtain ⟨used, split, takes⟩ := inductionHypothesis given evaluated stack trace
      have asked : State.step ⟨.running self (.ask rest), stack, next, trace⟩ .proceed =
          some ⟨.waiting self rest, stack, next, trace⟩ := rfl
      have answered : State.step ⟨.waiting self rest, stack, next, trace⟩ (.answer given) =
          some ⟨.running self (rest given), stack, next, trace⟩ := rfl
      exact ⟨given :: used, congrArg (given :: ·) split, (takes.head answered).head asked⟩
  | call callee rest calleeHypothesis inductionHypothesis =>
    obtain ⟨first, second, evaluatedFirst, evaluatedSecond, rfl⟩ :=
      Body.eval_call_eq_some evaluated
    obtain ⟨usedFirst, splitFirst, takesFirst⟩ := calleeHypothesis evaluatedFirst
      ((self, rest) :: stack) (trace ++ [.started next])
    obtain ⟨usedSecond, splitSecond, takesSecond⟩ := inductionHypothesis first.value evaluatedSecond
      stack (trace ++ [.started next] ++ first.trace ++ [.finished next first.value] ++
        [.continued self next first.value])
    have called : State.step ⟨.running self (.call callee rest), stack, next, trace⟩ .proceed =
        some ⟨.running next callee, (self, rest) :: stack, next + 1, trace ++ [.started next]⟩ := rfl
    have continued : State.step ⟨.returning next first.value, (self, rest) :: stack, first.next,
        trace ++ [.started next] ++ first.trace ++ [.finished next first.value]⟩ .proceed =
          some ⟨.running self (rest first.value), stack, first.next, trace ++ [.started next] ++
            first.trace ++ [.finished next first.value] ++ [.continued self next first.value]⟩ := rfl
    refine ⟨usedFirst ++ usedSecond, ?_, ?_⟩
    · rw [splitFirst, splitSecond, List.append_assoc]
      rfl
    · simpa [Outcome.after] using (takesFirst.trans (takesSecond.head continued)).head called
  | ret value =>
    cases evaluated
    have returned : State.step ⟨.running self (.ret value), stack, next, trace⟩ .proceed =
        some ⟨.returning self value, stack, next, trace ++ [.finished self value]⟩ := rfl
    exact ⟨[], rfl, by simpa [answersOf] using Takes.head returned ⟨[], rfl, rfl⟩⟩

theorem comesTo_initial (body : Body Effect Answer Value) (answers : List Answer) :
    (initial body).comesTo answers = (body.eval 0 1 answers).map fun outcome =>
      { outcome with
        trace := [.started 0] ++ outcome.trace ++ [.finished 0 outcome.value] } := by
  simp only [initial, comesTo, complete]
  cases body.eval 0 1 answers with
  | none => rfl
  | some outcome => simp [unwind, Outcome.after]

/-- The machine returns from the outermost body just when the recursion ends, with the same
value, and after the same events. -/
theorem takes_iff_eval {body : Body Effect Answer Value} {answers : List Answer} {value : Value}
    {next : Nat} {trace : List (Event Effect Value)} :
    (initial body).Takes answers ⟨.returning 0 value, [], next, trace⟩ ↔
      ∃ inner, body.eval 0 1 answers = some ⟨inner, value, next, []⟩ ∧
        trace = [.started 0] ++ inner ++ [.finished 0 value] := by
  constructor
  · rintro ⟨labels, ran, rfl⟩
    have same := comesTo_run ran []
    rw [List.append_nil, comesTo_initial] at same
    obtain ⟨outcome, evaluated, matching⟩ := Option.map_eq_some_iff.mp same.symm
    obtain ⟨inner, result, count, left⟩ := outcome
    simp only [Outcome.after, List.append_nil, Outcome.mk.injEq] at matching
    obtain ⟨rfl, rfl, rfl, rfl⟩ := matching
    exact ⟨inner, evaluated, rfl⟩
  · rintro ⟨inner, evaluated, rfl⟩
    obtain ⟨used, split, takes⟩ := takes_of_eval evaluated [] [.started 0]
    rw [List.append_nil] at split
    exact split ▸ takes

/-- Until it returns from the outermost body, the machine can go on. -/
theorem step_or_wait (state : State Effect Answer Value) :
    (∃ next, state.step .proceed = some next) ∨
      (∃ self rest, state.control = .waiting self rest) ∨
      ∃ self value, state.control = .returning self value ∧ state.stack = [] := by
  obtain ⟨control, stack, next, trace⟩ := state
  cases control with
  | running self body => cases body <;> exact .inl ⟨_, rfl⟩
  | waiting self rest => exact .inr (.inl ⟨self, rest, rfl⟩)
  | returning self value =>
    cases stack with
    | nil => exact .inr (.inr ⟨self, value, rfl, rfl⟩)
    | cons top stack => exact .inl ⟨_, rfl⟩

end State

/-! ### Activations -/

/-- The activation begins, ends, or is left for its caller. -/
def Event.Marks (activation : Nat) : Event Effect Value → Bool
  | .performed .. => false
  | .started other | .finished other _ | .continued _ other _ => other = activation

section

variable (activation other : Nat) (value : Value)

@[simp] theorem Event.marks_started :
    (Event.started other : Event Effect Value).Marks activation = decide (other = activation) := rfl

@[simp] theorem Event.marks_finished :
    (Event.finished other value : Event Effect Value).Marks activation =
      decide (other = activation) := rfl

@[simp] theorem Event.marks_continued (caller : Nat) :
    (Event.continued caller other value : Event Effect Value).Marks activation =
      decide (other = activation) := rfl

end

/-- The activations that begin in an evaluation have the next numbers. Each of them is started
once, then finishes once, and then its caller is continued once, with its value. -/
theorem Body.eval_marks {body : Body Effect Answer Value} {self next : Nat} {answers : List Answer}
    {outcome : Outcome Effect Answer Value}
    (evaluated : body.eval self next answers = some outcome) :
    next ≤ outcome.next ∧ ∀ activation,
      if next ≤ activation ∧ activation < outcome.next then
        ∃ caller value, outcome.trace.filter (·.Marks activation) =
          [.started activation, .finished activation value, .continued caller activation value]
      else outcome.trace.filter (·.Marks activation) = [] := by
  induction body generalizing self next answers outcome with
  | perform effect rest inductionHypothesis =>
    obtain ⟨later, evaluatedLater, rfl⟩ := Option.map_eq_some_iff.mp evaluated
    have later := inductionHypothesis evaluatedLater
    exact later
  | ask rest inductionHypothesis =>
    cases answers with
    | nil => cases evaluated
    | cons given answers => exact inductionHypothesis given evaluated
  | call callee rest calleeHypothesis inductionHypothesis =>
    obtain ⟨first, second, evaluatedFirst, evaluatedSecond, rfl⟩ := eval_call_eq_some evaluated
    obtain ⟨upToFirst, marksFirst⟩ := calleeHypothesis evaluatedFirst
    obtain ⟨upToSecond, marksSecond⟩ := inductionHypothesis first.value evaluatedSecond
    refine ⟨by simp only [Outcome.after]; omega, fun activation => ?_⟩
    have inFirst := marksFirst activation
    have inSecond := marksSecond activation
    simp only [Outcome.after, List.filter_append]
    by_cases own : activation = next
    · subst own
      rw [if_neg (by omega)] at inFirst inSecond
      rw [if_pos (by omega), inFirst, inSecond]
      exact ⟨self, first.value, by simp⟩
    · have other : next ≠ activation := fun same => own same.symm
      have nothing : ([.started next] : List (Event Effect Value)).filter (·.Marks activation) = [] ∧
          ([.finished next first.value, .continued self next first.value] :
            List (Event Effect Value)).filter (·.Marks activation) = [] := by
        simp [other]
      rw [nothing.1, nothing.2, List.nil_append, List.append_nil]
      by_cases inner : activation < first.next
      · rw [if_neg (by omega)] at inSecond
        rw [inSecond, List.append_nil]
        split at inFirst
        case isTrue => rwa [if_pos (by omega)]
        case isFalse => rwa [if_neg (by omega)]
      · rw [if_neg (by omega)] at inFirst
        rw [inFirst, List.nil_append]
        split at inSecond
        case isTrue => rwa [if_pos (by omega)]
        case isFalse => rwa [if_neg (by omega)]
  | ret value =>
    cases evaluated
    refine ⟨Nat.le_refl _, fun activation => ?_⟩
    rw [if_neg (by dsimp only; omega)]
    rfl

end Library.Procedure
