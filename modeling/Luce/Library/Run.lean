/-
This file is the theory of runs of a machine that answers one call at a time.

A machine is a step function from a state and a call to the next state. The
history of a run is the list of its steps, each with the state the step starts
from; the states reached are the initial one and the one after each step. The
rules here carry a fact about one step to a fact about every run: an invariant
that every allowed step keeps, and an exact condition on steps that decides
whether every reached state is good.
-/

import Mathlib.Data.List.Basic

namespace Library.Run

variable {State Call : Type*} (step : State → Call → State)

/-- The steps of a run: the state each call starts from, with the call. -/
def history : State → List Call → List (State × Call)
  | _, [] => []
  | state, call :: calls => (state, call) :: history (step state call) calls

/-- The states of a run: the initial one and the one after each call. -/
def reached : State → List Call → List State
  | state, [] => [state]
  | state, call :: calls => state :: reached (step state call) calls

theorem mem_reached_self (state : State) (calls : List Call) :
    state ∈ reached step state calls := by
  cases calls <;> simp [reached]

theorem mem_reached_cons {state other : State} {call : Call} {calls : List Call}
    (member : other ∈ reached step (step state call) calls) :
    other ∈ reached step state (call :: calls) :=
  List.mem_cons_of_mem _ member

/-- What the calls lead to is reached. -/
theorem mem_reached_foldl (state : State) (calls : List Call) :
    calls.foldl step state ∈ reached step state calls := by
  induction calls generalizing state with
  | nil => exact List.mem_singleton_self _
  | cons call calls inductionHypothesis =>
    exact mem_reached_cons step (inductionHypothesis (step state call))

/-- The last call of a run starts from what the others lead to. -/
theorem mem_history_concat (state : State) (calls : List Call) (call : Call) :
    (calls.foldl step state, call) ∈ history step state (calls ++ [call]) := by
  induction calls generalizing state with
  | nil => exact List.mem_singleton_self _
  | cons first calls inductionHypothesis =>
    exact List.mem_cons_of_mem _ (inductionHypothesis (step state first))

/-- An invariant that every step keeps holds where every step starts. -/
theorem invariant_history {invariant : State → Prop}
    (preserved : ∀ state call, invariant state → invariant (step state call))
    {state : State} (initially : invariant state) (calls : List Call) :
    ∀ entry ∈ history step state calls, invariant entry.1 := by
  induction calls generalizing state with
  | nil => simp [history]
  | cons call calls inductionHypothesis =>
    intro entry member
    rcases List.mem_cons.mp member with rfl | later
    · exact initially
    · exact inductionHypothesis (preserved state call initially) entry later

/-- When, within states that fit, a step from a good state ends in a good state
exactly if it meets a condition, every state of a fitting run is good exactly if
every step meets the condition. -/
theorem forall_reached_iff {good fits : State → Prop} {condition : State → Call → Prop}
    (exact : ∀ state call, good state → fits state → fits (step state call) →
      (good (step state call) ↔ condition state call))
    {state : State} (initially : good state) (calls : List Call)
    (fitting : ∀ other ∈ reached step state calls, fits other) :
    (∀ other ∈ reached step state calls, good other) ↔
      ∀ entry ∈ history step state calls, condition entry.1 entry.2 := by
  induction calls generalizing state with
  | nil => simp [history, reached, initially]
  | cons call calls inductionHypothesis =>
    have here := exact state call initially (fitting _ (mem_reached_self step state _))
      (fitting _ (mem_reached_cons step (mem_reached_self step _ calls)))
    have later : ∀ other ∈ reached step (step state call) calls, fits other :=
      fun other member => fitting other (mem_reached_cons step member)
    simp only [history, reached, List.forall_mem_cons]
    constructor
    · rintro ⟨_, all⟩
      have next := all _ (mem_reached_self step _ calls)
      exact ⟨here.mp next, (inductionHypothesis next later).mp all⟩
    · rintro ⟨meets, rest⟩
      have next := here.mpr meets
      exact ⟨initially, (inductionHypothesis next later).mpr rest⟩

end Library.Run
