/-
This file is the theory of runs of a system that takes one of several steps at a time.

A step is chosen by its label, and is not always enabled. A run is a list of labels
each of which is enabled where it comes. An invariant that every step keeps holds of
whatever a run reaches; if only the steps that meet a condition keep it, it holds of
whatever is reached by runs whose steps all meet the condition.
-/

import Mathlib.Data.Option.Basic

namespace Library.Transition

variable {State Label : Type*} (step : State → Label → Option State)

/-- What a run of these labels reaches, if each is enabled. -/
def run : State → List Label → Option State
  | state, [] => some state
  | state, label :: labels => (step state label).bind fun next => run next labels

/-- Every step of the run meets the condition. -/
def Along (condition : State → Label → Prop) : State → List Label → Prop
  | _, [] => True
  | state, label :: labels =>
    condition state label ∧ (step state label).elim True fun next => Along condition next labels

instance decidableAlong {condition : State → Label → Prop}
    [∀ state label, Decidable (condition state label)] :
    ∀ state labels, Decidable (Along step condition state labels)
  | _, [] => isTrue trivial
  | state, label :: labels =>
    have : Decidable ((step state label).elim True fun next => Along step condition next labels) :=
      match step state label with
      | none => isTrue trivial
      | some next => decidableAlong next labels
    inferInstanceAs (Decidable (_ ∧ _))

theorem run_cons {state final : State} {label : Label} {labels : List Label} :
    run step state (label :: labels) = some final ↔
      ∃ next, step state label = some next ∧ run step next labels = some final := by
  rw [run, Option.bind_eq_some_iff]

theorem run_append {state final : State} {first second : List Label} :
    run step state (first ++ second) = some final ↔
      ∃ next, run step state first = some next ∧ run step next second = some final := by
  induction first generalizing state with
  | nil => exact ⟨fun ran => ⟨state, rfl, ran⟩, fun ⟨_, same, ran⟩ => by cases same; exact ran⟩
  | cons label first inductionHypothesis =>
    simp only [List.cons_append, run_cons, inductionHypothesis]
    constructor
    · rintro ⟨next, taken, middle, ran, rest⟩
      exact ⟨middle, ⟨next, taken, ran⟩, rest⟩
    · rintro ⟨middle, ⟨next, taken, ran⟩, rest⟩
      exact ⟨next, taken, middle, ran, rest⟩

/-- An invariant that every step keeps under the condition holds of what is reached. -/
theorem invariant_along {invariant : State → Prop} {condition : State → Label → Prop}
    (preserved : ∀ state label next, invariant state → condition state label →
      step state label = some next → invariant next)
    {state final : State} {labels : List Label} (initially : invariant state)
    (along : Along step condition state labels) (ran : run step state labels = some final) :
    invariant final := by
  induction labels generalizing state with
  | nil =>
    cases ran
    exact initially
  | cons label labels inductionHypothesis =>
    obtain ⟨next, taken, rest⟩ := (run_cons step).mp ran
    obtain ⟨meets, later⟩ := along
    rw [taken] at later
    exact inductionHypothesis (preserved state label next initially meets taken) later rest

/-- The condition is met along the first part of a run. -/
theorem along_left {condition : State → Label → Prop} {state : State} {first second : List Label}
    (along : Along step condition state (first ++ second)) : Along step condition state first := by
  induction first generalizing state with
  | nil => trivial
  | cons label first inductionHypothesis =>
    obtain ⟨meets, later⟩ := along
    refine ⟨meets, ?_⟩
    cases taken : step state label with
    | none => trivial
    | some next =>
      rw [taken] at later
      exact inductionHypothesis later

theorem along_of_forall {condition : State → Label → Prop}
    (always : ∀ state label, condition state label) (state : State) (labels : List Label) :
    Along step condition state labels := by
  induction labels generalizing state with
  | nil => trivial
  | cons label labels inductionHypothesis =>
    refine ⟨always state label, ?_⟩
    cases step state label with
    | none => trivial
    | some next => exact inductionHypothesis next

/-- A condition on labels that holds of all of them. -/
theorem along_of_mem {condition : Label → Prop} {labels : List Label}
    (meets : ∀ label ∈ labels, condition label) (state : State) :
    Along step (fun _ => condition) state labels := by
  induction labels generalizing state with
  | nil => trivial
  | cons label labels inductionHypothesis =>
    obtain ⟨first, others⟩ := List.forall_mem_cons.mp meets
    refine ⟨first, ?_⟩
    cases step state label with
    | none => trivial
    | some next => exact inductionHypothesis others next

/-- An invariant that every step keeps holds of what is reached. -/
theorem invariant_run {invariant : State → Prop}
    (preserved : ∀ state label next, invariant state → step state label = some next →
      invariant next)
    {state final : State} {labels : List Label} (initially : invariant state)
    (ran : run step state labels = some final) : invariant final :=
  invariant_along step (fun state label next holds _ => preserved state label next holds) initially
    (along_of_forall step (fun _ _ => trivial) state labels) ran

/-- If a step keeps a property exactly when it meets a condition, then everything that a run
reaches has the property exactly when every step of the run meets the condition. -/
theorem along_iff_reached {sound good : State → Prop} {condition : State → Label → Prop}
    (preserved : ∀ state label next, sound state → step state label = some next → sound next)
    (exact : ∀ state label next, sound state → good state → step state label = some next →
      (good next ↔ condition state label))
    {state final : State} {labels : List Label} (soundly : sound state) (initially : good state)
    (ran : run step state labels = some final) :
    (∀ taken, taken <+: labels → ∀ reached, run step state taken = some reached → good reached) ↔
      Along step condition state labels := by
  induction labels generalizing state with
  | nil =>
    refine ⟨fun _ => trivial, fun _ taken fits reached path => ?_⟩
    obtain rfl := List.prefix_nil.mp fits
    cases path
    exact initially
  | cons label labels inductionHypothesis =>
    obtain ⟨next, moved, rest⟩ := (run_cons step).mp ran
    have later := inductionHypothesis (preserved state label next soundly moved)
    have here := exact state label next soundly initially moved
    rw [Along, moved, Option.elim_some]
    constructor
    · intro all
      have goodNext : good next := all [label] (List.prefix_append [label] labels) next
        ((run_cons step).mpr ⟨next, moved, rfl⟩)
      refine ⟨here.mp goodNext, (later goodNext rest).mp fun taken fits reached path => ?_⟩
      exact all (label :: taken) (List.prefix_cons_inj label |>.mpr fits) reached
        ((run_cons step).mpr ⟨next, moved, path⟩)
    · rintro ⟨meets, along⟩ taken fits reached path
      rcases List.prefix_cons_iff.mp fits with rfl | ⟨others, rfl, shorter⟩
      · cases path
        exact initially
      · obtain ⟨_, again, path⟩ := (run_cons step).mp path
        obtain rfl : next = _ := Option.some.inj (moved.symm.trans again)
        exact (later (here.mpr meets) rest).mpr along others shorter reached path

/-- What is seen along a run, step by step. -/
def observed {Event : Type*} (sees : State → Label → List Event) : State → List Label → List Event
  | _, [] => []
  | state, label :: labels =>
    sees state label ++ (step state label).elim [] fun next => observed sees next labels

theorem observed_cons {Event : Type*} {sees : State → Label → List Event} {state next : State}
    {label : Label} (taken : step state label = some next) (labels : List Label) :
    observed step sees state (label :: labels) =
      sees state label ++ observed step sees next labels := by
  rw [observed, taken, Option.elim_some]

/-- What is seen along a run is seen along its parts, one after the other. -/
theorem observed_append {Event : Type*} {sees : State → Label → List Event}
    {state middle : State} {first : List Label} (ran : run step state first = some middle)
    (second : List Label) :
    observed step sees state (first ++ second) =
      observed step sees state first ++ observed step sees middle second := by
  induction first generalizing state with
  | nil =>
    cases ran
    rfl
  | cons label first inductionHypothesis =>
    obtain ⟨next, taken, rest⟩ := (run_cons step).mp ran
    rw [List.cons_append, observed_cons step taken, observed_cons step taken,
      inductionHypothesis rest, List.append_assoc]

/-- Steps of some kind that each lower a rank come to an end. -/
theorem length_add_rank_le {invariant : State → Prop} {own : Label → Prop} {rank : State → Nat}
    (preserved : ∀ state label next, invariant state → own label → step state label = some next →
      invariant next)
    (lowers : ∀ state label next, invariant state → own label → step state label = some next →
      rank next < rank state)
    {state final : State} {labels : List Label} (initially : invariant state)
    (owned : ∀ label ∈ labels, own label) (ran : run step state labels = some final) :
    labels.length + rank final ≤ rank state := by
  induction labels generalizing state with
  | nil =>
    cases ran
    exact Nat.le_of_eq (Nat.zero_add _)
  | cons label labels inductionHypothesis =>
    obtain ⟨next, taken, rest⟩ := (run_cons step).mp ran
    obtain ⟨first, others⟩ := List.forall_mem_cons.mp owned
    have later := inductionHypothesis (preserved state label next initially first taken) others rest
    have lower := lowers state label next initially first taken
    rw [List.length_cons]
    omega

/-- Where every step lowers a rank, that of the state and of something that goes along with it,
no run goes on for ever. -/
theorem not_infinite {Companion Rank : Type*} {lower : Rank → Rank → Prop}
    (wellFounded : WellFounded lower) {sound : State → Companion → Prop}
    {condition : State → Label → Prop} {rank : State → Companion → Rank}
    (lowers : ∀ state companion label next, sound state companion → condition state label →
      step state label = some next →
        ∃ after, sound next after ∧ lower (rank next after) (rank state companion))
    {states : Nat → State} {labels : Nat → Label} {companion : Companion}
    (initially : sound (states 0) companion)
    (runs : ∀ time, condition (states time) (labels time) ∧
      step (states time) (labels time) = some (states (time + 1))) : False := by
  have never : ∀ value time companion, sound (states time) companion →
      rank (states time) companion = value → False := by
    intro value
    induction value using wellFounded.induction with
    | _ value inductionHypothesis =>
      intro time companion holds same
      obtain ⟨meets, taken⟩ := runs time
      obtain ⟨after, soundAfter, lowered⟩ := lowers _ companion _ _ holds meets taken
      rw [same] at lowered
      exact inductionHypothesis _ lowered (time + 1) after soundAfter rfl
  exact never _ 0 companion initially rfl

/-- Some run leads from one state to the other. -/
def Reaches (state final : State) : Prop := ∃ labels, run step state labels = some final

theorem Reaches.refl (state : State) : Reaches step state state := ⟨[], rfl⟩

variable {step}

theorem Reaches.head {state next final : State} {label : Label}
    (taken : step state label = some next) (reaches : Reaches step next final) :
    Reaches step state final := by
  obtain ⟨labels, ran⟩ := reaches
  exact ⟨label :: labels, (run_cons step).mpr ⟨next, taken, ran⟩⟩

theorem Reaches.single {state next : State} {label : Label}
    (taken : step state label = some next) : Reaches step state next :=
  .head taken (.refl step next)

theorem Reaches.trans {state middle final : State} (first : Reaches step state middle)
    (second : Reaches step middle final) : Reaches step state final := by
  obtain ⟨labels, ran⟩ := first
  induction labels generalizing state with
  | nil =>
    cases ran
    exact second
  | cons label labels inductionHypothesis =>
    obtain ⟨next, taken, rest⟩ := (run_cons step).mp ran
    exact (inductionHypothesis rest).head taken

/-- A system is followed by another one in whole runs if it is in single steps. -/
theorem reaches_of_simulation {Abstract AbstractLabel : Type*}
    {abstractStep : Abstract → AbstractLabel → Option Abstract} {abstraction : State → Abstract}
    (follows : ∀ state label next, step state label = some next →
      Reaches abstractStep (abstraction state) (abstraction next))
    {state final : State} {labels : List Label} (ran : run step state labels = some final) :
    Reaches abstractStep (abstraction state) (abstraction final) := by
  induction labels generalizing state with
  | nil =>
    cases ran
    exact .refl _ _
  | cons label labels inductionHypothesis =>
    obtain ⟨next, taken, rest⟩ := (run_cons step).mp ran
    exact (follows state label next taken).trans (inductionHypothesis rest)

/-- Two systems that answer each label alike, from states that correspond to states that
correspond, answer each list of labels alike. -/
theorem run_agrees {First Second : Type*} {firstStep : First → Label → Option First}
    {secondStep : Second → Label → Option Second} {corresponds : First → Second → Prop}
    (agree : ∀ first second label, corresponds first second →
      Option.Rel corresponds (firstStep first label) (secondStep second label))
    {first : First} {second : Second} (initially : corresponds first second)
    (labels : List Label) :
    Option.Rel corresponds (run firstStep first labels) (run secondStep second labels) := by
  induction labels generalizing first second with
  | nil => exact .some initially
  | cons label labels inductionHypothesis =>
    rw [run, run]
    have agreed := agree first second label initially
    generalize firstStep first label = one, secondStep second label = other at agreed
    cases agreed with
    | some next => exact inductionHypothesis next
    | none => exact .none

end Library.Transition
