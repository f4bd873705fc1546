/-
This file is a theory of computations that may not come to an end.

A recursion without an evident measure is run on fuel: a run ends with a value, is
stopped by an error, or is exhausted. One run approximates another when it is
exhausted or has the same outcome. A definition that passes its fuel down is
monotone, as sequencing is, so more fuel never changes an outcome: whatever ends
at all ends with one outcome, and what no fuel suffices for does not terminate.
-/

import Mathlib.Order.Basic

namespace Library.Fuel

/-- Why a run has no value. -/
inductive Halt (Error : Type) where
  /-- The fuel ran out. -/
  | exhausted
  /-- The computation raised an error. -/
  | raised (error : Error)
deriving DecidableEq, Repr

/-- A run of a computation on some fuel. -/
abbrev Run (Error Value : Type) : Type := Except (Halt Error) Value

variable {Error Value Result : Type}

/-- The run that is out of fuel. -/
def exhausted : Run Error Value := .error .exhausted

/-- The run that raises an error. -/
def raise (error : Error) : Run Error Value := .error (.raised error)

/-- The same run, with its errors among those of another kind. -/
def raisedAs {Other : Type} (embed : Error → Other) : Run Error Value → Run Other Value
  | .ok value => .ok value
  | .error .exhausted => exhausted
  | .error (.raised error) => raise (embed error)

@[simp] theorem raisedAs_ok {Other : Type} (embed : Error → Other) (value : Value) :
    raisedAs embed (.ok value) = .ok value := rfl

theorem raisedAs_eq_ok {Other : Type} {embed : Error → Other} {run : Run Error Value}
    {value : Value} : raisedAs embed run = .ok value ↔ run = .ok value := by
  rcases run with (_ | error) | ran
  · exact iff_of_false nofun nofun
  · exact iff_of_false nofun nofun
  · exact ⟨fun same => congrArg Except.ok (Except.ok.inj same), fun same => by rw [same, raisedAs_ok]⟩

/-! ### Sequencing -/

@[simp] theorem ok_bind (value : Value) (next : Value → Run Error Result) :
    (Except.ok value : Run Error Value) >>= next = next value := rfl

@[simp] theorem exhausted_bind (next : Value → Run Error Result) :
    (exhausted : Run Error Value) >>= next = exhausted := rfl

@[simp] theorem raise_bind (error : Error) (next : Value → Run Error Result) :
    raise error >>= next = raise error := rfl

theorem bind_eq_ok {run : Run Error Value} {next : Value → Run Error Result} {result : Result} :
    run >>= next = .ok result ↔ ∃ value, run = .ok value ∧ next value = .ok result := by
  constructor
  · intro outcome
    cases run with
    | error halt => cases outcome
    | ok value => exact ⟨value, rfl, outcome⟩
  · rintro ⟨value, rfl, outcome⟩
    exact outcome

theorem bind_eq_exhausted {run : Run Error Value} {next : Value → Run Error Result} :
    run >>= next = exhausted ↔
      run = exhausted ∨ ∃ value, run = .ok value ∧ next value = exhausted := by
  constructor
  · intro outcome
    cases run with
    | error halt =>
      cases outcome
      exact Or.inl rfl
    | ok value => exact Or.inr ⟨value, rfl, outcome⟩
  · rintro (rfl | ⟨value, rfl, outcome⟩)
    · rfl
    · exact outcome

/-! ### Approximation -/

/-- The first run is exhausted, or the second has its outcome. -/
def Approximates (first second : Run Error Value) : Prop := first = exhausted ∨ first = second

theorem Approximates.refl (run : Run Error Value) : Approximates run run := Or.inr rfl

theorem Approximates.exhausted (run : Run Error Value) : Approximates exhausted run := Or.inl rfl

theorem Approximates.trans {first second third : Run Error Value}
    (start : Approximates first second) (finish : Approximates second third) :
    Approximates first third := by
  rcases start with rfl | rfl
  · exact Or.inl rfl
  · exact finish

/-- Sequencing is monotone. -/
theorem Approximates.bind {first second : Run Error Value} {next later : Value → Run Error Result}
    (start : Approximates first second)
    (step : ∀ value, Approximates (next value) (later value)) :
    Approximates (first >>= next) (second >>= later) := by
  rcases start with rfl | rfl
  · exact Or.inl rfl
  · cases first with
    | error halt => exact Or.inr rfl
    | ok value => exact step value

/-- Branching is monotone. -/
theorem Approximates.ite {condition : Prop} [Decidable condition]
    {first second left right : Run Error Value} (holds : Approximates first second)
    (fails : Approximates left right) :
    Approximates (if condition then first else left) (if condition then second else right) := by
  split
  · exact holds
  · exact fails

/-- A run that does not run out of fuel has every outcome it approximates. -/
theorem Approximates.eq {first second : Run Error Value} (approximates : Approximates first second)
    (ended : first ≠ Fuel.exhausted) : second = first :=
  (approximates.resolve_left ended).symm

/-! ### Runs on any fuel -/

/-- More fuel changes an outcome only where there was none. -/
def Monotone (run : Nat → Run Error Value) : Prop :=
  ∀ fuel, Approximates (run fuel) (run (fuel + 1))

/-- Some fuel suffices. -/
def Terminates (run : Nat → Run Error Value) : Prop := ∃ fuel, run fuel ≠ exhausted

theorem Monotone.of_le {run : Nat → Run Error Value} (monotone : Monotone run) {less more : Nat}
    (le : less ≤ more) : Approximates (run less) (run more) := by
  induction le with
  | refl => exact .refl _
  | step _ inductionHypothesis => exact inductionHypothesis.trans (monotone _)

/-- What some fuel returns, more fuel returns. -/
theorem Monotone.ok_of_le {run : Nat → Run Error Value} (monotone : Monotone run)
    {less more : Nat} (le : less ≤ more) {value : Value} (ran : run less = .ok value) :
    run more = .ok value := by
  have same : run more = run less := (monotone.of_le le).eq fun none => by cases ran.symm.trans none
  exact same.trans ran

/-- On any fuel, a run approximates the outcome that some fuel gives. -/
theorem Monotone.approximates {run : Nat → Run Error Value} (monotone : Monotone run)
    {enough : Nat} (ended : run enough ≠ exhausted) (fuel : Nat) :
    Approximates (run fuel) (run enough) := by
  rcases Nat.le_total fuel enough with less | more
  · exact monotone.of_le less
  · exact Or.inr ((monotone.of_le more).eq ended)

/-- With fuel enough, the run has this outcome. -/
def ComesTo (run : Nat → Run Error Value) (outcome : Run Error Value) : Prop :=
  ∃ enough, ∀ fuel, enough ≤ fuel → run fuel = outcome

theorem ComesTo.unique {run : Nat → Run Error Value} {first second : Run Error Value}
    (left : ComesTo run first) (right : ComesTo run second) : first = second := by
  obtain ⟨enough, left⟩ := left
  obtain ⟨enoughToo, right⟩ := right
  rw [← left _ (Nat.le_max_left enough enoughToo), right _ (Nat.le_max_right enough enoughToo)]

theorem ComesTo.const (outcome : Run Error Value) : ComesTo (fun _ => outcome) outcome :=
  ⟨0, fun _ _ => rfl⟩

/-- What follows a run that returns comes to what follows its value. -/
theorem ComesTo.bind {run : Nat → Run Error Value} {value : Value}
    (comes : ComesTo run (.ok value)) (next : Value → Run Error Result) :
    ComesTo (fun fuel => run fuel >>= next) (next value) := by
  obtain ⟨enough, comes⟩ := comes
  refine ⟨enough, fun fuel fits => ?_⟩
  simp only [comes fuel fits, ok_bind]

/-! ### Judgements -/

/-- What the run returns is good, and with enough fuel it does not run out, unless
there is an excuse. -/
structure Judged (good : Value → Prop) (enough excuse : Prop) (run : Run Error Value) : Prop where
  sound : ∀ value, run = .ok value → good value ∨ excuse
  ended : enough → run = Fuel.exhausted → excuse

namespace Judged

variable {good : Value → Prop} {better : Result → Prop} {enough excuse : Prop}

theorem ok {value : Value} (isGood : good value) :
    Judged good enough excuse (.ok value : Run Error Value) where
  sound other outcome := Or.inl (Except.ok.inj outcome ▸ isGood)
  ended _ outcome := by cases outcome

theorem pure {value : Value} (isGood : good value) :
    Judged good enough excuse (Pure.pure value : Run Error Value) :=
  ok isGood

theorem raise (error : Error) : Judged good enough excuse (Fuel.raise error) where
  sound _ outcome := by cases outcome
  ended _ outcome := by cases outcome

theorem exhausted (never : ¬ enough) : Judged good enough excuse (Fuel.exhausted : Run Error Value)
    where
  sound _ outcome := by cases outcome
  ended fits _ := absurd fits never

/-- A run is judged by its first part and, where that is good, by what follows. -/
theorem bind {run : Run Error Value} {next : Value → Run Error Result}
    (first : Judged good enough excuse run)
    (step : ∀ value, good value → Judged better enough excuse (next value)) :
    Judged better enough excuse (run >>= next) where
  sound result outcome := by
    obtain ⟨value, ran, outcome⟩ := bind_eq_ok.mp outcome
    rcases first.sound value ran with isGood | excused
    · exact (step value isGood).sound result outcome
    · exact Or.inr excused
  ended fits outcome := by
    rcases bind_eq_exhausted.mp outcome with out | ⟨value, ran, outcome⟩
    · exact first.ended fits out
    · rcases first.sound value ran with isGood | excused
      · exact (step value isGood).ended fits outcome
      · exact excused

/-- A weaker judgement of what the run returns. -/
theorem imp {weaker : Value → Prop} {run : Run Error Value}
    (judged : Judged good enough excuse run) (isWeaker : ∀ value, good value → weaker value) :
    Judged weaker enough excuse run where
  sound value outcome := (judged.sound value outcome).imp_left (isWeaker value)
  ended := judged.ended

/-- The same judgement with more fuel and more excuses. -/
theorem within {more excuseToo : Prop} {run : Run Error Value}
    (judged : Judged good enough excuse run) (isMore : more → enough)
    (excused : excuse → excuseToo) : Judged good more excuseToo run where
  sound value outcome := (judged.sound value outcome).imp_right excused
  ended fits outcome := excused (judged.ended (isMore fits) outcome)

end Judged

end Library.Fuel
