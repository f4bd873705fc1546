/-
This file is the theory of computations that record what they do.

A trace is what has been recorded so far, and what has come of the run: a value, an
error, or nothing when the fuel has run out. What has been recorded is kept in each
case. A trace mirrors a run that records nothing if both have the same outcome; the
rules prove this together with what holds of every event and of the value. On more
fuel, a trace goes on where it ended.
-/

import Luce.Library.Fuel

namespace Library.Tracing

open Fuel

/-- What a run has recorded, and its outcome. -/
structure Trace (Event Error Value : Type) where
  events : List Event
  outcome : Run Error Value

variable {Event Error Value Result : Type}

instance : Monad (Trace Event Error) where
  pure value := ⟨[], .ok value⟩
  bind trace next :=
    match trace.outcome with
    | .ok value => ⟨trace.events ++ (next value).events, (next value).outcome⟩
    | .error halt => ⟨trace.events, .error halt⟩

/-- Recording one event. -/
def record (event : Event) : Trace Event Error Unit := ⟨[event], .ok ()⟩

/-- A run that records nothing. -/
def silent (run : Run Error Value) : Trace Event Error Value := ⟨[], run⟩

theorem outcome_bind (trace : Trace Event Error Value) (next : Value → Trace Event Error Result) :
    (trace >>= next).outcome = trace.outcome >>= fun value => (next value).outcome := by
  obtain ⟨events, _ | value⟩ := trace <;> rfl

theorem mem_events_bind {event : Event} {trace : Trace Event Error Value}
    {next : Value → Trace Event Error Result} :
    event ∈ (trace >>= next).events ↔
      event ∈ trace.events ∨ ∃ value, trace.outcome = .ok value ∧ event ∈ (next value).events := by
  obtain ⟨events, halt | value⟩ := trace
  · refine ⟨.inl, fun member => member.resolve_right ?_⟩
    rintro ⟨_, impossible, _⟩
    cases impossible
  · refine List.mem_append.trans (or_congr_right ⟨fun member => ⟨value, rfl, member⟩, ?_⟩)
    rintro ⟨_, same, member⟩
    cases same
    exact member

/-! ### Mirroring -/

/-- The trace ends like the run, all that it records is allowed, and what it returns is
good. -/
structure Mirrors (allowed : Event → Prop) (good : Value → Prop) (trace : Trace Event Error Value)
    (run : Run Error Value) : Prop where
  events : ∀ event ∈ trace.events, allowed event
  outcome : trace.outcome = run
  value : ∀ value, run = .ok value → good value

namespace Mirrors

variable {allowed : Event → Prop} {good : Value → Prop} {better : Result → Prop}

theorem silent {run : Run Error Value} (isGood : ∀ value, run = .ok value → good value) :
    Mirrors allowed good (silent run) run where
  events _ member := absurd member List.not_mem_nil
  outcome := rfl
  value := isGood

theorem pure {value : Value} (isGood : good value) :
    Mirrors allowed good (Pure.pure value : Trace Event Error Value) (Pure.pure value) :=
  silent fun _ same => Except.ok.inj same ▸ isGood

theorem raise (error : Error) :
    Mirrors allowed good (Tracing.silent (Fuel.raise error)) (Fuel.raise error) :=
  silent fun _ impossible => by cases impossible

theorem exhausted :
    Mirrors allowed good (Tracing.silent Fuel.exhausted : Trace Event Error Value) Fuel.exhausted :=
  silent fun _ impossible => by cases impossible

/-- A trace mirrors a run part by part. -/
theorem bind {trace : Trace Event Error Value} {run : Run Error Value}
    {next : Value → Trace Event Error Result} {later : Value → Run Error Result}
    (first : Mirrors allowed good trace run)
    (step : ∀ value, good value → Mirrors allowed better (next value) (later value)) :
    Mirrors allowed better (trace >>= next) (run >>= later) where
  events event member := by
    obtain here | ⟨value, ran, later⟩ := mem_events_bind.mp member
    · exact first.events event here
    · exact (step value (first.value value (first.outcome.symm.trans ran))).events event later
  outcome := by
    rw [outcome_bind, first.outcome]
    cases ran : run with
    | error halt => rfl
    | ok value => exact (step value (first.value value ran)).outcome
  value result returned := by
    obtain ⟨value, ran, returned⟩ := bind_eq_ok.mp returned
    exact (step value (first.value value ran)).value result returned

/-- The run knows nothing of what is recorded. -/
theorem record {event : Event} (isAllowed : allowed event)
    {next : Unit → Trace Event Error Result} {run : Run Error Result}
    (mirrors : Mirrors allowed better (next ()) run) :
    Mirrors allowed better (Tracing.record event >>= next) run where
  events other member := by
    obtain here | ⟨_, _, later⟩ := mem_events_bind.mp member
    · exact List.mem_singleton.mp here ▸ isAllowed
    · exact mirrors.events other later
  outcome := mirrors.outcome
  value := mirrors.value

theorem ite {condition : Prop} [Decidable condition] {first second : Trace Event Error Value}
    {left right : Run Error Value} (holds : condition → Mirrors allowed good first left)
    (fails : ¬ condition → Mirrors allowed good second right) :
    Mirrors allowed good (if condition then first else second)
      (if condition then left else right) := by
  split
  · exact holds ‹_›
  · exact fails ‹_›

end Mirrors

/-! ### More fuel -/

/-- The second trace is the first, or goes on where the first has run out of fuel. -/
def Continues (first second : Trace Event Error Value) : Prop :=
  first = second ∨ first.outcome = exhausted ∧ first.events <+: second.events

namespace Continues

theorem refl (trace : Trace Event Error Value) : Continues trace trace := .inl rfl

theorem exhausted (trace : Trace Event Error Value) :
    Continues (silent Fuel.exhausted) trace :=
  .inr ⟨rfl, List.nil_prefix⟩

theorem events {first second : Trace Event Error Value} (continues : Continues first second) :
    first.events <+: second.events := by
  obtain rfl | ⟨-, starts⟩ := continues
  · exact List.prefix_rfl
  · exact starts

theorem bind {first second : Trace Event Error Value}
    {next later : Value → Trace Event Error Result} (start : Continues first second)
    (step : ∀ value, Continues (next value) (later value)) :
    Continues (first >>= next) (second >>= later) := by
  obtain rfl | ⟨out, starts⟩ := start
  · obtain ⟨events, halt | value⟩ := first
    · exact .inl rfl
    · obtain same | ⟨out, starts⟩ := step value
      · exact .inl (by simp only [Bind.bind, same])
      · exact .inr ⟨out, (List.prefix_append_right_inj events).mpr starts⟩
  · obtain ⟨events, outcome⟩ := first
    cases out
    refine .inr ⟨rfl, starts.trans ?_⟩
    obtain ⟨more, halt | value⟩ := second
    · exact List.prefix_rfl
    · exact List.prefix_append _ _

theorem ite {condition : Prop} [Decidable condition]
    {first second left right : Trace Event Error Value} (holds : Continues first second)
    (fails : Continues left right) :
    Continues (if condition then first else left) (if condition then second else right) := by
  split
  · exact holds
  · exact fails

end Continues

end Library.Tracing
