/-
This file is about what the parser makes of integer literals.

The digits go through `strtol`, which saturates, and a narrowing cast. So a literal
without a sign is read as its value where that is an int32, and as some other
integer where it is not. A sign is dispatched to the number parser, which throws
at it, whatever the value is.
-/

import Luce.Json.RoundTrip

namespace Luce.TinyJson

open Library Library.Fuel

variable {Double : Type} {ops : FloatOps Double} {str : Bytes}

/-! ### Literals -/

instance (text : Bytes) : Decidable (Digits text) :=
  have : Decidable (∀ char ∈ text, isDigit char) := List.decidableBAll _ text
  inferInstanceAs (Decidable (_ ∧ _))

/-- The number that a run of digits denotes. -/
def magnitude (digits : Bytes) : Nat :=
  digits.foldl (fun value digit => 10 * value + (digit - byte '0').toNat) 0

theorem strtol_eq {digits : Bytes} (isDigits : Digits digits) :
    strtol digits = min (magnitude digits) (2 ^ 63 - 1) := by
  rw [strtol, List.takeWhile_eq_self_iff.mpr isDigits.2]
  rfl

/-- An optional sign, and a run of digits. -/
structure Literal where
  negative : Bool
  digits : Bytes
  isDigits : Digits digits

namespace Literal

def text (literal : Literal) : Bytes :=
  if literal.negative then byte '-' :: literal.digits else literal.digits

def value (literal : Literal) : Int :=
  if literal.negative then -(magnitude literal.digits : Int) else magnitude literal.digits

/-- The value is an int32. -/
def Fits (literal : Literal) : Prop :=
  Int32.minValue.toInt ≤ literal.value ∧ literal.value ≤ Int32.maxValue.toInt

/-- A value without a sign that is an int32, or one with a sign that is none. -/
def Served (literal : Literal) : Prop :=
  if literal.negative then 2 ^ 31 < magnitude literal.digits else magnitude literal.digits < 2 ^ 31

instance (literal : Literal) : Decidable literal.Served :=
  inferInstanceAs (Decidable (if literal.negative then 2 ^ 31 < magnitude literal.digits
    else magnitude literal.digits < 2 ^ 31))

/-- The literal is due at this index: trivia may precede it, and neither a digit nor a
dot follows. -/
def DueAt (literal : Literal) (str : Bytes) (idx : Nat) : Prop :=
  ∃ text rest, At str idx text ∧ Trivia text (literal.text ++ rest) ∧ Delimited rest

theorem fits_iff (literal : Literal) :
    literal.Fits ↔ if literal.negative then magnitude literal.digits ≤ 2 ^ 31
      else magnitude literal.digits < 2 ^ 31 := by
  have least : Int32.minValue.toInt = -2147483648 := rfl
  have most : Int32.maxValue.toInt = 2147483647 := rfl
  unfold Fits value
  split <;> omega

theorem served_iff (literal : Literal) :
    literal.Served ↔ if literal.negative then ¬ literal.Fits else literal.Fits := by
  rw [Served, fits_iff]
  split <;> omega

/-- A literal begins with a character that is neither blank nor a slash. -/
theorem solid (literal : Literal) (rest : Bytes) : Solid (literal.text ++ rest) := by
  unfold text
  split
  · exact .of_head _ (by decide) (by decide)
  · obtain ⟨char, more, same, begins⟩ := literal.isDigits.cons
    rw [same]
    exact .of_head _ (opens_spec begins).1 (opens_spec begins).2.1

theorem notEmpty (literal : Literal) (rest : Bytes) : literal.text ++ rest ≠ [] := by
  refine fun empty => ?_
  have := (List.append_eq_nil_iff.mp empty).1
  unfold text at this
  split at this
  · cases this
  · exact literal.isDigits.1 this

/-- A literal that is a whole text is not trimmed. -/
theorem trimRight_text (literal : Literal) : trimRight literal.text = literal.text := by
  refine EndsSolid.trimRight ?_
  unfold text
  split
  · simpa using literal.isDigits.ends [byte '-'] []
  · simpa using literal.isDigits.ends [] []

end Literal

/-! ### What the parser returns -/

/-- The value that `Parse` returns at an index. -/
def valueAt (ops : FloatOps Double) (str : Bytes) (idx fuel : Nat) : Run (JObject Double) := do
  let (value, _) ← parse ops str fuel idx
  pure value

/-- The literal is read as its value where that is an int32, and rejected where it is not. -/
structure Faithful (literal : Literal) (run : Nat → Run (JObject Double)) : Prop where
  fitting : literal.Fits → ∃ number, number.toInt = literal.value ∧ ComesTo run (.ok (.int number))
  others : ¬ literal.Fits → ∃ error, ComesTo run (raise error)

/-- What becomes of a literal: its digits go through `strtol` and the cast, and a sign
raises an error. -/
def Literal.outcome (literal : Literal) : Run (JObject Double) :=
  if literal.negative then raise (.logicError "invalid character in number")
  else .ok (.int (Int32.ofNat (min (magnitude literal.digits) (2 ^ 63 - 1))))

theorem parseNumber_sign {idx : Nat} {rest : Bytes} (position : At str idx (byte '-' :: rest)) :
    parseNumber ops str idx = raise (.logicError "invalid character in number") := by
  rw [parseNumber_eq position]
  rfl

/-- Wherever a literal is due, `Parse` comes to its outcome. -/
theorem Literal.comesTo {literal : Literal} {idx : Nat} (due : literal.DueAt str idx) :
    ComesTo (valueAt ops str idx) literal.outcome := by
  obtain ⟨text, rest, position, trivia, delimited⟩ := due
  refine ⟨text.length + 1, fun fuel enough => ?_⟩
  obtain ⟨fuel, rfl⟩ : ∃ less, fuel = less + 1 := ⟨fuel - 1, by omega⟩
  obtain ⟨start, landed, step⟩ := parse_step ops position trivia (literal.solid rest)
    (literal.notEmpty rest) (show text.length ≤ fuel by omega)
  rw [valueAt, step, outcome]
  unfold Literal.text at landed ⊢
  split
  · rename_i negative
    rw [if_pos negative] at landed
    have out : parseToken ops str (parse ops str fuel) fuel (byte '-') start =
        parseNumber ops str start := rfl
    rw [List.cons_append, List.headD_cons, out, parseNumber_sign landed, raise_bind]
  · rename_i positive
    rw [if_neg positive] at landed
    rw [parseToken_number _ _ _ (literal.isDigits.head rest),
      parseNumber_int literal.isDigits delimited landed, ok_bind, integer,
      strtol_eq literal.isDigits]
    rfl

/-- A literal whose outcome the run comes to is read faithfully when it is served. -/
theorem Literal.faithful_iff {literal : Literal} {run : Nat → Run (JObject Double)}
    (comes : ComesTo run literal.outcome) : Faithful literal run ↔ literal.Served := by
  rw [literal.served_iff]
  unfold outcome at comes
  by_cases negative : literal.negative
  · rw [if_pos negative] at comes ⊢
    constructor
    · intro faithful fits
      obtain ⟨_, _, returns⟩ := faithful.fitting fits
      cases returns.unique comes
    · exact fun large => ⟨fun fits => absurd fits large, fun _ => ⟨_, comes⟩⟩
  · rw [if_neg negative] at comes ⊢
    constructor
    · intro faithful
      by_contra large
      obtain ⟨_, raises⟩ := faithful.others large
      cases raises.unique comes
    · intro fits
      refine ⟨fun _ => ⟨_, ?_, comes⟩, fun large => absurd fits large⟩
      have bound := (fits_iff literal).mp fits
      rw [if_neg negative] at bound
      rw [Nat.min_eq_left (by omega), Int32.toInt_ofNat_of_lt bound, value, if_neg negative]

/-- An element is a literal that is followed by a separator, behind trivia perhaps. -/
theorem Literal.dueAt_element {literal : Literal} {idx : Nat} {text rest more : Bytes} {char : Byte}
    (position : At str idx text) (trivia : Trivia text (literal.text ++ rest))
    (closes : Trivia rest (char :: more)) (separator : char ∈ separators) : literal.DueAt str idx :=
  ⟨text, rest, position, trivia, closes.delimited separator⟩

/-- A literal that is a whole text comes to its outcome. -/
theorem Literal.fromString_comesTo (ops : FloatOps Double) (literal : Literal) :
    ComesTo (fun fuel => fromString ops fuel literal.text) literal.outcome := by
  have due : literal.DueAt literal.text 0 :=
    ⟨literal.text, [], .start _, by rw [List.append_nil]; exact .nil _, by decide, by decide⟩
  have comes : ComesTo (valueAt ops literal.text 0) literal.outcome := comesTo due
  obtain ⟨enough, comes⟩ := comes
  refine ⟨enough, fun fuel fits => ?_⟩
  simp only [fromString, literal.trimRight_text]
  exact comes fuel fits

/-- What an int32 is printed as is parsed back if it is not negative, and is rejected if it is. -/
theorem fromString_int_iff (ops : FloatOps Double) (number : Int32) :
    ComesTo (fun fuel => fromString ops fuel ((JObject.int number).toText ops))
      (.ok (.int number)) ↔ 0 ≤ number.toInt := by
  constructor
  · intro returns
    by_contra negative
    obtain ⟨size, same⟩ := Int.eq_negSucc_of_lt_zero (Int.not_le.mp negative)
    let literal : Literal := ⟨true, JObject.digits (size + 1), digits_spec _⟩
    have text : (JObject.int number).toText ops = literal.text := by
      rw [JObject.toText, same]
      rfl
    rw [text] at returns
    cases returns.unique (literal.fromString_comesTo ops)
  · intro nonnegative
    have parsed := (fromString_spaced ops (.int number) trivial nonnegative).1
    exact ⟨_, fun fuel enough => parsed fuel enough⟩

/-- An integer literal, wherever it is due and as a whole text, is read faithfully or
rejected exactly when it is served; and of the printed integers, those that are not
negative are parsed back. -/
theorem integers_faithful_iff (ops : FloatOps Double) :
    (∀ (literal : Literal) (str : Bytes) (idx : Nat), literal.DueAt str idx →
      (Faithful literal (valueAt ops str idx) ↔ literal.Served)) ∧
    (∀ literal : Literal,
      Faithful literal (fun fuel => fromString ops fuel literal.text) ↔ literal.Served) ∧
    ∀ number : Int32,
      ComesTo (fun fuel => fromString ops fuel ((JObject.int number).toText ops))
        (.ok (.int number)) ↔ 0 ≤ number.toInt :=
  ⟨fun _ _ _ due => Literal.faithful_iff (Literal.comesTo due),
    fun literal => Literal.faithful_iff (literal.fromString_comesTo ops), fromString_int_iff ops⟩

/-- The second element of a list. -/
theorem integers_faithful_sample :
    Faithful ⟨false, ascii "42", by decide⟩ (valueAt rationals (ascii "[1, 42]") 3) := by
  let literal : Literal := ⟨false, ascii "42", by decide⟩
  have position : At (ascii "[1, 42]") 3 (ascii " 42]") := ⟨by decide, rfl⟩
  have trivia : Trivia (ascii " 42]") (literal.text ++ ascii "]") := .space rfl (.nil _)
  have closes : Trivia (ascii "]") (byte ']' :: []) := .nil _
  have due : literal.DueAt (ascii "[1, 42]") 3 :=
    Literal.dueAt_element position trivia closes (by decide)
  exact ((integers_faithful_iff rationals).1 literal _ 3 due).mpr (by decide)

/-- A literal behind 2^32 is read as one, and minus one is rejected. -/
theorem integers_unfaithful :
    ¬ Faithful ⟨false, ascii "4294967297", by decide⟩
        (fun fuel => fromString rationals fuel (ascii "4294967297")) ∧
      ¬ Faithful ⟨true, ascii "1", by decide⟩
        (fun fuel => fromString rationals fuel (ascii "-1")) := by
  let large : Literal := ⟨false, ascii "4294967297", by decide⟩
  let minus : Literal := ⟨true, ascii "1", by decide⟩
  constructor
  · intro faithful
    exact absurd ((Literal.faithful_iff (large.fromString_comesTo rationals)).mp faithful)
      (by decide)
  · intro faithful
    exact absurd ((Literal.faithful_iff (minus.fromString_comesTo rationals)).mp faithful)
      (by decide)

end Luce.TinyJson
