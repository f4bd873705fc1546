/-
This file is about what the contents of strings can do to the structure of a
printed object.

Strings and keys are printed as they are, between quotes. Where every one of them
is well escaped, the parser reads each up to its own closing quote, and what is
parsed back has the shape of what was printed. So it does where the object is a
single string, since the parser ignores what stands behind it. A quote in a string
is enough to turn one element of a list into two.
-/

import Luce.Json.RoundTrip

namespace Luce.TinyJson

open Library Library.Fuel

variable {Double : Type}

/-! ### Shapes -/

mutual

/-- The same object, up to the contents of strings that are no keys. -/
inductive SameShape : JObject Double → JObject Double → Prop where
  | null : SameShape .null .null
  | bool (value : Bool) : SameShape (.bool value) (.bool value)
  | int (value : Int32) : SameShape (.int value) (.int value)
  | double (value : Double) : SameShape (.double value) (.double value)
  | str (value other : Bytes) : SameShape (.str value) (.str other)
  | list {items others : List (JObject Double)} (all : AllSameShape items others) :
    SameShape (.list items) (.list others)
  | dict {members others : List (Bytes × JObject Double)} (all : MembersSameShape members others) :
    SameShape (.dict members) (.dict others)

inductive AllSameShape : List (JObject Double) → List (JObject Double) → Prop where
  | nil : AllSameShape [] []
  | cons {item other : JObject Double} {items others : List (JObject Double)}
    (head : SameShape item other) (tail : AllSameShape items others) :
    AllSameShape (item :: items) (other :: others)

inductive MembersSameShape :
    List (Bytes × JObject Double) → List (Bytes × JObject Double) → Prop where
  | nil : MembersSameShape [] []
  | cons {key : Bytes} {value other : JObject Double}
    {members others : List (Bytes × JObject Double)} (head : SameShape value other)
    (tail : MembersSameShape members others) :
    MembersSameShape ((key, value) :: members) ((key, other) :: others)

end

mutual

theorem SameShape.refl : ∀ value : JObject Double, SameShape value value
  | .null => .null
  | .bool value => .bool value
  | .int value => .int value
  | .double value => .double value
  | .str value => .str value value
  | .list items => .list (AllSameShape.refl items)
  | .dict members => .dict (MembersSameShape.refl members)

theorem AllSameShape.refl : ∀ items : List (JObject Double), AllSameShape items items
  | [] => .nil
  | item :: items => .cons (SameShape.refl item) (AllSameShape.refl items)

theorem MembersSameShape.refl :
    ∀ members : List (Bytes × JObject Double), MembersSameShape members members
  | [] => .nil
  | (_, value) :: members => .cons (SameShape.refl value) (MembersSameShape.refl members)

end

theorem AllSameShape.length_eq {items others : List (JObject Double)} :
    AllSameShape items others → items.length = others.length
  | .nil => rfl
  | .cons _ tail => congrArg (· + 1) tail.length_eq

/-! ### Objects by what they hold -/

namespace JObject

mutual

/-- No double and no negative integer. -/
def Plain : JObject Double → Prop
  | .null | .bool _ | .str _ => True
  | .int value => 0 ≤ value.toInt
  | .double _ => False
  | .list items => AllPlain items
  | .dict members => MembersPlain members

def AllPlain : List (JObject Double) → Prop
  | [] => True
  | item :: items => item.Plain ∧ AllPlain items

def MembersPlain : List (Bytes × JObject Double) → Prop
  | [] => True
  | (_, value) :: members => value.Plain ∧ MembersPlain members

end

mutual

/-- Every string and every key is well escaped. -/
def Escaped : JObject Double → Prop
  | .null | .bool _ | .int _ | .double _ => True
  | .str value => WellEscaped value
  | .list items => AllEscaped items
  | .dict members => MembersEscaped members

def AllEscaped : List (JObject Double) → Prop
  | [] => True
  | item :: items => item.Escaped ∧ AllEscaped items

def MembersEscaped : List (Bytes × JObject Double) → Prop
  | [] => True
  | (key, value) :: members => WellEscaped key ∧ value.Escaped ∧ MembersEscaped members

end

/-- A single string, or an object with nothing but well-escaped strings and keys. -/
def Confined : JObject Double → Prop
  | .str _ => True
  | value => value.Escaped

mutual

theorem roundTrips_of_plain : ∀ value : JObject Double, value.Plain → value.Escaped →
    value.RoundTrips
  | .null, _, _ | .bool _, _, _ => trivial
  | .int _, plain, _ => plain
  | .double _, plain, _ => plain.elim
  | .str _, _, escaped => escaped
  | .list items, plain, escaped => allRoundTrip_of_plain items plain escaped
  | .dict members, plain, escaped => membersRoundTrip_of_plain members plain escaped

theorem allRoundTrip_of_plain : ∀ items : List (JObject Double), AllPlain items →
    AllEscaped items → AllRoundTrip items
  | [], _, _ => trivial
  | item :: items, plain, escaped =>
    ⟨roundTrips_of_plain item plain.1 escaped.1, allRoundTrip_of_plain items plain.2 escaped.2⟩

theorem membersRoundTrip_of_plain : ∀ members : List (Bytes × JObject Double),
    MembersPlain members → MembersEscaped members → MembersRoundTrip members
  | [], _, _ => trivial
  | (_, value) :: members, plain, escaped =>
    ⟨escaped.1, roundTrips_of_plain value plain.1 escaped.2.1,
      membersRoundTrip_of_plain members plain.2 escaped.2.2⟩

end

end JObject

open JObject

/-! ### Printing and parsing -/

/-- However much fuel there is, parsing what a plain object with nothing but
well-escaped strings is printed as returns nothing else. -/
theorem fromString_escaped (ops : FloatOps Double) {fuel : Nat} {value result : JObject Double}
    (wellFormed : value.WellFormed) (plain : value.Plain) (escaped : value.Escaped)
    (returned : fromString ops fuel (value.toText ops) = .ok result) : result = value := by
  have parsed := (fromString_spaced ops value wellFormed
    (roundTrips_of_plain value plain escaped)).1
  have grows := fromString_monotone ops (value.toText ops)
  have enough := parsed (fuel + (value.toText ops).length + 1) (by omega)
  have more := grows.ok_of_le (show fuel ≤ fuel + (value.toText ops).length + 1 by omega) returned
  rw [enough] at more
  exact (Except.ok.inj more).symm

/-- Only strings are spelled with a quote at the beginning. -/
theorem Value.of_quote {convert : Bytes → Bytes → Double} {value : JObject Double}
    {text rest : Bytes} (spelled : Value convert value (byte '"' :: text) rest) :
    ∃ content, value = .str content := by
  have notDigit : ¬ isDigit (byte '"') := by decide
  generalize same : byte '"' :: text = whole at spelled
  cases spelled with
  | null => exact absurd (List.cons.inj same).1 (by decide)
  | @bool value =>
    cases value
    · exact absurd (List.cons.inj same).1 (by decide)
    · exact absurd (List.cons.inj same).1 (by decide)
  | int digits =>
    have head := digits.head rest
    rw [← same] at head
    exact absurd head notDigit
  | @double whole part _ digits =>
    have head := digits.head (byte '.' :: part ++ rest)
    rw [← List.append_assoc, ← same] at head
    exact absurd head notDigit
  | @str content => exact ⟨content, rfl⟩
  | emptyList | list => exact absurd (List.cons.inj same).1 (by decide)
  | emptyDict | dict => exact absurd (List.cons.inj same).1 (by decide)

/-- A text between quotes is parsed to a string, if it is parsed. -/
theorem fromString_quote (ops : FloatOps Double) {fuel : Nat} {text : Bytes}
    {result : JObject Double}
    (returned : fromString ops fuel (byte '"' :: text ++ [byte '"']) = .ok result) :
    ∃ content, result = .str content := by
  obtain ⟨first, rest, trivia, spelled⟩ := fromString_sound ops fuel _ result returned
  have untrimmed : trimRight (byte '"' :: text ++ [byte '"']) = byte '"' :: text ++ [byte '"'] :=
    EndsSolid.trimRight ⟨byte '"', by decide, byte '"' :: text, rfl⟩
  rw [untrimmed] at trivia
  obtain rfl := (Solid.of_head (text ++ [byte '"']) (by decide) (by decide)).stuck _ trivia
  exact spelled.of_quote

/-- Where the strings of a plain object are confined, whatever its text is parsed to has
its shape. -/
theorem fromString_keeps_shape (ops : FloatOps Double) (fuel : Nat) (value result : JObject Double)
    (wellFormed : value.WellFormed) (plain : value.Plain) (confined : value.Confined)
    (returned : fromString ops fuel (value.toText ops) = .ok result) :
    SameShape value result := by
  by_cases isString : ∃ content, value = .str content
  · obtain ⟨content, rfl⟩ := isString
    obtain ⟨other, rfl⟩ := fromString_quote ops returned
    exact .str content other
  · have escaped : value.Escaped := by
      cases value with
      | str content => exact absurd ⟨content, rfl⟩ isString
      | _ => exact confined
    rw [fromString_escaped ops wellFormed plain escaped returned]
    exact .refl value

/-- A list of a string that ends in an escaped backslash and a string with a quote. -/
theorem fromString_keeps_shape_sample :
    SameShape (.list [.str (ascii "\\\\"), .str (ascii "\\\"")] : JObject ℚ)
      (.list [.str (ascii "\\\\"), .str (ascii "\\\"")]) := by
  have escaped : (.list [.str (ascii "\\\\"), .str (ascii "\\\"")] : JObject ℚ).Escaped :=
    ⟨show WellEscaped _ by decide, show WellEscaped _ by decide, trivial⟩
  have plain : (.list [.str (ascii "\\\\"), .str (ascii "\\\"")] : JObject ℚ).Plain :=
    ⟨trivial, trivial, trivial⟩
  have parsed := fromString_spaced rationals (.list [.str (ascii "\\\\"), .str (ascii "\\\"")])
    ⟨trivial, trivial, trivial⟩ (roundTrips_of_plain _ plain escaped)
  exact fromString_keeps_shape rationals 20 _ _ ⟨trivial, trivial, trivial⟩ plain
    escaped (parsed.1 20 (by decide))

/-- A list of one string that is printed like a list of two, and so parsed to it. -/
theorem quote_splits_element :
    ∃ (value result : JObject ℚ) (fuel : Nat), value.WellFormed ∧ value.Plain ∧
      fromString rationals fuel (value.toText rationals) = .ok result ∧
        ¬ SameShape value result := by
  have parsed := fromString_spaced rationals (.list [.str (ascii "a"), .str (ascii "b")])
    ⟨trivial, trivial, trivial⟩
    ⟨show WellEscaped _ by decide, show WellEscaped _ by decide, trivial⟩
  refine ⟨.list [.str (ascii "a\",\"b")], _, 20, ⟨trivial, trivial⟩, ⟨trivial, trivial⟩,
    parsed.1 20 (by decide), ?_⟩
  rintro (_ | _ | _ | _ | _ | all | _)
  exact absurd all.length_eq (by decide)

end Luce.TinyJson
