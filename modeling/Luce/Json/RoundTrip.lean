/-
This file proves that printed objects are parsed back, however they are spaced.

An object is printed as a sequence of tokens. The texts considered are those that
arise from it when the members of every dictionary are written in any order and
any white space and complete comments are put before each token. The grammar
spells the object in every such text, and the parser accepts what the grammar
derives.
-/

import Luce.Json.Termination

namespace Luce.TinyJson

open Library Library.Fuel

variable {Double : Type}

/-! ### Tokens of an object -/

namespace JObject

mutual

/-- The tokens that an object is printed as. -/
def tokens (ops : FloatOps Double) : JObject Double → List Bytes
  | .null => [ascii "null"]
  | .bool value => [if value then ascii "true" else ascii "false"]
  | .int value => [decimal value.toInt]
  | .double value => [ops.print value]
  | .str value => [byte '"' :: value ++ [byte '"']]
  | .list items => [[byte '[']] ++ itemTokens ops items ++ [[byte ']']]
  | .dict members => [[byte '{']] ++ memberTokens ops true members ++ [[byte '}']]

def itemTokens (ops : FloatOps Double) : List (JObject Double) → List Bytes
  | [] => []
  | item :: items =>
    item.tokens ops ++ (if items.isEmpty then [] else [[byte ',']]) ++ itemTokens ops items

def memberTokens (ops : FloatOps Double) (first : Bool) :
    List (Bytes × JObject Double) → List Bytes
  | [] => []
  | (key, value) :: members =>
    (if first then [] else [[byte ',']]) ++ [byte '"' :: key ++ [byte '"'], [byte ':']] ++
      value.tokens ops ++ memberTokens ops false members

end

mutual

/-- Printing an object writes its tokens one after another. -/
theorem toText_eq (ops : FloatOps Double) : ∀ value : JObject Double,
    value.toText ops = (value.tokens ops).flatten
  | .null | .bool _ | .int _ | .double _ | .str _ => (List.append_nil _).symm
  | .list items => by
    simp only [toText, tokens, itemsToText_eq ops items, List.flatten_append,
      List.flatten_singleton]
    rfl
  | .dict members => by
    simp only [toText, tokens, membersToText_eq ops members, List.flatten_append,
      List.flatten_singleton]
    rfl

theorem itemsToText_eq (ops : FloatOps Double) : ∀ items : List (JObject Double),
    itemsToText ops items = (itemTokens ops items).flatten
  | [] => rfl
  | item :: items => by
    simp only [itemsToText, itemTokens, toText_eq ops item, itemsToText_eq ops items,
      List.flatten_append]
    cases items <;> rfl

theorem membersToText_eq (ops : FloatOps Double) {first : Bool} :
    ∀ members : List (Bytes × JObject Double),
      membersToText ops first members = (memberTokens ops first members).flatten
  | [] => rfl
  | (key, value) :: members => by
    simp only [membersToText, memberTokens, toText_eq ops value, membersToText_eq ops members,
      List.flatten_append]
    cases first <;> simp [ascii, List.append_assoc]

end

/-! ### The objects and texts of the round trip -/

mutual

/-- No double, no negative integer, and every string and key well escaped. -/
def RoundTrips : JObject Double → Prop
  | .null | .bool _ => True
  | .int value => 0 ≤ value.toInt
  | .double _ => False
  | .str value => WellEscaped value
  | .list items => AllRoundTrip items
  | .dict members => MembersRoundTrip members

def AllRoundTrip : List (JObject Double) → Prop
  | [] => True
  | item :: items => item.RoundTrips ∧ AllRoundTrip items

def MembersRoundTrip : List (Bytes × JObject Double) → Prop
  | [] => True
  | (key, value) :: members => WellEscaped key ∧ value.RoundTrips ∧ MembersRoundTrip members

end

end JObject

open JObject

mutual

/-- The second tree is the first with the members of every dictionary in any order. -/
inductive Reordered : JObject Double → JObject Double → Prop where
  | null : Reordered .null .null
  | bool (value : Bool) : Reordered (.bool value) (.bool value)
  | int (value : Int32) : Reordered (.int value) (.int value)
  | double (value : Double) : Reordered (.double value) (.double value)
  | str (value : Bytes) : Reordered (.str value) (.str value)
  | list {items others : List (JObject Double)} (all : AllReordered items others) :
    Reordered (.list items) (.list others)
  | dict {members shuffled others : List (Bytes × JObject Double)}
    (order : shuffled.Perm members) (all : MembersReordered shuffled others) :
    Reordered (.dict members) (.dict others)

inductive AllReordered : List (JObject Double) → List (JObject Double) → Prop where
  | nil : AllReordered [] []
  | cons {item other : JObject Double} {items others : List (JObject Double)}
    (head : Reordered item other) (tail : AllReordered items others) :
    AllReordered (item :: items) (other :: others)

inductive MembersReordered :
    List (Bytes × JObject Double) → List (Bytes × JObject Double) → Prop where
  | nil : MembersReordered [] []
  | cons {key : Bytes} {value other : JObject Double}
    {members others : List (Bytes × JObject Double)} (head : Reordered value other)
    (tail : MembersReordered members others) :
    MembersReordered ((key, value) :: members) ((key, other) :: others)

end

/-- The text consists of these tokens, with white space and complete comments before
any of them. -/
inductive Spaced : List Bytes → Bytes → Prop where
  | nil : Spaced [] []
  | cons {token : Bytes} {tokens : List Bytes} {text rest : Bytes}
    (gap : Trivia text (token ++ rest)) (more : Spaced tokens rest) :
    Spaced (token :: tokens) text

mutual

theorem Reordered.refl : ∀ value : JObject Double, Reordered value value
  | .null => .null
  | .bool value => .bool value
  | .int value => .int value
  | .double value => .double value
  | .str value => .str value
  | .list items => .list (AllReordered.refl items)
  | .dict members => .dict (List.Perm.refl members) (MembersReordered.refl members)

theorem AllReordered.refl : ∀ items : List (JObject Double), AllReordered items items
  | [] => .nil
  | item :: items => .cons (Reordered.refl item) (AllReordered.refl items)

theorem MembersReordered.refl :
    ∀ members : List (Bytes × JObject Double), MembersReordered members members
  | [] => .nil
  | (_, value) :: members => .cons (Reordered.refl value) (MembersReordered.refl members)

end

theorem Spaced.flatten : ∀ tokens : List Bytes, Spaced tokens tokens.flatten
  | [] => .nil
  | _ :: tokens => .cons (.nil _) (Spaced.flatten tokens)

theorem membersWellFormed_iff : ∀ members : List (Bytes × JObject Double),
    MembersWellFormed members ↔ ∀ member ∈ members, member.2.WellFormed
  | [] => by simp [MembersWellFormed]
  | (_, value) :: members => by
    simp [MembersWellFormed, membersWellFormed_iff members]

theorem membersRoundTrip_iff : ∀ members : List (Bytes × JObject Double),
    MembersRoundTrip members ↔
      ∀ member ∈ members, WellEscaped member.1 ∧ member.2.RoundTrips
  | [] => by simp [MembersRoundTrip]
  | (_, value) :: members => by
    simp [MembersRoundTrip, membersRoundTrip_iff members, and_assoc]

/-! ### Decimal numbers -/

theorem byte_toNat {char : Char} (digit : char.isDigit) : (byte char).toNat = char.toNat := by
  have bounds := Char.isDigit_iff_toNat.mp digit
  have : '9'.toNat = 57 := rfl
  simp only [byte, UInt8.toNat_ofNat']
  omega

theorem isDigit_byte {char : Char} (digit : char.isDigit) : isDigit (byte char) := by
  have bounds := Char.isDigit_iff_toNat.mp digit
  simp only [isDigit, Bool.and_eq_true, decide_eq_true_eq, UInt8.le_iff_toNat_le,
    byte_toNat digit]
  exact bounds

theorem digits_spec (number : Nat) : Digits (digits number) := by
  refine ⟨fun empty => Nat.toDigits_ne_nil (List.map_eq_nil_iff.mp empty), fun char member => ?_⟩
  obtain ⟨digit, isDigit, rfl⟩ := List.mem_map.mp member
  exact isDigit_byte (Nat.isDigit_of_mem_toDigits (by decide) (by decide) isDigit)

/-- Reading the digits of a number gives the number, up to saturation. -/
theorem strtol_digits (number : Nat) : strtol (digits number) = min number (2 ^ 63 - 1) := by
  have taken : (digits number).takeWhile isDigit = digits number :=
    List.takeWhile_eq_self_iff.mpr (digits_spec number).2
  have folds : ∀ (chars : List Char), (∀ char ∈ chars, char.isDigit) → ∀ start : Nat,
      (chars.map byte).foldl (fun value digit => 10 * value + (digit - byte '0').toNat) start =
        Nat.ofDigitChars 10 chars start := by
    intro chars
    induction chars with
    | nil => exact fun _ _ => rfl
    | cons char chars inductionHypothesis =>
      intro all start
      obtain ⟨digit, all⟩ := List.forall_mem_cons.mp all
      have zero : byte '0' ≤ byte char := by
        have := isDigit_byte digit
        simp only [isDigit, Bool.and_eq_true, decide_eq_true_eq] at this
        exact this.1
      rw [List.map_cons, List.foldl_cons, inductionHypothesis all, Nat.ofDigitChars_cons,
        UInt8.toNat_sub_of_le _ _ zero, byte_toNat digit]
      rfl
  simp only [strtol, taken]
  rw [digits,
    folds _ (fun char member => Nat.isDigit_of_mem_toDigits (by decide) (by decide) member),
    Nat.ofDigitChars_toDigits (by decide) (by decide)]

theorem decimal_spec {value : Int32} (nonnegative : 0 ≤ value.toInt) :
    Digits (decimal value.toInt) ∧ integer (decimal value.toInt) = value := by
  obtain ⟨number, same⟩ := Int.eq_ofNat_of_zero_le nonnegative
  have bound := value.toInt_lt
  rw [same] at bound ⊢
  refine ⟨digits_spec number, ?_⟩
  have small : min number (2 ^ 63 - 1) = number := by omega
  show integer (digits number) = value
  rw [integer, strtol_digits, small, ← Int32.ofInt_eq_ofNat, ← same, Int32.ofInt_toInt]

/-! ### The grammar spells the object -/

variable {ops : FloatOps Double} {convert : Bytes → Bytes → Double}

theorem Spaced.head {token : Bytes} {tokens : List Bytes} {text : Bytes}
    (spaced : Spaced (token :: tokens) text) :
    ∃ rest, Trivia text (token ++ rest) ∧ Spaced tokens rest := by
  cases spaced with
  | cons gap more => exact ⟨_, gap, more⟩

/-- A key and a colon are read off the tokens. -/
theorem Spaced.name {key : Bytes} {tokens : List Bytes} {text : Bytes} (escaped : WellEscaped key)
    (spaced : Spaced ((byte '"' :: key ++ [byte '"']) :: [byte ':'] :: tokens) text) :
    ∃ (first after gap : Bytes), Trivia text first ∧
      Value convert (.str key : JObject Double) first after ∧
      Trivia after (byte ':' :: gap) ∧ Spaced tokens gap := by
  obtain ⟨after, gap, spaced⟩ := spaced.head
  obtain ⟨rest, colon, spaced⟩ := spaced.head
  rw [List.cons_append, List.cons_append, List.append_assoc] at gap
  exact ⟨_, after, rest, gap, .str escaped, colon, spaced⟩

theorem memberTokens_false (ops : FloatOps Double) (member : Bytes × JObject Double)
    (members : List (Bytes × JObject Double)) :
    memberTokens ops false (member :: members) =
      [byte ','] :: memberTokens ops true (member :: members) :=
  rfl

/-- The text spells the object, and behind it come the tokens that are left. -/
def SpelledBefore (convert : Bytes → Bytes → Double) (value : JObject Double)
    (more : List Bytes) (text : Bytes) : Prop :=
  ∃ first rest, Trivia text first ∧ Value convert value first rest ∧ Spaced more rest

mutual

/-- Every spacing of the tokens of a reordered object spells the object. -/
theorem Reordered.spelled {value other : JObject Double} : Reordered value other →
    value.WellFormed → value.RoundTrips → ∀ {more : List Bytes} {text : Bytes},
      Spaced (other.tokens ops ++ more) text → SpelledBefore convert value more text
  | .null, _, _, _, _, spaced => by
    obtain ⟨rest, gap, spaced⟩ := spaced.head
    exact ⟨_, rest, gap, .null, spaced⟩
  | .bool value, _, _, _, _, spaced => by
    obtain ⟨rest, gap, spaced⟩ := spaced.head
    have spelled : Value convert (.bool value : JObject Double)
        (ascii (if value then "true" else "false") ++ rest) rest := .bool
    refine ⟨_, rest, gap, ?_, spaced⟩
    cases value
    · exact spelled
    · exact spelled
  | .int value, _, nonnegative, _, _, spaced => by
    obtain ⟨rest, gap, spaced⟩ := spaced.head
    obtain ⟨isDecimal, same⟩ := decimal_spec nonnegative
    have spelled : Value convert (.int (integer (decimal value.toInt)))
        (decimal value.toInt ++ rest) rest := .int isDecimal
    rw [same] at spelled
    exact ⟨_, rest, gap, spelled, spaced⟩
  | .str value, _, escaped, _, _, spaced => by
    obtain ⟨rest, gap, spaced⟩ := spaced.head
    rw [List.cons_append, List.cons_append, List.append_assoc] at gap
    exact ⟨_, rest, gap, .str escaped, spaced⟩
  | @Reordered.list _ items others all, wellFormed, roundTrips, more, text, spaced => by
    simp only [tokens, List.append_assoc, List.cons_append, List.nil_append] at spaced
    obtain ⟨inner, gap, spaced⟩ := spaced.head
    by_cases empty : items = []
    · subst empty
      cases all
      obtain ⟨rest, close, spaced⟩ := spaced.head
      exact ⟨_, rest, gap, .emptyList close, spaced⟩
    · obtain ⟨first, rest, blank, elements, spaced⟩ :=
        all.spelled empty wellFormed roundTrips spaced
      exact ⟨_, rest, gap, .list blank elements, spaced⟩
  | @Reordered.dict _ members shuffled others order all, wellFormed, roundTrips, more, text,
      spaced => by
    simp only [tokens, List.append_assoc, List.cons_append, List.nil_append] at spaced
    obtain ⟨inner, gap, spaced⟩ := spaced.head
    obtain ⟨sorted, wellFormed⟩ := wellFormed
    have built := SortedMap.build_eq sorted order
    have wellFormed : MembersWellFormed shuffled := (membersWellFormed_iff _).mpr
      fun member isMember => (membersWellFormed_iff _).mp wellFormed member (order.subset isMember)
    have roundTrips : MembersRoundTrip shuffled := (membersRoundTrip_iff _).mpr
      fun member isMember => (membersRoundTrip_iff _).mp roundTrips member (order.subset isMember)
    by_cases empty : shuffled = []
    · subst empty
      cases all
      obtain ⟨rest, close, spaced⟩ := spaced.head
      exact ⟨_, rest, gap, built ▸ .emptyDict close, spaced⟩
    · obtain ⟨first, rest, blank, pairs, spaced⟩ :=
        all.spelled empty wellFormed roundTrips spaced
      exact ⟨_, rest, gap, built ▸ .dict blank pairs, spaced⟩

theorem AllReordered.spelled {items others : List (JObject Double)} : AllReordered items others →
    items ≠ [] → AllWellFormed items → AllRoundTrip items →
      ∀ {more : List Bytes} {text : Bytes},
        Spaced (itemTokens ops others ++ [byte ']'] :: more) text →
          ∃ first rest, Trivia text first ∧ Elements convert items first rest ∧ Spaced more rest
  | .nil, notEmpty, _, _, _, _, _ => absurd rfl notEmpty
  | .cons head .nil, _, wellFormed, roundTrips, more, text, spaced => by
    simp only [itemTokens, List.isEmpty_nil, if_true, List.append_nil] at spaced
    obtain ⟨first, after, gap, value, spaced⟩ := head.spelled wellFormed.1 roundTrips.1 spaced
    obtain ⟨rest, close, spaced⟩ := spaced.head
    exact ⟨first, rest, gap, .last value close, spaced⟩
  | .cons head (.cons next tail), _, wellFormed, roundTrips, more, text, spaced => by
    rw [itemTokens, List.append_assoc, List.append_assoc] at spaced
    obtain ⟨first, after, gap, value, spaced⟩ := head.spelled wellFormed.1 roundTrips.1 spaced
    obtain ⟨rest, comma, spaced⟩ := spaced.head
    obtain ⟨second, rest, blank, elements, spaced⟩ := (AllReordered.cons next tail).spelled
      (List.cons_ne_nil _ _) wellFormed.2 roundTrips.2 spaced
    exact ⟨first, rest, gap, .more value comma blank elements, spaced⟩

theorem MembersReordered.spelled {members others : List (Bytes × JObject Double)} :
    MembersReordered members others → members ≠ [] → MembersWellFormed members →
      MembersRoundTrip members → ∀ {more : List Bytes} {text : Bytes},
        Spaced (memberTokens ops true others ++ [byte '}'] :: more) text →
          ∃ first rest, Trivia text first ∧ Members convert members first rest ∧ Spaced more rest
  | .nil, notEmpty, _, _, _, _, _ => absurd rfl notEmpty
  | .cons head .nil, _, wellFormed, roundTrips, more, text, spaced => by
    simp only [memberTokens, if_true, List.nil_append, List.append_nil, List.cons_append] at spaced
    obtain ⟨first, after, next, gap, name, colon, spaced⟩ := spaced.name roundTrips.1
    obtain ⟨second, behind, blank, value, spaced⟩ :=
      head.spelled wellFormed.1 roundTrips.2.1 spaced
    obtain ⟨rest, close, spaced⟩ := spaced.head
    exact ⟨first, rest, gap, .last name colon blank value close, spaced⟩
  | .cons head (.cons next tail), _, wellFormed, roundTrips, more, text, spaced => by
    rw [memberTokens, memberTokens_false, if_pos rfl, List.nil_append, List.append_assoc,
      List.append_assoc] at spaced
    obtain ⟨first, after, _, gap, name, colon, spaced⟩ := spaced.name roundTrips.1
    obtain ⟨second, behind, blank, value, spaced⟩ :=
      head.spelled wellFormed.1 roundTrips.2.1 spaced
    obtain ⟨rest, comma, spaced⟩ := spaced.head
    obtain ⟨third, rest, blankToo, pairs, spaced⟩ := (MembersReordered.cons next tail).spelled
      (List.cons_ne_nil _ _) wellFormed.2 roundTrips.2.2 spaced
    exact ⟨first, rest, gap, .more name colon blank value comma blankToo pairs, spaced⟩

end

/-! ### Round trip -/

/-- The text ends with a character that is no blank and this rest. -/
def EndsSolid (text rest : Bytes) : Prop := ∃ char, ¬ isSpace char ∧ char :: rest <:+ text

theorem EndsSolid.suffix {text rest : Bytes} (ends : EndsSolid text rest) : rest <:+ text := by
  obtain ⟨char, _, suffix⟩ := ends
  exact (List.suffix_cons _ _).trans suffix

theorem Digits.ends {whole : Bytes} (digits : Digits whole) (before rest : Bytes) :
    EndsSolid (before ++ (whole ++ rest)) rest := by
  rcases List.eq_nil_or_concat' whole with empty | ⟨front, char, rfl⟩
  · exact absurd empty digits.1
  · have digit := digits.2 char (List.mem_append_right _ List.mem_cons_self)
    refine ⟨char, (opens_spec (Or.inr digit)).1, before ++ front, ?_⟩
    simp only [List.append_assoc, List.cons_append, List.nil_append]

mutual

/-- A spelling ends with a character that is no blank. -/
theorem Value.ends {value : JObject Double} {text rest : Bytes} :
    Value convert value text rest → EndsSolid text rest
  | .null => ⟨byte 'l', by decide, ascii "nul", rfl⟩
  | @Value.bool _ _ true _ => ⟨byte 'e', by decide, ascii "tru", rfl⟩
  | @Value.bool _ _ false _ => ⟨byte 'e', by decide, ascii "fals", rfl⟩
  | .int digits => digits.ends [] rest
  | @Value.double _ _ whole part _ _ fraction => by
    have ends := fraction.ends (whole ++ [byte '.']) rest
    rwa [List.append_assoc, List.singleton_append, ← List.cons_append, ← List.append_assoc] at ends
  | @Value.str _ _ content _ _ => ⟨byte '"', by decide, byte '"' :: content, rfl⟩
  | .emptyList close => ⟨byte ']', by decide, close.suffix.trans (List.suffix_cons _ _)⟩
  | .list gap elements =>
    ⟨byte ']', by decide, elements.ends.trans (gap.suffix.trans (List.suffix_cons _ _))⟩
  | .emptyDict close => ⟨byte '}', by decide, close.suffix.trans (List.suffix_cons _ _)⟩
  | .dict gap pairs =>
    ⟨byte '}', by decide, pairs.ends.trans (gap.suffix.trans (List.suffix_cons _ _))⟩

theorem Elements.ends {items : List (JObject Double)} {text rest : Bytes} :
    Elements convert items text rest → byte ']' :: rest <:+ text
  | .last value close => close.suffix.trans value.ends.suffix
  | .more value comma blank others =>
    others.ends.trans (blank.suffix.trans ((List.suffix_cons _ _).trans
      (comma.suffix.trans value.ends.suffix)))

theorem Members.ends {members : List (Bytes × JObject Double)} {text rest : Bytes} :
    Members convert members text rest → byte '}' :: rest <:+ text
  | .last name colon blank value close =>
    close.suffix.trans (value.ends.suffix.trans (blank.suffix.trans
      ((List.suffix_cons _ _).trans (colon.suffix.trans name.ends.suffix))))
  | .more name colon blank value comma blankToo others =>
    others.ends.trans (blankToo.suffix.trans ((List.suffix_cons _ _).trans
      (comma.suffix.trans (value.ends.suffix.trans (blank.suffix.trans
        ((List.suffix_cons _ _).trans (colon.suffix.trans name.ends.suffix)))))))

end

/-- A text that ends with no blank is not trimmed. -/
theorem EndsSolid.trimRight {text : Bytes} (ends : EndsSolid text []) : trimRight text = text := by
  obtain ⟨char, notSpace, front, rfl⟩ := ends
  exact List.rdropWhile_concat_neg _ _ _ notSpace

/-- Every spacing of what is printed is parsed back, with the members of its dictionaries in any
order. -/
theorem fromString_reordered (ops : FloatOps Double) {value other : JObject Double} {text : Bytes}
    (wellFormed : value.WellFormed) (roundTrips : value.RoundTrips)
    (reordered : Reordered value other) (spaced : Spaced (other.tokens ops) text) {fuel : Nat}
    (fits : text.length < fuel) : fromString ops fuel text = .ok value := by
  rw [← List.append_nil (other.tokens ops)] at spaced
  have before : SpelledBefore (converted ops) value [] text :=
    reordered.spelled wellFormed roundTrips spaced
  obtain ⟨first, rest, gap, spelled, nothing⟩ := before
  cases nothing
  obtain ⟨char, notSpace, ends⟩ := spelled.ends
  have untrimmed : trimRight text = text :=
    EndsSolid.trimRight ⟨char, notSpace, ends.trans gap.suffix⟩
  obtain ⟨final, out, _⟩ :=
    spelled.accepted fuel (At.start text) gap (Delimited.ends ⟨by decide, by decide⟩ value) fits
  simp only [fromString, untrimmed, out, ok_bind]
  rfl

/-- What a well-formed object is printed as is parsed back, if everything in it can be. -/
theorem fromString_toText (ops : FloatOps Double) {value : JObject Double}
    (wellFormed : value.WellFormed) (roundTrips : value.RoundTrips) {fuel : Nat}
    (fits : (value.toText ops).length < fuel) :
    fromString ops fuel (value.toText ops) = .ok value := by
  have spaced : Spaced (value.tokens ops) (value.toText ops) := by
    rw [toText_eq]
    exact .flatten _
  exact fromString_reordered ops wellFormed roundTrips (.refl value) spaced fits

/-- What is printed is parsed back, and so is every spacing of it with the members of
its dictionaries in any order. -/
theorem fromString_spaced (ops : FloatOps Double) (value : JObject Double)
    (wellFormed : value.WellFormed) (roundTrips : value.RoundTrips) :
    (∀ fuel, (value.toText ops).length < fuel →
      fromString ops fuel (value.toText ops) = .ok value) ∧
    ∀ other text, Reordered value other → Spaced (other.tokens ops) text →
      ∀ fuel, text.length < fuel → fromString ops fuel text = .ok value :=
  ⟨fun _ fits => fromString_toText ops wellFormed roundTrips fits,
    fun _ _ reordered spaced _ fits =>
      fromString_reordered ops wellFormed roundTrips reordered spaced fits⟩

/-- A dictionary of a number and a list with a string, whose members are in order. -/
def sample : JObject ℚ :=
  .dict [(ascii "age", .int 21), (ascii "tags", .list [.str (ascii "a\\\"b"), .null])]

/-- The sample with its members the other way round. -/
def shuffledSample : JObject ℚ :=
  .dict [(ascii "tags", .list [.str (ascii "a\\\"b"), .null]), (ascii "age", .int 21)]

theorem fromString_spaced_sample :
    fromString rationals 60 (sample.toText rationals) = .ok sample ∧
      fromString rationals 60 (byte ' ' :: shuffledSample.toText rationals) = .ok sample := by
  have wellFormed : sample.WellFormed :=
    ⟨List.pairwise_pair.mpr (by decide), trivial, ⟨trivial, trivial, trivial⟩, trivial⟩
  have roundTrips : sample.RoundTrips :=
    ⟨by decide, show 0 ≤ (21 : Int32).toInt by decide, by decide,
      ⟨show WellEscaped (ascii "a\\\"b") by decide, trivial, trivial⟩, trivial⟩
  have reordered : Reordered sample shuffledSample :=
    .dict (List.Perm.swap _ _ []) (MembersReordered.refl _)
  obtain ⟨printed, spaced⟩ := fromString_spaced rationals sample wellFormed roundTrips
  refine ⟨printed 60 (by decide), spaced _ _ reordered ?_ 60 (by decide)⟩
  rw [toText_eq]
  exact .cons (.space rfl (.nil _)) (.flatten _)

end Luce.TinyJson
