/-
This file proves that whatever the parser returns is spelled by the text.

Each function is judged on its own: what it returns is spelled from its index on,
and with fuel for the text it does not run out, unless it met an unterminated
comment where a value was due. A comment that is met in place of a separator is no
way out: the scanner starts over at the beginning of the string and returns its
first token, which is no separator when the string begins with a value.
-/

import Luce.Json.Scalars

namespace Luce.TinyJson

open Library Library.Fuel

variable {Double : Type} {ops : FloatOps Double} {str : Bytes}

/-! ### First characters -/

/-- The characters that separate or close the parts of a container. -/
def separators : Bytes := [byte ',', byte ']', byte ':', byte '}']

theorem forall_separators {holds : Byte → Prop} : (∀ char ∈ separators, holds char) ↔
    holds (byte ',') ∧ holds (byte ']') ∧ holds (byte ':') ∧ holds (byte '}') := by
  simp only [separators, List.forall_mem_cons, List.not_mem_nil, false_imp_iff, implies_true,
    and_true]

/-- The characters that a value begins with. -/
def opens (char : Byte) : Prop :=
  char ∈ [byte 'n', byte 't', byte 'f', byte '"', byte '[', byte '{'] ∨ isDigit char

theorem isDigit_bounds {char : Byte} (digit : isDigit char) : 48 ≤ char.toNat := by
  have bound : byte '0' ≤ char := by
    simp only [isDigit, Bool.and_eq_true, decide_eq_true_eq] at digit
    exact digit.1
  exact UInt8.le_iff_toNat_le.mp bound

/-- A value begins with neither a blank nor a comment nor a separator. -/
theorem opens_spec {char : Byte} (begins : opens char) :
    ¬ isSpace char ∧ char ≠ byte '/' ∧ char ∉ separators := by
  rcases begins with member | digit
  · simp only [List.mem_cons, List.not_mem_nil, or_false] at member
    rcases member with rfl | rfl | rfl | rfl | rfl | rfl <;> decide
  · have bound := isDigit_bounds digit
    refine ⟨fun blank => ?_, fun same => ?_, fun member => ?_⟩
    · simp only [isSpace, Bool.or_eq_true, Bool.and_eq_true, decide_eq_true_eq] at blank
      rcases blank with same | ⟨_, control⟩
      · exact absurd (same ▸ bound) (by decide)
      · have : char.toNat ≤ 13 := UInt8.le_iff_toNat_le.mp control
        omega
    · exact absurd (same ▸ bound) (by decide)
    · have notDigit : ∀ other ∈ separators, ¬ isDigit other := forall_separators.mpr (by decide)
      exact notDigit char member digit

theorem Digits.cons {whole : Bytes} (digits : Digits whole) :
    ∃ char more, whole = char :: more ∧ opens char := by
  obtain ⟨notEmpty, all⟩ := digits
  cases whole with
  | nil => exact absurd rfl notEmpty
  | cons char more => exact ⟨char, more, rfl, Or.inr (all char List.mem_cons_self)⟩

theorem Value.head {convert : Bytes → Bytes → Double} {value : JObject Double}
    {text rest : Bytes} (spelled : Value convert value text rest) :
    ∃ char more, text = char :: more ∧ opens char := by
  cases spelled with
  | null => exact ⟨_, _, rfl, Or.inl (by decide)⟩
  | @bool value =>
    cases value
    · exact ⟨_, _, rfl, Or.inl (by decide)⟩
    · exact ⟨_, _, rfl, Or.inl (by decide)⟩
  | int digits | double digits =>
    obtain ⟨char, more, rfl, begins⟩ := digits.cons
    exact ⟨char, _, rfl, begins⟩
  | str => exact ⟨_, _, rfl, Or.inl (by decide)⟩
  | emptyList | list => exact ⟨_, _, rfl, Or.inl (by decide)⟩
  | emptyDict | dict => exact ⟨_, _, rfl, Or.inl (by decide)⟩

theorem Value.solid {convert : Bytes → Bytes → Double} {value : JObject Double}
    {text rest : Bytes} (spelled : Value convert value text rest) : Solid text := by
  obtain ⟨char, more, rfl, begins⟩ := spelled.head
  exact .of_head more (opens_spec begins).1 (opens_spec begins).2.1

/-! ### Lengths -/

theorem Trivia.length_lt {text rest : Bytes} {char : Byte} (trivia : Trivia text (char :: rest)) :
    rest.length < text.length :=
  trivia.length_le

theorem length_lt_append {read rest : Bytes} (notEmpty : read ≠ []) :
    rest.length < (read ++ rest).length := by
  have := List.length_pos_iff.mpr notEmpty
  rw [List.length_append]
  omega

mutual

/-- Spelling a value takes up some of the text. -/
theorem Value.length_lt {convert : Bytes → Bytes → Double} {value : JObject Double}
    {text rest : Bytes} : Value convert value text rest → rest.length < text.length
  | .null => length_lt_append (by decide)
  | @Value.bool _ _ value _ => length_lt_append (by cases value <;> decide)
  | .int digits => length_lt_append digits.1
  | .double digits _ => length_lt_append fun empty => digits.1 (List.append_eq_nil_iff.mp empty).1
  | .str _ => by
    rw [List.length_cons, List.length_append, List.length_cons]
    omega
  | .emptyList close => close.length_lt.trans (Nat.lt_succ_self _)
  | .list gap elements =>
    elements.length_lt.trans_le (gap.length_le.trans (Nat.le_succ _))
  | .emptyDict close => close.length_lt.trans (Nat.lt_succ_self _)
  | .dict gap pairs => pairs.length_lt.trans_le (gap.length_le.trans (Nat.le_succ _))

theorem Elements.length_lt {convert : Bytes → Bytes → Double} {items : List (JObject Double)}
    {text rest : Bytes} : Elements convert items text rest → rest.length < text.length
  | .last value close => close.length_lt.trans value.length_lt
  | .more value comma blank others => by
    have := value.length_lt
    have := comma.length_lt
    have := blank.length_le
    have := others.length_lt
    omega

theorem Members.length_lt {convert : Bytes → Bytes → Double}
    {members : List (Bytes × JObject Double)} {text rest : Bytes} :
    Members convert members text rest → rest.length < text.length
  | .last name colon blank value close => by
    have := name.length_lt
    have := colon.length_lt
    have := blank.length_le
    have := value.length_lt
    have := close.length_lt
    omega
  | .more name colon blank value comma blankToo others => by
    have := name.length_lt
    have := colon.length_lt
    have := blank.length_le
    have := value.length_lt
    have := comma.length_lt
    have := blankToo.length_le
    have := others.length_lt
    omega

end

/-! ### Tokens where a value or a separator is due -/

/-- The string begins with a token, and this is no separator. -/
structure Ordinary (str : Bytes) : Prop where
  notStranded : ¬ Stranded str
  notSeparator : ∀ next, Trivia str next → Solid next → next.headD 0 ∉ separators

/-- This is the token that follows, at this index. -/
def TokenAt (str text : Bytes) (result : Byte × Nat) : Prop :=
  ∃ next, result.1 = next.headD 0 ∧ At str result.2 next ∧ Solid next ∧ Trivia text next

/-- Where a value is due, only an unterminated comment leads astray. -/
theorem getNextToken_judged (ordinary : Ordinary str) (fuel : Nat) {idx : Nat} {text : Bytes}
    (position : At str idx text) :
    Judged (TokenAt str text) (text.length + str.length ≤ fuel) (Stranded text)
      (getNextToken str fuel idx) := by
  rcases getNextToken_spec fuel position with
    ⟨out, _⟩ | ⟨out, _, enough⟩ | ⟨final, next, out, landed, solid, lands⟩
  · rw [out]
    exact .raise _
  · rw [out]
    exact .exhausted fun fits => ordinary.notStranded (enough fits)
  · rw [out]
    rcases lands with trivia | ⟨stranded, _⟩
    · exact .ok ⟨next, rfl, landed, solid, trivia⟩
    · exact ⟨fun _ _ => Or.inr stranded, fun _ _ => stranded⟩

/-- Where a separator is due, what is not the token that follows is no separator. -/
theorem getNextToken_separator (ordinary : Ordinary str) {fuel idx : Nat} {text : Bytes}
    (position : At str idx text) {enough excuse : Prop}
    (room : enough → text.length + str.length ≤ fuel) :
    Judged (fun result => result.1 ∈ separators → TokenAt str text result) enough excuse
      (getNextToken str fuel idx) := by
  rcases getNextToken_spec fuel position with
    ⟨out, _⟩ | ⟨out, _, strands⟩ | ⟨final, next, out, landed, solid, lands⟩
  · rw [out]
    exact .raise _
  · rw [out]
    exact .exhausted fun fits => ordinary.notStranded (strands (room fits))
  · rw [out]
    refine .ok fun separator => ?_
    rcases lands with trivia | ⟨_, trivia⟩
    · exact ⟨next, rfl, landed, solid, trivia⟩
    · exact absurd separator (ordinary.notSeparator next trivia solid)

/-- A token that is not the end of the text, with what follows it. -/
theorem TokenAt.cons {text : Bytes} {char : Byte} {idx : Nat} (token : TokenAt str text (char, idx))
    (notZero : char ≠ 0) :
    ∃ rest, Trivia text (char :: rest) ∧ Solid (char :: rest) ∧ At str idx (char :: rest) := by
  obtain ⟨next, head, position, solid, trivia⟩ := token
  have split := headD_eq_cons head.symm notZero
  rw [split] at position solid trivia
  exact ⟨_, trivia, solid, position⟩

/-! ### Containers -/

/-- The text spells this value behind some trivia, up to this index. -/
def ValueAt (ops : FloatOps Double) (str text : Bytes) (result : JObject Double × Nat) : Prop :=
  ∃ first, Trivia text first ∧ Spelled ops str first result

section Containers

variable {parse : Nat → Run (JObject Double × Nat)} {enough : Prop} {bound : Nat}

/-- The loop of `ParseList` returns the items it was given and those that are spelled. -/
theorem listLoop_judged (ordinary : Ordinary str)
    (parses : ∀ {idx text}, At str idx text → text.length < bound →
      Judged (ValueAt ops str text) enough (Dangling (converted ops) text) (parse idx)) :
    ∀ (fuel : Nat) (arr : List (JObject Double)) {idx : Nat} {text : Bytes}, At str idx text →
      text.length < bound →
      Judged (fun result => ∃ items first rest, Trivia text first ∧
          Elements (converted ops) items first rest ∧ result.1 = arr ++ items ∧
          At str result.2 rest)
        (enough ∧ text.length + str.length < fuel)
        (∃ first, Trivia text first ∧ DanglingElements (converted ops) first)
        (listLoop str parse fuel arr idx)
  | 0, _, _, _, _, _ => .exhausted fun fits => Nat.not_lt_zero _ fits.2
  | fuel + 1, arr, idx, text, position, short => by
    refine .bind ((parses position short).within And.left
      fun ⟨first, trivia, dangling⟩ => ⟨first, trivia, .first dangling⟩) ?_
    rintro ⟨item, idx⟩ ⟨first, gap, rest, value, position⟩
    have shorter := value.length_lt
    have := gap.length_le
    refine .bind (getNextToken_separator ordinary position fun fits => by omega) ?_
    rintro ⟨ch, idx⟩ token
    dsimp only at token ⊢
    split
    · rename_i close
      subst close
      obtain ⟨rest, trivia, _, position⟩ := (token (by decide)).cons (by decide)
      exact .pure ⟨[item], first, rest, gap, .last value trivia, rfl, position.next⟩
    · split
      · exact .raise _
      · rename_i comma
        obtain rfl := not_not.mp comma
        obtain ⟨rest, trivia, _, position⟩ := (token (by decide)).cons (by decide)
        have := trivia.length_lt
        have others := listLoop_judged ordinary parses fuel (arr ++ [item]) position.next (by omega)
        refine (others.within (fun fits => ⟨fits.1, by omega⟩) ?_).imp ?_
        · rintro ⟨next, blank, dangling⟩
          exact ⟨first, gap, .later value trivia blank dangling⟩
        · rintro ⟨result, last⟩ ⟨items, next, rest, blank, elements, same, position⟩
          refine ⟨item :: items, first, rest, gap, .more value trivia blank elements, ?_, position⟩
          rw [same, List.append_assoc, List.singleton_append]

/-- A list is spelled from its opening bracket on. -/
theorem parseList_judged (ordinary : Ordinary str)
    (parses : ∀ {idx text}, At str idx text → text.length < bound →
      Judged (ValueAt ops str text) enough (Dangling (converted ops) text) (parse idx))
    (fuel : Nat) {idx : Nat} {inner : Bytes} (position : At str idx (byte '[' :: inner))
    (short : inner.length < bound) :
    Judged (Spelled ops str (byte '[' :: inner)) (enough ∧ inner.length + str.length < fuel)
      (DanglingValue (converted ops) (byte '[' :: inner)) (parseList str parse fuel idx) := by
  refine .bind ((getNextToken_judged ordinary fuel position.next).within (fun fits => fits.2.le)
    fun ⟨comment, trivia, unterminated⟩ => .list trivia (.first (.here unterminated))) ?_
  rintro ⟨ch, idx⟩ token
  dsimp only
  split
  · rename_i close
    subst close
    obtain ⟨rest, trivia, _, position⟩ := token.cons (by decide)
    exact .pure ⟨rest, .emptyList trivia, position.next⟩
  · obtain ⟨next, _, position, _, trivia⟩ := token
    have := trivia.length_le
    have items := listLoop_judged ordinary parses fuel [] position (by omega)
    refine .bind (items.within (fun fits => ⟨fits.1, by omega⟩)
      fun ⟨first, gap, dangling⟩ => .list (trivia.trans gap) dangling) ?_
    rintro ⟨_, idx⟩ ⟨items, first, rest, gap, elements, rfl, position⟩
    exact .pure ⟨rest, .list (trivia.trans gap) elements, position⟩

/-- Only a string has a string value. -/
theorem stringValue_judged (value : JObject Double) (excuse : Prop) :
    Judged (fun key => value = .str key) enough excuse (stringValue value) := by
  cases value with
  | str key => exact .pure rfl
  | _ => exact .raise _

/-- The loop of `ParseDict` assigns the members that are spelled, one after another. -/
theorem dictLoop_judged (ordinary : Ordinary str)
    (parses : ∀ {idx text}, At str idx text → text.length < bound →
      Judged (ValueAt ops str text) enough (Dangling (converted ops) text) (parse idx)) :
    ∀ (fuel : Nat) (dict : List (Bytes × JObject Double)) {idx : Nat} {text : Bytes},
      At str idx text → text.length < bound →
      Judged (fun result => ∃ members first rest, Trivia text first ∧
          Members (converted ops) members first rest ∧
          result.1 = members.foldl (fun map member => JObject.setMember map member.1 member.2)
            dict ∧
          At str result.2 rest)
        (enough ∧ text.length + str.length < fuel)
        (∃ first, Trivia text first ∧ DanglingMembers (converted ops) first)
        (dictLoop str parse fuel dict idx)
  | 0, _, _, _, _, _ => .exhausted fun fits => Nat.not_lt_zero _ fits.2
  | fuel + 1, dict, idx, text, position, short => by
    refine .bind ((parses position short).within And.left
      fun ⟨first, trivia, dangling⟩ => ⟨first, trivia, .key dangling⟩) ?_
    rintro ⟨keyObject, idx⟩ ⟨first, gap, rest, name, position⟩
    refine (stringValue_judged keyObject _).bind ?_
    rintro key rfl
    have := name.length_lt
    have := gap.length_le
    refine .bind (getNextToken_separator ordinary position fun fits => by omega) ?_
    rintro ⟨ch, idx⟩ token
    dsimp only at token ⊢
    split
    · exact .raise _
    rename_i isColon
    obtain rfl := not_not.mp isColon
    obtain ⟨rest, colon, _, position⟩ := (token (by decide)).cons (by decide)
    have := colon.length_lt
    refine .bind ((parses position.next (by omega)).within And.left
      fun ⟨next, blank, dangling⟩ => ⟨first, gap, .value name colon blank dangling⟩) ?_
    rintro ⟨value, idx⟩ ⟨next, blank, rest, spelled, position⟩
    have := blank.length_le
    have := spelled.length_lt
    refine .bind (getNextToken_separator ordinary position fun fits => by omega) ?_
    rintro ⟨ch, idx⟩ token
    dsimp only at token ⊢
    split
    · rename_i close
      subst close
      obtain ⟨rest, close, _, position⟩ := (token (by decide)).cons (by decide)
      exact .pure ⟨[(key, value)], first, rest, gap, .last name colon blank spelled close, rfl,
        position.next⟩
    · split
      · exact .raise _
      · rename_i isComma
        obtain rfl := not_not.mp isComma
        obtain ⟨rest, comma, _, position⟩ := (token (by decide)).cons (by decide)
        have := comma.length_lt
        have others := dictLoop_judged ordinary parses fuel (JObject.setMember dict key value)
          position.next (by omega)
        refine (others.within (fun fits => ⟨fits.1, by omega⟩) ?_).imp ?_
        · rintro ⟨next, blankToo, dangling⟩
          exact ⟨first, gap, .later name colon blank spelled comma blankToo dangling⟩
        · rintro ⟨result, last⟩ ⟨members, next, rest, blankToo, pairs, same, position⟩
          exact ⟨(key, value) :: members, first, rest, gap,
            .more name colon blank spelled comma blankToo pairs, same, position⟩

/-- A dictionary is spelled from its opening brace on. -/
theorem parseDict_judged (ordinary : Ordinary str)
    (parses : ∀ {idx text}, At str idx text → text.length < bound →
      Judged (ValueAt ops str text) enough (Dangling (converted ops) text) (parse idx))
    (fuel : Nat) {idx : Nat} {inner : Bytes} (position : At str idx (byte '{' :: inner))
    (short : inner.length < bound) :
    Judged (Spelled ops str (byte '{' :: inner)) (enough ∧ inner.length + str.length < fuel)
      (DanglingValue (converted ops) (byte '{' :: inner)) (parseDict str parse fuel idx) := by
  refine .bind ((getNextToken_judged ordinary fuel position.next).within (fun fits => fits.2.le)
    fun ⟨comment, trivia, unterminated⟩ => .dict trivia (.key (.here unterminated))) ?_
  rintro ⟨ch, idx⟩ token
  dsimp only
  split
  · rename_i close
    subst close
    obtain ⟨rest, trivia, _, position⟩ := token.cons (by decide)
    exact .pure ⟨rest, .emptyDict trivia, position.next⟩
  · obtain ⟨next, _, position, _, trivia⟩ := token
    have := trivia.length_le
    have members := dictLoop_judged ordinary parses fuel [] position (by omega)
    refine .bind (members.within (fun fits => ⟨fits.1, by omega⟩)
      fun ⟨first, gap, dangling⟩ => .dict (trivia.trans gap) dangling) ?_
    rintro ⟨_, idx⟩ ⟨members, first, rest, gap, pairs, rfl, position⟩
    exact .pure ⟨rest, .dict (trivia.trans gap) pairs, position⟩

end Containers

/-! ### Values -/

/-- A value is spelled from its first token on. -/
theorem parseToken_judged (ordinary : Ordinary str)
    {parse : Nat → Run (JObject Double × Nat)} {enough : Prop} {bound : Nat}
    (parses : ∀ {idx text}, At str idx text → text.length < bound →
      Judged (ValueAt ops str text) enough (Dangling (converted ops) text) (parse idx))
    (fuel : Nat) {idx : Nat} {text : Bytes} (position : At str idx text)
    (short : text.length ≤ bound) :
    Judged (Spelled ops str text) (enough ∧ text.length + str.length ≤ fuel)
      (DanglingValue (converted ops) text)
      (parseToken ops str parse fuel (text.headD 0) idx) := by
  have scalar : ∀ {run : Run (JObject Double × Nat)}, Spells ops str text run →
      Judged (Spelled ops str text) (enough ∧ text.length + str.length ≤ fuel)
        (DanglingValue (converted ops) text) run :=
    fun spells => spells.within (fun _ => trivial) False.elim
  unfold parseToken
  split
  · exact scalar (parseNull_spells position)
  split
  · exact scalar (parseBool_spells position)
  split
  · exact scalar (parseNumber_spells position)
  split
  · rename_i quote
    have split := headD_eq_cons quote (by decide)
    rw [split] at position scalar ⊢
    exact scalar (parseString_spells position)
  split
  · rename_i bracket
    have split := headD_eq_cons bracket (by decide)
    rw [split] at position short ⊢
    refine (parseList_judged ordinary parses fuel position short).within ?_ id
    rw [List.length_cons]
    exact fun fits => ⟨fits.1, by omega⟩
  split
  · rename_i brace
    have split := headD_eq_cons brace (by decide)
    rw [split] at position short ⊢
    refine (parseDict_judged ordinary parses fuel position short).within ?_ id
    rw [List.length_cons]
    exact fun fits => ⟨fits.1, by omega⟩
  · exact .raise _

/-- What `Parse` returns is spelled behind some trivia, and with fuel for the text and
the string it runs out only where a comment dangles. -/
theorem parse_judged (ordinary : Ordinary str) : ∀ (fuel : Nat) {idx : Nat} {text : Bytes},
    At str idx text →
      Judged (ValueAt ops str text) (text.length + str.length < fuel)
        (Dangling (converted ops) text) (parse ops str fuel idx)
  | 0, _, _, _ => .exhausted (Nat.not_lt_zero _)
  | fuel + 1, idx, text, position => by
    refine .bind ((getNextToken_judged ordinary fuel position).within Nat.le_of_lt_succ
      fun ⟨comment, trivia, unterminated⟩ => ⟨comment, trivia, .here unterminated⟩) ?_
    rintro ⟨token, idx⟩ ⟨next, same, position, _, trivia⟩
    dsimp only at same position ⊢
    subst same
    have := trivia.length_le
    have parses : ∀ {idx : Nat} {inner : Bytes}, At str idx inner →
        inner.length < next.length →
        Judged (ValueAt ops str inner) (text.length + str.length < fuel + 1)
          (Dangling (converted ops) inner) (parse ops str fuel idx) := fun position short =>
      (parse_judged ordinary fuel position).within (fun fits => by omega) id
    have value := parseToken_judged ordinary parses fuel position (by omega)
    exact (value.within (fun fits => ⟨fits, by omega⟩) fun dangling => ⟨next, trivia, dangling⟩).imp
      fun _ spelled => ⟨next, trivia, spelled⟩

end Luce.TinyJson
