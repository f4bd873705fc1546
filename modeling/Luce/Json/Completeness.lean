/-
This file proves that the parser accepts what the grammar derives, and that more
fuel never changes what it does.

Derivations are followed one by one: with fuel for the text, each function returns
the value that the derivation spells and stops where the spelling ends. A number
would run on into a digit or a dot, so neither may follow a value; behind a value
inside a container there is always trivia or a separator.
-/

import Luce.Json.Soundness

namespace Luce.TinyJson

open Library Library.Fuel

variable {Double : Type} {ops : FloatOps Double} {str : Bytes}

/-! ### Tokens -/

/-- Nothing that a number would run on into stands before a separator. -/
theorem Trivia.delimited {rest more : Bytes} {char : Byte} (trivia : Trivia rest (char :: more))
    (separator : char ∈ separators) : Delimited rest := by
  have separates : ∀ other ∈ separators, ¬ isDigit other ∧ other ≠ byte '.' :=
    forall_separators.mpr (by decide)
  rcases trivia.cases with rfl | ⟨blank, _, rfl, isBlank, _⟩ | ⟨_, _, rfl, _, _⟩
  · exact separates char separator
  · refine ⟨fun digit => ?_, fun dot => ?_⟩
    · exact (opens_spec (Or.inr digit)).1 isBlank
    · exact absurd (show isSpace (byte '.') from dot ▸ isBlank) (by decide)
  · exact (by decide : ¬ isDigit (byte '/') ∧ byte '/' ≠ byte '.')

theorem Solid.of_separator {char : Byte} (separator : char ∈ separators) (rest : Bytes) :
    Solid (char :: rest) := by
  have separates : ∀ other ∈ separators, ¬ isSpace other ∧ other ≠ byte '/' :=
    forall_separators.mpr (by decide)
  exact .of_head rest (separates char separator).1 (separates char separator).2

/-- Where trivia lead to a separator, the scanner finds it. -/
theorem getNextToken_finds (fuel : Nat) {idx : Nat} {text rest : Bytes} {char : Byte}
    (position : At str idx text) (trivia : Trivia text (char :: rest))
    (separator : char ∈ separators) (fits : text.length ≤ fuel) :
    ∃ final, getNextToken str fuel idx = .ok (char, final) ∧ At str (final + 1) rest := by
  obtain ⟨final, landed, _, out⟩ := getNextToken_token fuel position trivia
    (.of_separator separator rest) (List.cons_ne_nil _ _)
  exact ⟨final, out fits, landed.next⟩

theorem Value.notEmpty {convert : Bytes → Bytes → Double} {value : JObject Double}
    {text rest : Bytes} (spelled : Value convert value text rest) : text ≠ [] := by
  obtain ⟨_, _, rfl, _⟩ := spelled.head
  exact List.cons_ne_nil _ _

theorem Value.headD_notSeparator {convert : Bytes → Bytes → Double} {value : JObject Double}
    {text rest : Bytes} (spelled : Value convert value text rest) :
    text.headD 0 ∉ separators := by
  obtain ⟨char, more, rfl, begins⟩ := spelled.head
  exact (opens_spec begins).2.2

theorem Elements.value {convert : Bytes → Bytes → Double} {items : List (JObject Double)}
    {text rest : Bytes} (elements : Elements convert items text rest) :
    ∃ item after, Value convert item text after := by
  cases elements with
  | last value | more value => exact ⟨_, _, value⟩

theorem Members.value {convert : Bytes → Bytes → Double}
    {members : List (Bytes × JObject Double)} {text rest : Bytes}
    (pairs : Members convert members text rest) : ∃ item after, Value convert item text after := by
  cases pairs with
  | last name | more name => exact ⟨_, _, name⟩

/-- Where trivia lead to a value, the scanner finds its first character. -/
theorem getNextToken_opens {convert : Bytes → Bytes → Double} {value : JObject Double}
    (fuel : Nat) {idx : Nat} {text first rest : Bytes} (position : At str idx text)
    (trivia : Trivia text first) (spelled : Value convert value first rest)
    (fits : text.length ≤ fuel) :
    ∃ final, At str final first ∧ getNextToken str fuel idx = .ok (first.headD 0, final) ∧
      first.headD 0 ∉ separators := by
  obtain ⟨final, landed, _, out⟩ := getNextToken_token fuel position trivia spelled.solid
    spelled.notEmpty
  exact ⟨final, landed, out fits, spelled.headD_notSeparator⟩

/-- `Parse` goes on with the token that the value begins with. -/
theorem parse_step (ops : FloatOps Double) {idx fuel : Nat} {text first : Bytes}
    (position : At str idx text) (trivia : Trivia text first) (solid : Solid first)
    (notEmpty : first ≠ []) (fits : text.length ≤ fuel) :
    ∃ start, At str start first ∧ parse ops str (fuel + 1) idx =
      parseToken ops str (parse ops str fuel) fuel (first.headD 0) start := by
  obtain ⟨start, landed, _, out⟩ := getNextToken_token fuel position trivia solid notEmpty
  exact ⟨start, landed, by simp only [parse, out fits, ok_bind]⟩

/-! ### Dispatch -/

section Dispatch

variable (parse : Nat → Run (JObject Double × Nat)) (fuel idx : Nat)

theorem parseToken_bool {token : Byte} (isBool : token = byte 't' ∨ token = byte 'f') :
    parseToken ops str parse fuel token idx = parseBool str idx := by
  have notNull : token ≠ byte 'n' := by
    rcases isBool with rfl | rfl <;> decide
  rw [parseToken, if_neg notNull, if_pos isBool]

theorem parseToken_number {token : Byte} (digit : isDigit token) :
    parseToken ops str parse fuel token idx = parseNumber ops str idx := by
  have other : ∀ {letter : Byte}, ¬ isDigit letter → token ≠ letter :=
    fun notDigit same => notDigit (same ▸ digit)
  rw [parseToken, if_neg (other (by decide)),
    if_neg (not_or.mpr ⟨other (by decide), other (by decide)⟩), if_pos (Or.inr digit)]

theorem parseToken_list :
    parseToken ops str parse fuel (byte '[') idx = parseList str parse fuel idx :=
  rfl

theorem parseToken_dict :
    parseToken ops str parse fuel (byte '{') idx = parseDict str parse fuel idx :=
  rfl

end Dispatch

/-! ### Acceptance -/

/-- Reading from the text up to the rest returns this value. -/
def Reads {Result : Type} (str rest : Bytes) (result : Result) (run : Run (Result × Nat)) : Prop :=
  ∃ final, run = .ok (result, final) ∧ At str final rest

mutual

/-- `Parse` returns the value that is spelled behind the trivia. -/
theorem Value.accepted {value : JObject Double} {first rest : Bytes} :
    Value (converted ops) value first rest → ∀ (fuel : Nat) {idx : Nat} {text : Bytes},
      At str idx text → Trivia text first → Ends value rest → text.length < fuel →
        Reads str rest value (parse ops str fuel idx)
  | spelled, 0, _, _, _, _, _, fits => absurd fits (Nat.not_lt_zero _)
  | spelled, fuel + 1, idx, text, position, trivia, ends, fits => by
    obtain ⟨start, landed, step⟩ := parse_step ops position trivia spelled.solid
      spelled.notEmpty (Nat.le_of_lt_succ fits)
    have := trivia.length_le
    rw [step]
    cases spelled with
    | null =>
      refine ⟨start + 4, ?_, landed.advance⟩
      exact (parseNull_eq landed).trans (if_pos (List.prefix_append _ _))
    | @bool value =>
      cases value
      · refine ⟨start + 5, ?_, landed.advance⟩
        refine (parseToken_bool _ _ _ (Or.inr rfl)).trans ((parseBool_eq landed).trans ?_)
        rw [if_neg, if_pos]
        · exact List.prefix_append _ _
        · exact fun starts => absurd (List.cons_prefix_cons.mp starts).1 (by decide)
      · refine ⟨start + 4, ?_, landed.advance⟩
        refine (parseToken_bool _ _ _ (Or.inl rfl)).trans ((parseBool_eq landed).trans ?_)
        exact if_pos (List.prefix_append _ _)
    | int digits =>
      rw [parseToken_number _ _ _ (digits.head _), parseNumber_int digits ends landed]
      exact ⟨_, rfl, landed.advance⟩
    | @double whole part _ digits fraction =>
      have first := digits.head (byte '.' :: part ++ rest)
      rw [← List.append_assoc] at first
      rw [parseToken_number _ _ _ first, parseNumber_double digits fraction ends landed]
      exact ⟨_, rfl, landed.advance⟩
    | str escaped =>
      exact parseString_accepts escaped landed
    | emptyList close =>
      obtain ⟨final, out, closed⟩ := getNextToken_finds fuel landed.next close (by decide)
        (by rw [List.length_cons] at this; omega)
      refine ⟨final + 1, ?_, closed⟩
      simp only [List.headD_cons, parseToken_list, parseList, out, ok_bind]
      rfl
    | @list _ inner first _ gap elements =>
      rw [List.length_cons] at this
      have := gap.length_le
      obtain ⟨_, _, head⟩ := elements.value
      obtain ⟨token, opened, found, notSeparator⟩ :=
        getNextToken_opens fuel landed.next gap head (by omega)
      have notClose : first.headD 0 ≠ byte ']' := fun same => notSeparator (same ▸ by decide)
      obtain ⟨final, out, closed⟩ := elements.accepted fuel fuel [] opened
        (.nil _) (by omega) (by omega)
      refine ⟨final, ?_, closed⟩
      simp only [List.headD_cons, parseToken_list, parseList, found, ok_bind, if_neg notClose, out]
      rfl
    | emptyDict close =>
      obtain ⟨final, out, closed⟩ := getNextToken_finds fuel landed.next close (by decide)
        (by rw [List.length_cons] at this; omega)
      refine ⟨final + 1, ?_, closed⟩
      simp only [List.headD_cons, parseToken_dict, parseDict, out, ok_bind]
      rfl
    | @dict members inner first _ gap pairs =>
      rw [List.length_cons] at this
      have := gap.length_le
      obtain ⟨_, _, head⟩ := pairs.value
      obtain ⟨token, opened, found, notSeparator⟩ :=
        getNextToken_opens fuel landed.next gap head (by omega)
      have notClose : first.headD 0 ≠ byte '}' := fun same => notSeparator (same ▸ by decide)
      obtain ⟨final, out, closed⟩ := pairs.accepted fuel fuel [] opened
        (.nil _) (by omega) (by omega)
      refine ⟨final, ?_, closed⟩
      simp only [List.headD_cons, parseToken_dict, parseDict, found, ok_bind, if_neg notClose, out]
      rfl

/-- The loop of `ParseList` returns the items that are spelled behind the trivia. -/
theorem Elements.accepted {items : List (JObject Double)} {first rest : Bytes} :
    Elements (converted ops) items first rest →
      ∀ (outer fuel : Nat) {idx : Nat} {text : Bytes} (arr : List (JObject Double)),
        At str idx text → Trivia text first → text.length < outer → text.length < fuel →
          Reads str rest (arr ++ items) (listLoop str (parse ops str outer) fuel arr idx)
  | _, _, 0, _, _, _, _, _, _, fits => absurd fits (Nat.not_lt_zero _)
  | .last value close, outer, fuel + 1, idx, text, arr, position, trivia, enough, fits => by
    obtain ⟨next, out, landed⟩ := value.accepted outer position trivia
      ((close.delimited (by decide)).ends _) enough
    have := trivia.length_le
    have := value.length_lt
    obtain ⟨final, found, closed⟩ := getNextToken_finds fuel landed close (by decide) (by omega)
    refine ⟨final + 1, ?_, closed⟩
    simp only [listLoop, out, ok_bind, found]
    rfl
  | @Elements.more _ _ item _ _ _ _ _ _ value comma blank others, outer, fuel + 1, idx, text, arr,
      position, trivia, enough, fits => by
    obtain ⟨next, out, landed⟩ := value.accepted outer position trivia
      ((comma.delimited (by decide)).ends _) enough
    have := trivia.length_le
    have := value.length_lt
    have := comma.length_lt
    obtain ⟨final, found, closed⟩ := getNextToken_finds fuel landed comma (by decide) (by omega)
    have rest := others.accepted outer fuel (arr ++ [item]) closed
      blank (by omega) (by omega)
    rw [List.append_assoc, List.singleton_append] at rest
    simp only [listLoop, out, ok_bind, found]
    exact rest

/-- The loop of `ParseDict` assigns the members that are spelled behind the trivia. -/
theorem Members.accepted {members : List (Bytes × JObject Double)} {first rest : Bytes} :
    Members (converted ops) members first rest →
      ∀ (outer fuel : Nat) {idx : Nat} {text : Bytes} (dict : List (Bytes × JObject Double)),
        At str idx text → Trivia text first → text.length < outer → text.length < fuel →
          Reads str rest
            (members.foldl (fun map member => JObject.setMember map member.1 member.2) dict)
            (dictLoop str (parse ops str outer) fuel dict idx)
  | _, _, 0, _, _, _, _, _, _, fits => absurd fits (Nat.not_lt_zero _)
  | .last name colon blank value close, outer, fuel + 1, idx, text, dict, position, trivia,
      enough, fits => by
    have := trivia.length_le
    have := name.length_lt
    have := colon.length_lt
    have := blank.length_le
    have := value.length_lt
    obtain ⟨next, key, landed⟩ := name.accepted outer position trivia
      ((colon.delimited (by decide)).ends _) enough
    obtain ⟨final, isColon, landed⟩ := getNextToken_finds fuel landed colon (by decide) (by omega)
    obtain ⟨next, item, landed⟩ := value.accepted outer landed blank
      ((close.delimited (by decide)).ends _) (by omega)
    obtain ⟨last, isClose, closed⟩ := getNextToken_finds fuel landed close (by decide) (by omega)
    refine ⟨last + 1, ?_, closed⟩
    simp only [dictLoop, key, stringValue, pure_bind, ok_bind, isColon, item, isClose]
    rfl
  | @Members.more _ _ key item _ _ _ _ _ _ _ _ _ name colon blank value comma blankToo others,
      outer, fuel + 1, idx, text, dict, position, trivia, enough, fits => by
    have := trivia.length_le
    have := name.length_lt
    have := colon.length_lt
    have := blank.length_le
    have := value.length_lt
    have := comma.length_lt
    obtain ⟨next, isKey, landed⟩ := name.accepted outer position trivia
      ((colon.delimited (by decide)).ends _) enough
    obtain ⟨final, isColon, landed⟩ := getNextToken_finds fuel landed colon (by decide) (by omega)
    obtain ⟨next, isItem, landed⟩ := value.accepted outer landed blank
      ((comma.delimited (by decide)).ends _) (by omega)
    obtain ⟨last, isComma, landed⟩ := getNextToken_finds fuel landed comma (by decide) (by omega)
    have rest := others.accepted outer fuel (JObject.setMember dict key item)
      landed blankToo (by omega) (by omega)
    simp only [dictLoop, isKey, stringValue, pure_bind, ok_bind, isColon, isItem, isComma]
    exact rest

end

end Luce.TinyJson
