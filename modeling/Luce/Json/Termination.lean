/-
This file settles when the parser comes to an end, and with what.

More fuel never changes an outcome, so whatever the parser does on some fuel it
does on any larger one. Where an unterminated comment dangles, looking for the next
token leads back to the beginning of the string, and from there to the same comment
again: no fuel suffices. Everywhere else fuel for twice the length of the text
suffices.
-/

import Luce.Json.Completeness
import Mathlib.Data.Rat.Defs

namespace Luce.TinyJson

open Library Library.Fuel

variable {Double : Type} {ops : FloatOps Double} {str : Bytes}

/-! ### More fuel -/

theorem commentLoop_monotone (str : Bytes) : ∀ fuel idx,
    Approximates (commentLoop str fuel idx) (commentLoop str (fuel + 1) idx)
  | 0, _ => .exhausted _
  | fuel + 1, idx => by
    conv => arg 1; rw [commentLoop]
    conv => arg 2; rw [commentLoop]
    refine .ite (.refl _) (.bind (.refl _) fun idx => .bind (.refl _) fun again => ?_)
    exact .ite (commentLoop_monotone str fuel idx) (.refl _)

theorem getNextToken_monotone (str : Bytes) (fuel idx : Nat) :
    Approximates (getNextToken str fuel idx) (getNextToken str (fuel + 1) idx) := by
  refine .bind (.refl _) fun idx => .ite (.refl _) (.bind ?_ fun _ => .refl _)
  exact .bind (.refl _) fun comment => .ite (commentLoop_monotone str fuel idx) (.refl _)

section Monotone

variable {parse more : Nat → Run (JObject Double × Nat)}

theorem listLoop_monotone (grows : ∀ idx, Approximates (parse idx) (more idx)) :
    ∀ fuel arr idx,
      Approximates (listLoop str parse fuel arr idx) (listLoop str more (fuel + 1) arr idx)
  | 0, _, _ => .exhausted _
  | fuel + 1, arr, idx => by
    rw [listLoop, listLoop]
    refine .bind (grows idx) fun item => .bind (getNextToken_monotone str _ _) fun token => ?_
    exact .ite (.refl _) (.ite (.refl _) (listLoop_monotone grows fuel _ _))

theorem dictLoop_monotone (grows : ∀ idx, Approximates (parse idx) (more idx)) :
    ∀ fuel dict idx,
      Approximates (dictLoop str parse fuel dict idx) (dictLoop str more (fuel + 1) dict idx)
  | 0, _, _ => .exhausted _
  | fuel + 1, dict, idx => by
    rw [dictLoop, dictLoop]
    refine .bind (grows idx) fun keyObject => .bind (.refl _) fun key =>
      .bind (getNextToken_monotone str _ _) fun colon => .ite (.refl _) ?_
    refine .bind (grows _) fun value => .bind (getNextToken_monotone str _ _) fun token => ?_
    exact .ite (.refl _) (.ite (.refl _) (dictLoop_monotone grows fuel _ _))

theorem parseToken_monotone (grows : ∀ idx, Approximates (parse idx) (more idx))
    (fuel : Nat) (token : Byte) (idx : Nat) :
    Approximates (parseToken ops str parse fuel token idx)
      (parseToken ops str more (fuel + 1) token idx) := by
  refine .ite (.refl _) (.ite (.refl _) (.ite (.refl _) (.ite (.refl _) (.ite ?_ (.ite ?_
    (.refl _))))))
  · exact .bind (getNextToken_monotone str _ _) fun token =>
      .ite (.refl _) (.bind (listLoop_monotone grows _ _ _) fun _ => .refl _)
  · exact .bind (getNextToken_monotone str _ _) fun token =>
      .ite (.refl _) (.bind (dictLoop_monotone grows _ _ _) fun _ => .refl _)

end Monotone

theorem parse_grows (ops : FloatOps Double) (str : Bytes) : ∀ fuel idx,
    Approximates (parse ops str fuel idx) (parse ops str (fuel + 1) idx)
  | 0, _ => .exhausted _
  | fuel + 1, idx => by
    conv => arg 1; rw [parse]
    conv => arg 2; rw [parse]
    exact .bind (getNextToken_monotone str _ _) fun token =>
      parseToken_monotone (parse_grows ops str fuel) _ _ _

/-- More fuel never changes what the parser does. -/
theorem fromString_monotone (ops : FloatOps Double) (content : Bytes) :
    Monotone fun fuel => fromString ops fuel content :=
  fun fuel => .bind (parse_grows ops _ fuel 0) fun _ => .refl _

/-! ### Dangling comments -/

theorem stuck_nil : Stuck [] := by
  intro rest onward
  rcases onward.cases with same | ⟨_, _, absurdity, _⟩ | ⟨_, _, absurdity, _⟩
  · exact same
  · cases absurdity
  · cases absurdity

section Dangling

variable {convert : Bytes → Bytes → Double}

theorem DanglingValue.stuck {text : Bytes} (dangling : DanglingValue convert text) :
    Stuck text := by
  cases dangling with
  | here unterminated => exact unterminated.stuck
  | list | dict => exact (Solid.of_head _ (by decide) (by decide)).stuck

theorem DanglingValue.notEmpty {text : Bytes} (dangling : DanglingValue convert text) :
    text ≠ [] := by
  cases dangling with
  | here unterminated =>
    obtain ⟨_⟩ := unterminated
    exact List.cons_ne_nil _ _
  | list | dict => exact List.cons_ne_nil _ _

theorem DanglingValue.notSeparator {text : Bytes} (dangling : DanglingValue convert text)
    (solid : Solid text) : text.headD 0 ∉ separators := by
  cases dangling with
  | here unterminated => exact absurd solid unterminated.notSolid
  | list => exact (by decide : byte '[' ∉ separators)
  | dict => exact (by decide : byte '{' ∉ separators)

/-- The scanner does not come back, or it finds the first character of such a text,
and this is no separator. -/
def Leads (str : Bytes) (run : Run (Byte × Nat)) (place : Bytes → Prop) : Prop :=
  run = exhausted ∨ ∃ final next, run = .ok (next.headD 0, final) ∧ At str final next ∧
    Solid next ∧ next.headD 0 ∉ separators ∧ place next

theorem Leads.imp {run : Run (Byte × Nat)} {place other : Bytes → Prop}
    (leads : Leads str run place) (weaker : ∀ next, place next → other next) :
    Leads str run other :=
  Or.imp_right (fun ⟨final, next, out, landed, solid, opener, here⟩ =>
    ⟨final, next, out, landed, solid, opener, weaker next here⟩) leads

theorem getNextToken_value {value : JObject Double} (fuel : Nat) {idx : Nat}
    {text first rest : Bytes} (position : At str idx text) (trivia : Trivia text first)
    (spelled : Value convert value first rest) :
    Leads str (getNextToken str fuel idx) (· = first) := by
  obtain ⟨final, landed, found, _⟩ :=
    getNextToken_token fuel position trivia spelled.solid spelled.notEmpty
  exact found.imp id fun out =>
    ⟨final, first, out, landed, spelled.solid, spelled.headD_notSeparator, rfl⟩

/-- In a string with a dangling comment, the scanner leads from a dangling comment
back to the beginning of the string. -/
theorem getNextToken_dangling (astray : Dangling convert str) (fuel : Nat) {idx : Nat}
    {text : Bytes} (position : At str idx text) (dangling : Dangling convert text) :
    Leads str (getNextToken str fuel idx) (DanglingValue convert) := by
  obtain ⟨start, begins, atStart⟩ := astray
  obtain ⟨first, trivia, value⟩ := dangling
  rcases getNextToken_spec fuel position with
    ⟨_, nothing⟩ | ⟨out, _⟩ | ⟨final, next, out, landed, solid, lands⟩
  · exact absurd (trivia.unique nothing value.stuck stuck_nil) value.notEmpty
  · exact Or.inl out
  · have here : DanglingValue convert next := by
      rcases lands with onward | ⟨_, onward⟩
      · rwa [onward.unique trivia solid.stuck value.stuck]
      · rwa [onward.unique begins solid.stuck atStart.stuck]
    exact Or.inr ⟨final, next, out, landed, solid, here.notSeparator solid, here⟩

theorem getNextToken_danglingElements (astray : Dangling convert str) (fuel : Nat) {idx : Nat}
    {text first : Bytes} (position : At str idx text) (trivia : Trivia text first)
    (dangling : DanglingElements convert first) :
    Leads str (getNextToken str fuel idx) (DanglingElements convert) := by
  cases dangling with
  | first value =>
    exact (getNextToken_dangling astray fuel position ⟨first, trivia, value⟩).imp fun _ => .first
  | later value comma blank others =>
    refine (getNextToken_value fuel position trivia value).imp ?_
    rintro _ rfl
    exact .later value comma blank others

theorem getNextToken_danglingMembers (astray : Dangling convert str) (fuel : Nat) {idx : Nat}
    {text first : Bytes} (position : At str idx text) (trivia : Trivia text first)
    (dangling : DanglingMembers convert first) :
    Leads str (getNextToken str fuel idx) (DanglingMembers convert) := by
  cases dangling with
  | key value =>
    exact (getNextToken_dangling astray fuel position ⟨first, trivia, value⟩).imp fun _ => .key
  | value name colon blank value =>
    refine (getNextToken_value fuel position trivia name).imp ?_
    rintro _ rfl
    exact .value name colon blank value
  | later name colon blank value comma blankToo others =>
    refine (getNextToken_value fuel position trivia name).imp ?_
    rintro _ rfl
    exact .later name colon blank value comma blankToo others

end Dangling

section Divergence

variable {parse : Nat → Run (JObject Double × Nat)}

/-- `Parse` returns what is spelled, where it comes back. -/
def Accepts (ops : FloatOps Double) (str : Bytes) (parse : Nat → Run (JObject Double × Nat)) :
    Prop :=
  ∀ {value first rest idx text}, Value (converted ops) value first rest → At str idx text →
    Trivia text first → Delimited rest →
      ∃ final, At str final rest ∧ Approximates (parse idx) (.ok (value, final))

/-- `Parse` does not come back from a dangling comment. -/
def Hangs (ops : FloatOps Double) (str : Bytes) (parse : Nat → Run (JObject Double × Nat)) :
    Prop :=
  ∀ {idx text}, At str idx text → Dangling (converted ops) text → parse idx = exhausted

theorem listLoop_hangs (accepts : Accepts ops str parse) (hangs : Hangs ops str parse) :
    ∀ (fuel : Nat) (arr : List (JObject Double)) {idx : Nat} {text first : Bytes},
      At str idx text → Trivia text first → DanglingElements (converted ops) first →
        listLoop str parse fuel arr idx = exhausted
  | 0, _, _, _, _, _, _, _ => rfl
  | fuel + 1, arr, idx, text, first, position, trivia, dangling => by
    cases dangling with
    | first value =>
      rw [listLoop, hangs position ⟨first, trivia, value⟩, exhausted_bind]
    | later value comma blank others =>
      obtain ⟨next, landed, out | out⟩ :=
        accepts value position trivia (comma.delimited (by decide))
      · rw [listLoop, out, exhausted_bind]
      obtain ⟨final, landed, found | found, _⟩ := getNextToken_token fuel landed comma
        (.of_separator (by decide) _) (List.cons_ne_nil _ _)
      · simp only [listLoop, out, ok_bind, found, exhausted_bind]
      · simp only [listLoop, out, ok_bind, found]
        exact listLoop_hangs accepts hangs fuel _ landed.next blank others

theorem dictLoop_hangs (accepts : Accepts ops str parse) (hangs : Hangs ops str parse) :
    ∀ (fuel : Nat) (dict : List (Bytes × JObject Double)) {idx : Nat} {text first : Bytes},
      At str idx text → Trivia text first → DanglingMembers (converted ops) first →
        dictLoop str parse fuel dict idx = exhausted
  | 0, _, _, _, _, _, _, _ => rfl
  | fuel + 1, dict, idx, text, first, position, trivia, dangling => by
    cases dangling with
    | key value =>
      rw [dictLoop, hangs position ⟨first, trivia, value⟩, exhausted_bind]
    | value name colon blank value =>
      obtain ⟨next, landed, out | out⟩ :=
        accepts name position trivia (colon.delimited (by decide))
      · rw [dictLoop, out, exhausted_bind]
      obtain ⟨final, landed, found | found, _⟩ := getNextToken_token fuel landed colon
        (.of_separator (by decide) _) (List.cons_ne_nil _ _)
      · simp only [dictLoop, out, ok_bind, stringValue, pure_bind, found, exhausted_bind]
      · have hung := hangs landed.next ⟨_, blank, value⟩
        simp only [dictLoop, out, ok_bind, stringValue, pure_bind, found, List.headD_cons, hung]
        rfl
    | later name colon blank value comma blankToo others =>
      obtain ⟨next, landed, out | out⟩ :=
        accepts name position trivia (colon.delimited (by decide))
      · rw [dictLoop, out, exhausted_bind]
      obtain ⟨final, landed, found | found, _⟩ := getNextToken_token fuel landed colon
        (.of_separator (by decide) _) (List.cons_ne_nil _ _)
      · simp only [dictLoop, out, ok_bind, stringValue, pure_bind, found, exhausted_bind]
      obtain ⟨last, landed, read | read⟩ :=
        accepts value landed.next blank (comma.delimited (by decide))
      · simp only [dictLoop, out, ok_bind, stringValue, pure_bind, found, List.headD_cons, read]
        rfl
      obtain ⟨behind, landed, ends | ends, _⟩ := getNextToken_token fuel landed comma
        (.of_separator (by decide) _) (List.cons_ne_nil _ _)
      · simp only [dictLoop, out, ok_bind, stringValue, pure_bind, found, List.headD_cons, read,
          ends]
        rfl
      · simp only [dictLoop, out, ok_bind, stringValue, pure_bind, found, List.headD_cons, read,
          ends]
        exact dictLoop_hangs accepts hangs fuel _ landed.next blankToo others

/-- A container whose first token leads to a dangling element does not come back. -/
theorem parseToken_hangs (astray : Dangling (converted ops) str) (accepts : Accepts ops str parse)
    (hangs : Hangs ops str parse) (fuel : Nat) {idx : Nat} {text : Bytes}
    (position : At str idx text) (solid : Solid text)
    (dangling : DanglingValue (converted ops) text) :
    parseToken ops str parse fuel (text.headD 0) idx = exhausted := by
  cases dangling with
  | here unterminated => exact absurd solid unterminated.notSolid
  | list gap elements =>
    rw [List.headD_cons, parseToken_list, parseList]
    rcases getNextToken_danglingElements astray fuel position.next gap elements with
      out | ⟨final, next, out, landed, _, opener, dangling⟩
    · simp only [out, exhausted_bind]
    · have notClose : next.headD 0 ≠ byte ']' := fun same => opener (same ▸ by decide)
      simp only [out, ok_bind, if_neg notClose,
        listLoop_hangs accepts hangs fuel [] landed (.nil _) dangling, exhausted_bind]
  | dict gap members =>
    rw [List.headD_cons, parseToken_dict, parseDict]
    rcases getNextToken_danglingMembers astray fuel position.next gap members with
      out | ⟨final, next, out, landed, _, opener, dangling⟩
    · simp only [out, exhausted_bind]
    · have notClose : next.headD 0 ≠ byte '}' := fun same => opener (same ▸ by decide)
      simp only [out, ok_bind, if_neg notClose,
        dictLoop_hangs accepts hangs fuel [] landed (.nil _) dangling, exhausted_bind]

end Divergence

theorem parse_accepts (ops : FloatOps Double) (str : Bytes) (fuel : Nat) :
    Accepts ops str (parse ops str fuel) := by
  intro value first rest idx text spelled position trivia delimited
  obtain ⟨final, out, landed⟩ :=
    spelled.accepted _ position trivia (delimited.ends value) (Nat.lt_succ_self text.length)
  refine ⟨final, landed, ?_⟩
  have grows : Monotone fun fuel => parse ops str fuel idx :=
    fun fuel => parse_grows ops str fuel idx
  have ended : parse ops str (text.length + 1) idx ≠ exhausted := by
    rw [out]
    exact fun halted => by cases halted
  have approximates := grows.approximates ended fuel
  simpa only [out] using approximates

/-- In a string with a dangling comment, no fuel suffices from a dangling comment on. -/
theorem parse_hangs (astray : Dangling (converted ops) str) :
    ∀ fuel, Hangs ops str (parse ops str fuel)
  | 0 => fun _ _ => rfl
  | fuel + 1 => by
    intro position dangling
    rcases getNextToken_dangling astray fuel position dangling with
      out | ⟨final, next, out, landed, solid, _, here⟩
    · rw [parse, out, exhausted_bind]
    · simp only [parse, out, ok_bind]
      exact parseToken_hangs astray (parse_accepts ops str fuel) (parse_hangs astray fuel) fuel
        landed solid here

/-! ### Whole texts -/

theorem Stranded.dangling {convert : Bytes → Bytes → Double} (stranded : Stranded str) :
    Dangling convert str := by
  obtain ⟨comment, trivia, unterminated⟩ := stranded
  exact ⟨comment, trivia, .here unterminated⟩

theorem parseToken_separator (parse : Nat → Run (JObject Double × Nat)) (fuel idx : Nat)
    {token : Byte} (separator : token ∈ separators) :
    parseToken ops str parse fuel token idx =
      raise (.logicError "Unexpected character in parse json") := by
  have cases : token = byte ',' ∨ token = byte ']' ∨ token = byte ':' ∨ token = byte '}' := by
    simpa [separators] using separator
  rcases cases with rfl | rfl | rfl | rfl <;> rfl

/-- Where no comment dangles, what `Parse` returns is spelled by the string, and fuel
for twice its length suffices. -/
theorem parse_whole (quiet : ¬ Dangling (converted ops) str) (fuel : Nat) :
    Judged (ValueAt ops str str) (str.length + str.length < fuel) False
      (parse ops str fuel 0) := by
  by_cases refused : ∃ next, Trivia str next ∧ Solid next ∧ next.headD 0 ∈ separators
  · obtain ⟨next, trivia, solid, separator⟩ := refused
    have notEmpty : next ≠ [] := by
      rintro rfl
      exact absurd separator (by decide)
    cases fuel with
    | zero => exact .exhausted (Nat.not_lt_zero _)
    | succ fuel =>
      obtain ⟨final, _, found, enough⟩ :=
        getNextToken_token fuel (At.start str) trivia solid notEmpty
      rw [parse]
      rcases found with out | out
      · rw [out, exhausted_bind]
        refine .exhausted fun fits => ?_
        rw [enough (by omega)] at out
        cases out
      · simp only [out, ok_bind, parseToken_separator _ _ _ separator]
        exact .raise _
  · have ordinary : Ordinary str :=
      ⟨fun stranded => quiet stranded.dangling, fun next trivia solid separator =>
        refused ⟨next, trivia, solid, separator⟩⟩
    exact (parse_judged ordinary fuel (At.start str)).within id quiet

theorem fromString_hangs {content : Bytes}
    (astray : Dangling (converted ops) (trimRight content)) (fuel : Nat) :
    fromString ops fuel content = exhausted := by
  rw [fromString, parse_hangs astray fuel (At.start _) astray, exhausted_bind]

/-- Parsing ends with a value or an exception exactly when no comment dangles in the
trimmed text. -/
theorem fromString_terminates_iff (ops : FloatOps Double) (content : Bytes) :
    Terminates (fun fuel => fromString ops fuel content) ↔
      ¬ Dangling (converted ops) (trimRight content) := by
  constructor
  · rintro ⟨fuel, ended⟩ astray
    exact ended (fromString_hangs astray fuel)
  · intro quiet
    refine ⟨(trimRight content).length + (trimRight content).length + 1, fun out => ?_⟩
    rcases bind_eq_exhausted.mp out with out | ⟨_, _, out⟩
    · exact (parse_whole quiet _).ended (Nat.lt_succ_self _) out
    · cases out

/-- Decimal literals as rational numbers, with an optional exponent. -/
def rationals : FloatOps ℚ where
  strtof64 text :=
    let whole := text.takeWhile isDigit
    let part := (text.drop (whole.length + 1)).takeWhile isDigit
    let exponent := match text.drop (whole.length + 1 + part.length) with
      | [] => 0
      | mark :: power => if mark = byte 'e' then strtol power else 0
    (strtol (whole ++ part) * 10 ^ exponent : Nat) / (10 ^ part.length : Nat)
  print value := JObject.decimal value.floor

/-- A text that is one comment: trimming takes its line break away, and no fuel suffices. -/
theorem comment_hangs :
    ¬ Terminates fun fuel => fromString rationals fuel (ascii "// nothing else\n") := by
  rintro ⟨fuel, ended⟩
  have trimmed : trimRight (ascii "// nothing else\n") = ascii "// nothing else" := by decide
  have unterminated : Unterminated (trimRight (ascii "// nothing else\n")) := by
    rw [trimmed]
    exact .comment (by decide)
  exact ended (fromString_hangs ⟨_, .nil _, .here unterminated⟩ fuel)

/-! ### Soundness -/

/-- What parsing returns is the value that a prefix of the trimmed text spells, where a
fraction is converted from the text that begins with it. -/
theorem fromString_sound (ops : FloatOps Double) (fuel : Nat) (content : Bytes)
    (value : JObject Double) (returned : fromString ops fuel content = .ok value) :
    ∃ first rest, Trivia (trimRight content) first ∧ Value (converted ops) value first rest := by
  obtain ⟨⟨_, final⟩, parsed, same⟩ := bind_eq_ok.mp returned
  obtain rfl := Except.ok.inj same
  have quiet : ¬ Dangling (converted ops) (trimRight content) := fun astray => by
    rw [parse_hangs astray fuel (At.start _) astray] at parsed
    cases parsed
  obtain ⟨first, trivia, rest, spelled, _⟩ :=
    ((parse_whole quiet fuel).sound _ parsed).resolve_right id
  exact ⟨first, rest, trivia, spelled⟩

/-- A list with a comment in it, and something behind it. -/
theorem fromString_sound_list :
    ∃ first rest, Trivia (trimRight (ascii "[1, // one\n 2] 3 ")) first ∧
      Value (converted rationals) (.list [.int 1, .int 2]) first rest :=
  fromString_sound rationals 12 (ascii "[1, // one\n 2] 3 ") (.list [.int 1, .int 2]) rfl

/-- A literal that spells a fraction in front of something that is no digit is one and
a half, digit by digit. -/
theorem one_and_a_half (tail : Bytes) {convert : Bytes → Double} {value : Double}
    {first rest : Bytes} (ends : ¬ isDigit (tail.headD 0)) (trivia : Trivia (ascii "1.5" ++ tail) first)
    (spelled : Value (fun literal _ => convert literal) (.double value) first rest) :
    value = convert (ascii "1.5") := by
  obtain rfl : first = ascii "1.5" ++ tail :=
    (Solid.of_head (ascii ".5" ++ tail) (by decide) (by decide)).stuck _ trivia
  generalize same : ascii "1.5" ++ tail = text at spelled
  cases spelled with
  | @double whole part _ digits fraction =>
    rw [List.append_assoc, List.cons_append] at same
    have noDot : byte '.' ∉ whole := fun member => absurd (digits.2 _ member) (by decide)
    have oneNoDot : byte '.' ∉ [byte '1'] := by decide
    obtain ⟨rfl, split⟩ := split_unique oneNoDot noDot same
    obtain ⟨char, more, rfl, _⟩ := fraction.cons
    obtain ⟨rfl, rfl⟩ := List.cons.inj split
    cases more with
    | nil => rfl
    | cons digit more =>
      exact absurd (fraction.2 digit (List.mem_cons_of_mem _ List.mem_cons_self)) ends

/-- No conversion of the literals by themselves explains what the parser returns: for
the whole literal `1.5`, it returns both one and a half and fifteen. -/
theorem fromString_reads_exponent :
    ¬ ∃ convert : Bytes → ℚ, ∀ fuel content value,
      fromString rationals fuel content = .ok value →
        ∃ first rest, Trivia (trimRight content) first ∧
          Value (fun literal _ => convert literal) value first rest := by
  rintro ⟨convert, sound⟩
  obtain ⟨_, _, trivia, spelled⟩ := sound 7 (ascii "1.5")
    (.double (rationals.strtof64 (ascii "1.5"))) rfl
  have short := one_and_a_half [] (by decide) trivia spelled
  obtain ⟨_, _, trivia, spelled⟩ := sound 7 (ascii "1.5e1")
    (.double (rationals.strtof64 (ascii "1.5e1"))) rfl
  have long := one_and_a_half (ascii "e1") (by decide) trivia spelled
  exact absurd (short.trans long.symm) (by decide +kernel)

end Luce.TinyJson
