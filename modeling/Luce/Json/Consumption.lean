/-
This file decides when `FromString` has read the whole text.

`Init` trims the text for a check at its end, but there is no such check: `Parse`
stops behind the value and what follows is not looked at. So everything is consumed
exactly when nothing but white space and complete comments follows a complete value
that stands at the beginning of the text.

What is read up to a rest is read alike in front of any other rest, a number only if it
ends there too. This connects the text with the trimmed text that is parsed.
-/

import Luce.Json.RoundTrip
import Mathlib.Logic.Relation

namespace Luce.TinyJson

open Library Library.Fuel

variable {Double : Type} {ops : FloatOps Double} {str : Bytes}

/-! ### Reading in front of another rest -/

/-- Up to the rest, the text is read like this in front of any other rest. -/
def ReadOff (again : Bytes → Bytes → Prop) (text rest : Bytes) : Prop :=
  ∃ read, text = read ++ rest ∧ ∀ other, again (read ++ other) other

section ReadOff

variable {again later whole : Bytes → Bytes → Prop} {text middle rest : Bytes}

theorem ReadOff.imp (reads : ReadOff again text rest)
    (weaker : ∀ text rest, again text rest → whole text rest) : ReadOff whole text rest := by
  obtain ⟨read, same, again⟩ := reads
  exact ⟨read, same, fun other => weaker _ _ (again other)⟩

theorem ReadOff.comp (start : ReadOff again text middle) (finish : ReadOff later middle rest) :
    ReadOff (Relation.Comp again later) text rest := by
  obtain ⟨read, rfl, again⟩ := start
  obtain ⟨more, rfl, later⟩ := finish
  refine ⟨read ++ more, (List.append_assoc _ _ _).symm, fun other => ?_⟩
  rw [List.append_assoc]
  exact ⟨_, again _, later other⟩

/-- The first character of the rest is read too. -/
theorem ReadOff.token {char : Byte} (reads : ReadOff again text (char :: rest)) :
    ReadOff (fun text rest => again text (char :: rest)) text rest := by
  obtain ⟨read, rfl, again⟩ := reads
  exact ⟨read ++ [char], by simp, fun other => by simpa using again (char :: other)⟩

/-- A character in front of the text is read before it. -/
theorem ReadOff.cons (char : Byte) (reads : ReadOff again text rest)
    (opens : ∀ text rest, again text rest → whole (char :: text) rest) :
    ReadOff whole (char :: text) rest := by
  obtain ⟨read, rfl, again⟩ := reads
  exact ⟨char :: read, rfl, fun other => opens _ _ (again other)⟩

end ReadOff

theorem Trivia.readOff {text rest : Bytes} (trivia : Trivia text rest) :
    ReadOff Trivia text rest := by
  induction trivia with
  | nil rest => exact ⟨[], rfl, .nil⟩
  | @space char _ _ blank _ inductionHypothesis =>
    exact inductionHypothesis.cons char fun _ _ => .space blank
  | @comment line _ _ oneLine _ inductionHypothesis =>
    obtain ⟨read, rfl, again⟩ := inductionHypothesis
    refine ⟨byte '/' :: byte '/' :: (line ++ byte '\n' :: read), by simp, fun other => ?_⟩
    have commented := Trivia.comment oneLine (again other)
    simpa using commented

/-- Both values end alike, and if one is a string then both are that string. -/
structure Alike {First Second : Type} (value : JObject First) (same : JObject Second) : Prop where
  ends : ∀ rest, Ends value rest ↔ Ends same rest
  key : ∀ key, value = .str key → same = .str key

section Reading

variable {Other : Type} {convert : Bytes → Bytes → Double} (convertAgain : Bytes → Bytes → Other)

/-- A value like this is spelled. -/
def SpelledAlike (value : JObject Double) (text rest : Bytes) : Prop :=
  ∃ same, Alike value same ∧ Value convertAgain same text rest

theorem SpelledAlike.key {convertAgain : Bytes → Bytes → Other} {key text rest : Bytes}
    (spelled : SpelledAlike convertAgain (.str key : JObject Double) text rest) :
    Value convertAgain (.str key) text rest := by
  obtain ⟨same, alike, spelled⟩ := spelled
  rwa [alike.key key rfl] at spelled

mutual

/-- What spells a value spells one like it in front of any other rest. -/
theorem Value.readOff {value : JObject Double} {text rest : Bytes} :
    Value convert value text rest → ReadOff (SpelledAlike convertAgain value) text rest
  | .null => ⟨ascii "null", rfl, fun _ => ⟨.null, ⟨fun _ => .rfl, nofun⟩, .null⟩⟩
  | @Value.bool _ _ value _ =>
    ⟨ascii (if value then "true" else "false"), rfl,
      fun _ => ⟨.bool value, ⟨fun _ => .rfl, nofun⟩, .bool⟩⟩
  | @Value.int _ _ whole _ digits =>
    ⟨whole, rfl, fun _ => ⟨.int (integer whole), ⟨fun _ => .rfl, nofun⟩, .int digits⟩⟩
  | @Value.double _ _ whole part _ digits fraction =>
    ⟨whole ++ byte '.' :: part, rfl, fun other =>
      ⟨.double (convertAgain (whole ++ byte '.' :: part) other), ⟨fun _ => .rfl, nofun⟩,
        .double digits fraction⟩⟩
  | @Value.str _ _ content _ escaped => by
    refine ⟨byte '"' :: (content ++ [byte '"']), by simp, fun other => ?_⟩
    have spelled : Value convertAgain (.str content) (byte '"' :: (content ++ byte '"' :: other))
        other := .str escaped
    exact ⟨.str content, ⟨fun _ => .rfl, fun _ => congrArg _ ∘ JObject.str.inj⟩,
      by simpa using spelled⟩
  | .emptyList close =>
    close.readOff.token.cons _ fun _ _ close =>
      ⟨.list [], ⟨fun _ => .rfl, nofun⟩, .emptyList close⟩
  | .list gap elements =>
    (gap.readOff.comp elements.readOff).cons _ fun _ _ ⟨_, gap, items, elements⟩ =>
      ⟨.list items, ⟨fun _ => .rfl, nofun⟩, .list gap elements⟩
  | .emptyDict close =>
    close.readOff.token.cons _ fun _ _ close =>
      ⟨.dict [], ⟨fun _ => .rfl, nofun⟩, .emptyDict close⟩
  | .dict gap pairs =>
    (gap.readOff.comp pairs.readOff).cons _ fun _ _ ⟨_, gap, members, pairs⟩ =>
      ⟨.dict (SortedMap.build JObject.keyBefore members), ⟨fun _ => .rfl, nofun⟩, .dict gap pairs⟩

theorem Elements.readOff {items : List (JObject Double)} {text rest : Bytes} :
    Elements convert items text rest →
      ReadOff (fun text rest => ∃ items, Elements convertAgain items text rest) text rest
  | .last value close =>
    (value.readOff.comp close.readOff.token).imp fun _ _ ⟨_, ⟨item, _, value⟩, close⟩ =>
      ⟨[item], .last value close⟩
  | .more value comma blank others =>
    (((value.readOff.comp comma.readOff.token).comp blank.readOff).comp others.readOff).imp
      fun _ _ ⟨_, ⟨_, ⟨_, ⟨item, _, value⟩, comma⟩, blank⟩, items, others⟩ =>
        ⟨item :: items, .more value comma blank others⟩

theorem Members.readOff {members : List (Bytes × JObject Double)} {text rest : Bytes} :
    Members convert members text rest →
      ReadOff (fun text rest => ∃ members, Members convertAgain members text rest) text rest
  | @Members.last _ _ key _ _ _ _ _ _ _ name colon blank value close =>
    ((((name.readOff.comp colon.readOff.token).comp blank.readOff).comp value.readOff).comp
      close.readOff.token).imp
      fun _ _ ⟨_, ⟨_, ⟨_, ⟨_, name, colon⟩, blank⟩, item, _, value⟩, close⟩ =>
        ⟨[(key, item)], .last name.key colon blank value close⟩
  | @Members.more _ _ key _ _ _ _ _ _ _ _ _ _ name colon blank value comma blankToo others =>
    ((((((name.readOff.comp colon.readOff.token).comp blank.readOff).comp value.readOff).comp
      comma.readOff.token).comp blankToo.readOff).comp others.readOff).imp
      fun _ _ ⟨_, ⟨_, ⟨_, ⟨_, ⟨_, ⟨_, name, colon⟩, blank⟩, item, _, value⟩, comma⟩, blankToo⟩,
          members, others⟩ =>
        ⟨(key, item) :: members, .more name.key colon blank value comma blankToo others⟩

end

end Reading

/-! ### Where numbers end -/

theorem At.rest_unique {idx : Nat} {first second : Bytes} (left : At str idx first)
    (right : At str idx second) : first = second :=
  left.drop.symm.trans right.drop

theorem notDigit_dropWhile (text : Bytes) : ¬ isDigit ((text.dropWhile isDigit).headD 0) := by
  have head := List.head?_dropWhile_not isDigit text
  cases dropped : text.dropWhile isDigit with
  | nil => decide
  | cons char more =>
    rw [dropped] at head
    simpa using head

/-- A number is read as far as it goes. -/
theorem parseNumber_ends {idx final : Nat} {text rest : Bytes} {value : JObject Double}
    (position : At str idx text) (returned : parseNumber ops str idx = .ok (value, final))
    (landed : At str final rest) : Ends value rest := by
  obtain ⟨-, whole⟩ := skipWhile_eq position isDigit
  rw [parseNumber_eq position] at returned
  dsimp only at returned
  split at returned
  case isFalse => cases returned
  split at returned
  case isTrue notDot =>
    cases returned
    rw [landed.rest_unique whole]
    exact ⟨notDigit_dropWhile text, notDot⟩
  rename_i dot
  split at returned
  case isFalse => cases returned
  cases returned
  rw [headD_eq_cons (not_not.mp dot) (by decide)] at whole
  rw [landed.rest_unique (skipWhile_eq whole.next isDigit).2]
  exact notDigit_dropWhile _

/-- What `Parse` returns ends where the parser stops. -/
theorem parse_ends {fuel idx final : Nat} {text first rest : Bytes} {value : JObject Double}
    (position : At str idx text) (trivia : Trivia text first)
    (spelled : Value (converted ops) value first rest)
    (returned : parse ops str fuel idx = .ok (value, final)) (landed : At str final rest) :
    Ends value rest := by
  have number : isDigit (first.headD 0) → Ends value rest := fun digit => by
    cases fuel with
    | zero => cases returned
    | succ fuel =>
      obtain ⟨start, opened, found | found, -⟩ :=
        getNextToken_token fuel position trivia spelled.solid spelled.notEmpty
      · rw [parse, found] at returned
        cases returned
      · simp only [parse, found, ok_bind, parseToken_number _ _ _ digit] at returned
        exact parseNumber_ends opened returned landed
  cases spelled with
  | int digits => exact number (digits.head _)
  | @double _ part _ digits _ =>
    have first := digits.head (byte '.' :: part ++ rest)
    rw [← List.append_assoc] at first
    exact number first
  | _ => trivial

/-! ### Trimming -/

/-- What `TrimRight` takes away is blank. -/
theorem exists_blanks (content : Bytes) :
    ∃ blanks, content = trimRight content ++ blanks ∧ ∀ char ∈ blanks, isSpace char :=
  ⟨content.rtakeWhile isSpace, List.rdropWhile_append_rtakeWhile.symm,
    fun _ member => List.mem_rtakeWhile_imp member⟩

/-- A value ends in front of blanks as it does at the end of the text. -/
theorem ends_append_iff {blanks : Bytes} (blank : ∀ char ∈ blanks, isSpace char)
    (value : JObject Double) (rest : Bytes) : Ends value (rest ++ blanks) ↔ Ends value rest := by
  cases rest with
  | cons char rest => cases value <;> exact .rfl
  | nil =>
    refine iff_of_true (Delimited.ends ?_ value) (Delimited.ends ⟨by decide, by decide⟩ value)
    cases blanks with
    | nil => exact ⟨by decide, by decide⟩
    | cons char blanks =>
      have here := blank char List.mem_cons_self
      exact ⟨fun digit => (opens_spec (Or.inr digit)).1 here,
        fun dot => absurd (show isSpace (byte '.') from dot ▸ here) (by decide)⟩

/-- Nothing is trimmed in front of a character that is no blank. -/
theorem trimRight_append {char : Byte} (notSpace : ¬ isSpace char) (front rest : Bytes) :
    trimRight (front ++ char :: rest) = front ++ char :: trimRight rest := by
  induction rest using List.reverseRecOn with
  | nil => exact List.rdropWhile_concat_neg _ _ _ notSpace
  | append_singleton rest last inductionHypothesis =>
    by_cases blank : isSpace last
    · rw [← List.cons_append, ← List.append_assoc, trimRight,
        List.rdropWhile_concat_pos _ _ _ blank, trimRight, List.rdropWhile_concat_pos _ _ _ blank]
      exact inductionHypothesis
    · rw [← List.cons_append, ← List.append_assoc, trimRight,
        List.rdropWhile_concat_neg _ _ _ blank, trimRight, List.rdropWhile_concat_neg _ _ _ blank,
        List.append_assoc, List.cons_append]

/-! ### What is left over -/

/-- `FromString` returns this value and leaves `idx_` there. -/
def ReturnsAt (ops : FloatOps Double) (content : Bytes) (value : JObject Double) (idx : Nat) :
    Prop :=
  ∃ fuel, parse ops (trimRight content) fuel 0 = .ok (value, idx)

/-- It returns a value in this sense exactly when it is accepted with it. -/
theorem exists_returnsAt_iff {content : Bytes} {value : JObject Double} :
    (∃ idx, ReturnsAt ops content value idx) ↔ ∃ fuel, fromString ops fuel content = .ok value := by
  constructor
  · rintro ⟨idx, fuel, out⟩
    exact ⟨fuel, by rw [fromString, out]; rfl⟩
  · rintro ⟨fuel, out⟩
    obtain ⟨⟨_, idx⟩, parsed, same⟩ := bind_eq_ok.mp out
    cases same
    exact ⟨idx, fuel, parsed⟩

/-- A complete value stands at the beginning of the text. -/
def Complete (text rest : Bytes) : Prop :=
  ∃ value : JObject Unit, Value (fun _ _ => ()) value text rest ∧ Ends value rest

/-- What `FromString` returns is a complete value, and the parser stops behind it. -/
theorem ReturnsAt.complete {content : Bytes} {value : JObject Double} {idx : Nat}
    (returned : ReturnsAt ops content value idx) :
    ∃ first, Trivia content first ∧ Complete first (content.drop idx) := by
  obtain ⟨fuel, out⟩ := returned
  have quiet : ¬ Dangling (converted ops) (trimRight content) := fun astray => by
    rw [parse_hangs astray fuel (At.start _) astray] at out
    cases out
  obtain ⟨first, trivia, rest, spelled, landed⟩ :=
    ((parse_whole quiet fuel).sound _ out).resolve_right id
  have ends := parse_ends (At.start _) trivia spelled out landed
  obtain ⟨blanks, whole, blank⟩ := exists_blanks content
  obtain ⟨gap, untrimmed, gapAgain⟩ := trivia.readOff
  obtain ⟨read, rfl, again⟩ := spelled.readOff fun _ _ => ()
  obtain ⟨same, alike, spelledAgain⟩ := again (rest ++ blanks)
  have behind : content.drop idx = rest ++ blanks :=
    calc content.drop idx
      _ = (trimRight content ++ blanks).drop idx := congrArg (List.drop idx) whole
      _ = (trimRight content).drop idx ++ blanks := List.drop_append_of_le_length landed.inside
      _ = rest ++ blanks := by rw [landed.drop]
  have leads := gapAgain (read ++ (rest ++ blanks))
  rw [← List.append_assoc read, ← List.append_assoc gap, ← untrimmed, ← whole,
    List.append_assoc] at leads
  exact ⟨_, leads, same, behind ▸ spelledAgain,
    behind ▸ (alike.ends _).mp ((ends_append_iff blank value rest).mpr ends)⟩

/-- A complete value is returned, whatever follows it. -/
theorem Complete.returned (ops : FloatOps Double) {content first rest : Bytes}
    (trivia : Trivia content first) (complete : Complete first rest) :
    ∃ value idx, ReturnsAt ops content value idx ∧ content.drop idx = rest := by
  obtain ⟨value, spelled, ends⟩ := complete
  obtain ⟨char, notSpace, front, last⟩ := spelled.ends
  obtain ⟨gap, rfl, gapAgain⟩ := trivia.readOff
  obtain ⟨read, rfl, again⟩ := spelled.readOff (converted ops)
  obtain rfl : front ++ [char] = read := by
    rwa [← List.append_cancel_right_eq _ rest, List.append_assoc]
  obtain ⟨same, alike, spelledAgain⟩ := again (trimRight rest)
  obtain ⟨blanks, whole, blank⟩ := exists_blanks rest
  have endsAgain : Ends same (trimRight rest) := by
    rw [← alike.ends, ← ends_append_iff blank, ← whole]
    exact ends
  have trimmed : trimRight (gap ++ (front ++ [char] ++ rest)) =
      gap ++ (front ++ [char] ++ trimRight rest) := by
    have kept := trimRight_append notSpace (gap ++ front) rest
    simpa only [List.append_assoc, List.singleton_append] using kept
  obtain ⟨idx, out, landed⟩ := spelledAgain.accepted _ (At.start _) (gapAgain _) endsAgain
    (Nat.lt_succ_self _)
  refine ⟨same, idx, ⟨_, trimmed ▸ out⟩, ?_⟩
  have length := landed.length
  have : idx = (gap ++ (front ++ [char])).length := by
    simp only [List.length_append] at length ⊢
    omega
  rw [this, ← List.append_assoc gap (front ++ [char]) rest, List.drop_left]

/-- Everything is consumed exactly when nothing but white space and complete comments
follows a complete value at the beginning of the text. -/
theorem fromString_consumes_iff (ops : FloatOps Double) (content : Bytes) :
    (∀ value idx, ReturnsAt ops content value idx → Trivia (content.drop idx) []) ↔
      ∀ first rest, Trivia content first → Complete first rest → Trivia rest [] := by
  constructor
  · intro consumes first rest trivia complete
    obtain ⟨value, idx, returned, behind⟩ := complete.returned ops trivia
    exact behind ▸ consumes value idx returned
  · intro alone value idx returned
    obtain ⟨first, trivia, complete⟩ := returned.complete
    exact alone first _ trivia complete

/-- A list with a bracket too many. -/
theorem fromString_leaves :
    ReturnsAt rationals (ascii "[1]]") (.list [.int 1]) 3 ∧
      ¬ Trivia ((ascii "[1]]").drop 3) [] := by
  refine ⟨⟨4, rfl⟩, fun trivia => ?_⟩
  have solid : Solid (ascii "]") := .of_separator (by decide) []
  exact absurd (solid.stuck _ trivia) (by decide)

end Luce.TinyJson
