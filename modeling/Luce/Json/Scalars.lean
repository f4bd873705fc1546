/-
This file proves that the parsers for `null`, booleans, numbers and strings read
exactly what the grammar allows at their index.

A number is the longest run of digits, with a fraction if a dot follows. A string
ends at the first quote that an even run of backslashes stands before: the parser
counts that run backwards from each quote it finds, and the opening quote stops
the count.
-/

import Luce.Json.Scan

namespace Luce.TinyJson

open Library Library.Fuel

variable {Double : Type} {ops : FloatOps Double} {str : Bytes}

/-- What the code makes of a fractional literal: the conversion is given the whole
text from the literal on. -/
def converted (ops : FloatOps Double) (literal rest : Bytes) : Double :=
  ops.strtof64 (cString (literal ++ rest))

/-- The text spells this value, up to this index. -/
def Spelled (ops : FloatOps Double) (str text : Bytes) (result : JObject Double × Nat) : Prop :=
  ∃ rest, Value (converted ops) result.1 text rest ∧ At str result.2 rest

/-- The run reads a value that the text spells, or it throws. -/
abbrev Spells (ops : FloatOps Double) (str text : Bytes) (run : Run (JObject Double × Nat)) :
    Prop :=
  Judged (Spelled ops str text) True False run

/-! ### Keywords -/

theorem parseNull_eq {idx : Nat} {text : Bytes} (position : At str idx text) :
    (parseNull str idx : Run (JObject Double × Nat)) =
      if ascii "null" <+: text then .ok (.null, idx + 4)
      else raise (.logicError "parse null error") := by
  simp only [parseNull, compare_eq position, ok_bind, decide_eq_true_eq]
  rfl

theorem parseBool_eq {idx : Nat} {text : Bytes} (position : At str idx text) :
    (parseBool str idx : Run (JObject Double × Nat)) =
      if ascii "true" <+: text then .ok (.bool true, idx + 4)
      else if ascii "false" <+: text then .ok (.bool false, idx + 5)
      else raise (.logicError "parse bool error") := by
  simp only [parseBool, compare_eq position, ok_bind, decide_eq_true_eq]
  rfl

theorem parseNull_spells {idx : Nat} {text : Bytes} (position : At str idx text) :
    Spells ops str text (parseNull str idx) := by
  rw [parseNull_eq position]
  split
  · rename_i starts
    obtain ⟨rest, rfl⟩ := starts
    exact .ok ⟨rest, .null, position.advance⟩
  · exact .raise _

theorem parseBool_spells {idx : Nat} {text : Bytes} (position : At str idx text) :
    Spells ops str text (parseBool str idx) := by
  rw [parseBool_eq position]
  split
  · rename_i starts
    obtain ⟨rest, rfl⟩ := starts
    exact .ok ⟨rest, .bool, position.advance⟩
  · split
    · rename_i starts
      obtain ⟨rest, rfl⟩ := starts
      exact .ok ⟨rest, .bool, position.advance⟩
    · exact .raise _

/-! ### Numbers -/

/-- Neither a digit nor a dot follows. -/
def Delimited (rest : Bytes) : Prop := ¬ isDigit (rest.headD 0) ∧ rest.headD 0 ≠ byte '.'

/-- A number ends before this rest and is no part of a longer one; other values end with
their last character. -/
def Ends : JObject Double → Bytes → Prop
  | .int _, rest => Delimited rest
  | .double _, rest => ¬ isDigit (rest.headD 0)
  | _, _ => True

theorem Delimited.ends {rest : Bytes} (delimited : Delimited rest) (value : JObject Double) :
    Ends value rest := by
  cases value with
  | int => exact delimited
  | double => exact delimited.1
  | _ => trivial

theorem strtol_takeWhile (text : Bytes) : strtol (text.takeWhile isDigit) = strtol text := by
  simp only [strtol, List.takeWhile_takeWhile, and_self, Bool.decide_eq_true]

/-- A run of digits that no digit follows is taken whole. -/
theorem takeWhile_digits {whole rest : Bytes} (digits : Digits whole)
    (ends : ¬ isDigit (rest.headD 0)) :
    (whole ++ rest).takeWhile isDigit = whole ∧ (whole ++ rest).dropWhile isDigit = rest := by
  rw [List.takeWhile_append_of_pos digits.2, List.dropWhile_append_of_pos digits.2]
  cases rest with
  | nil => simp
  | cons char rest =>
    have ends : ¬ isDigit char := ends
    rw [List.takeWhile_cons_of_neg ends, List.dropWhile_cons_of_neg ends, List.append_nil]
    exact ⟨rfl, rfl⟩

/-- A text that begins with a digit begins with a run of digits. -/
theorem digits_takeWhile {text : Bytes} (first : isDigit (text.headD 0)) :
    Digits (text.takeWhile isDigit) := by
  refine ⟨?_, fun char member => List.mem_takeWhile_imp member⟩
  cases text with
  | nil => exact absurd first (by decide)
  | cons char text =>
    rw [List.takeWhile_cons_of_pos (show isDigit char from first)]
    exact List.cons_ne_nil _ _

theorem headD_eq_cons {char : Byte} {text : Bytes} (head : text.headD 0 = char)
    (notZero : char ≠ 0) : text = char :: text.tail := by
  cases text with
  | nil => exact absurd head.symm notZero
  | cons other text => exact congrArg (· :: text) head

/-- Reading a number, by the runs of digits at its index. -/
theorem parseNumber_eq {idx : Nat} {text : Bytes} (position : At str idx text) :
    parseNumber ops str idx =
      if isDigit (text.headD 0) then
        let whole := text.takeWhile isDigit
        let more := text.dropWhile isDigit
        if more.headD 0 ≠ byte '.' then .ok (.int (integer whole), idx + whole.length)
        else if isDigit (more.tail.headD 0) then
          .ok (.double (ops.strtof64 (cString text)),
            idx + whole.length + 1 + (more.tail.takeWhile isDigit).length)
        else raise (.logicError "at least one digit required in parse float part!")
      else raise (.logicError "invalid character in number") := by
  obtain ⟨skipped, landed⟩ := skipWhile_eq position isDigit
  simp only [parseNumber, charAt_eq position, ok_bind, position.drop, skipped, charAt_eq landed,
    integer, strtol_takeWhile]
  by_cases first : isDigit (text.headD 0)
  · rw [if_neg (by simpa using first), if_pos first]
    by_cases dot : (text.dropWhile isDigit).headD 0 = byte '.'
    · rw [if_neg (not_not_intro dot), if_neg (not_not_intro dot)]
      rw [headD_eq_cons dot (by decide)] at landed
      obtain ⟨skippedToo, _⟩ := skipWhile_eq landed.next isDigit
      simp only [charAt_eq landed.next, ok_bind, skippedToo]
      by_cases second : isDigit ((text.dropWhile isDigit).tail.headD 0)
      · rw [if_neg (by simpa using second), if_pos second]
        rfl
      · rw [if_pos (by simpa using second), if_neg second]
    · rw [if_pos dot, if_pos dot]
      rfl
  · rw [if_pos (by simpa using first), if_neg first]

theorem parseNumber_spells {idx : Nat} {text : Bytes} (position : At str idx text) :
    Spells ops str text (parseNumber ops str idx) := by
  rw [parseNumber_eq position]
  split
  · rename_i first
    have digits := digits_takeWhile first
    obtain ⟨-, landed⟩ := skipWhile_eq position isDigit
    have split := List.takeWhile_append_dropWhile (p := isDigit) (l := text)
    generalize text.takeWhile isDigit = whole at digits landed split
    generalize text.dropWhile isDigit = more at landed split
    subst split
    dsimp only
    split
    · exact .ok ⟨more, .int digits, landed⟩
    · rename_i dot
      have dotted := headD_eq_cons (not_not.mp dot) (by decide)
      split
      · rename_i second
        have fraction := digits_takeWhile second
        rw [dotted] at landed
        obtain ⟨-, landed⟩ := skipWhile_eq landed.next isDigit
        have split := List.takeWhile_append_dropWhile (p := isDigit) (l := more.tail)
        generalize more.tail.takeWhile isDigit = part at fraction landed split
        generalize more.tail.dropWhile isDigit = rest at landed split
        rw [dotted, ← split]
        have spelled : Value (converted ops)
            (.double (converted ops (whole ++ byte '.' :: part) rest))
            (whole ++ byte '.' :: part ++ rest) rest := .double digits fraction
        simp only [converted, List.append_assoc, List.cons_append] at spelled
        exact .ok ⟨rest, spelled, landed⟩
      · exact .raise _
  · exact .raise _

theorem Digits.head {whole : Bytes} (digits : Digits whole) (rest : Bytes) :
    isDigit ((whole ++ rest).headD 0) := by
  obtain ⟨notEmpty, all⟩ := digits
  cases whole with
  | nil => exact absurd rfl notEmpty
  | cons char whole => exact all char List.mem_cons_self

theorem parseNumber_int {idx : Nat} {whole rest : Bytes} (digits : Digits whole)
    (delimited : Delimited rest) (position : At str idx (whole ++ rest)) :
    parseNumber ops str idx = .ok (.int (integer whole), idx + whole.length) := by
  obtain ⟨taken, dropped⟩ := takeWhile_digits digits delimited.1
  rw [parseNumber_eq position, if_pos (digits.head rest)]
  simp only [taken, dropped]
  rw [if_pos delimited.2]

theorem parseNumber_double {idx : Nat} {whole part rest : Bytes} (digits : Digits whole)
    (fraction : Digits part) (ends : ¬ isDigit (rest.headD 0))
    (position : At str idx (whole ++ byte '.' :: part ++ rest)) :
    parseNumber ops str idx =
      .ok (.double (converted ops (whole ++ byte '.' :: part) rest),
        idx + (whole ++ byte '.' :: part).length) := by
  rw [List.append_assoc, List.cons_append] at position
  have notDigit : ¬ isDigit ((byte '.' :: (part ++ rest)).headD 0) := by
    rw [List.headD_cons]
    decide
  obtain ⟨taken, dropped⟩ := takeWhile_digits digits notDigit
  rw [parseNumber_eq position, if_pos (digits.head _)]
  simp only [taken, dropped, List.headD_cons, List.tail_cons, ne_eq, not_true_eq_false, if_false,
    (takeWhile_digits fraction ends).1, if_pos (fraction.head rest), converted,
    List.append_assoc, List.cons_append, List.length_append, List.length_cons]
  rw [Nat.add_assoc, Nat.add_assoc, Nat.add_comm 1]

/-! ### Strings -/

/-- Every quote in the text stands behind an odd run of backslashes. -/
def QuotesEscaped (text : Bytes) : Prop :=
  ∀ before after, text = before ++ byte '"' :: after → backslashes before % 2 = 1

theorem wellEscaped_iff (text : Bytes) :
    WellEscaped text ↔ QuotesEscaped text ∧ backslashes text % 2 = 0 := by
  refine and_congr_left fun _ => ⟨?_, ?_⟩
  · rintro indexed before after rfl
    have odd := indexed before.length (by simp) (by simp)
    rwa [List.take_left] at odd
  · intro quotes idx inside isQuote
    refine quotes (text.take idx) (text.drop (idx + 1)) ?_
    obtain ⟨_, same⟩ := List.getElem?_eq_some_iff.mp isQuote
    rw [← same, List.getElem_cons_drop, List.take_append_drop]

theorem quotesEscaped_of_notMem {text : Bytes} (absent : byte '"' ∉ text) :
    QuotesEscaped text := by
  rintro before after rfl
  exact absurd (List.mem_append_right _ List.mem_cons_self) absent

/-- A text of escaped quotes can be continued behind an odd run of backslashes. -/
theorem QuotesEscaped.extend {content rest : Bytes} (quotes : QuotesEscaped content)
    (odd : backslashes content % 2 = 1) (absent : byte '"' ∉ rest) :
    QuotesEscaped (content ++ byte '"' :: rest) := by
  intro before after same
  rcases List.append_eq_append_iff.mp same with ⟨between, rfl, split⟩ | ⟨between, rfl, split⟩
  · cases between with
    | nil => rwa [List.append_nil]
    | cons char between =>
      rw [(List.cons.inj split).2] at absent
      exact absurd (List.mem_append_right _ List.mem_cons_self) absent
  · cases between with
    | nil => rwa [List.append_nil] at odd
    | cons char between =>
      obtain ⟨rfl, rfl⟩ := List.cons.inj split
      exact quotes before between rfl

/-- A text has at most one well-escaped string content at its start. -/
theorem content_unique {first second left right : Bytes} (escaped : WellEscaped first)
    (escapedToo : WellEscaped second)
    (same : first ++ byte '"' :: left = second ++ byte '"' :: right) :
    first = second ∧ left = right := by
  rw [wellEscaped_iff] at escaped escapedToo
  rcases List.append_eq_append_iff.mp same with ⟨between, rfl, split⟩ | ⟨between, rfl, split⟩
  · cases between with
    | nil => exact ⟨(List.append_nil _).symm, (List.cons.inj split).2⟩
    | cons char between =>
      obtain ⟨rfl, rfl⟩ := List.cons.inj split
      have := escapedToo.1 first between rfl
      omega
  · cases between with
    | nil => exact ⟨List.append_nil _, (List.cons.inj split).2.symm⟩
    | cons char between =>
      obtain ⟨rfl, rfl⟩ := List.cons.inj split
      have := escaped.1 second between rfl
      omega

theorem backslashes_concat (text : Bytes) (char : Byte) :
    backslashes (text ++ [char]) = if char = byte '\\' then backslashes text + 1 else 0 := by
  split
  · rename_i escape
    rw [backslashes, List.rtakeWhile_concat_pos _ _ _ (by simpa using escape), List.length_append]
    rfl
  · rename_i other
    rw [backslashes, List.rtakeWhile_concat_neg _ _ _ (by simpa using other)]
    rfl

theorem beforeEscapes_stop {pos : Nat} {char : Byte} (read : charAt str pos = .ok char)
    (other : char ≠ byte '\\') : beforeEscapes str pos = .ok pos := by
  cases pos <;> simp only [beforeEscapes, read, ok_bind, if_neg other] <;> rfl

/-- Behind an opening quote, the backwards count ends before the run of backslashes. -/
theorem beforeEscapes_eq {start : Nat} (content : Bytes) : ∀ {rest : Bytes},
    At str start (byte '"' :: (content ++ rest)) →
      beforeEscapes str (start + content.length) =
        .ok (start + content.length - backslashes content) := by
  induction content using List.reverseRecOn with
  | nil =>
    intro rest position
    exact beforeEscapes_stop (charAt_eq position) (show byte '"' ≠ byte '\\' by decide)
  | append_singleton content char inductionHypothesis =>
    intro rest position
    rw [List.append_assoc, List.singleton_append] at position
    have here : At str (start + content.length + 1) (char :: rest) := by
      rw [Nat.add_right_comm]
      exact position.next.advance
    rw [List.length_append, List.length_singleton, ← Nat.add_assoc]
    by_cases escape : char = byte '\\'
    · have run : backslashes (content ++ [char]) = backslashes content + 1 := by
        rw [backslashes_concat, if_pos escape]
      simp only [beforeEscapes, charAt_eq here, ok_bind, List.headD_cons, if_pos escape,
        inductionHypothesis position, run, Nat.add_sub_add_right]
    · have run : backslashes (content ++ [char]) = 0 := by
        rw [backslashes_concat, if_neg escape]
      rw [run, beforeEscapes_stop (charAt_eq here) escape]
      rfl

theorem backslashes_le (text : Bytes) : backslashes text ≤ text.length :=
  (List.rtakeWhile_suffix _ text).length_le

theorem isEscConsume_eq {start : Nat} {content rest : Bytes}
    (position : At str start (byte '"' :: (content ++ rest))) :
    isEscConsume str (start + content.length) =
      .ok (decide (backslashes content % 2 = 0)) := by
  have := backslashes_le content
  have count : start + content.length - (start + content.length - backslashes content) =
      backslashes content := by omega
  simp only [isEscConsume, beforeEscapes_eq content position, ok_bind, count]
  rfl

/-- The character before a quote is the last one of the content, or the opening quote. -/
theorem charAt_last {start : Nat} {content rest : Bytes}
    (position : At str start (byte '"' :: (content ++ rest))) :
    ∃ last, charAt str (start + content.length) = .ok last ∧
      (last ≠ byte '\\' → backslashes content = 0) := by
  rcases List.eq_nil_or_concat' content with rfl | ⟨content, char, rfl⟩
  · exact ⟨_, charAt_eq position, fun _ => rfl⟩
  · rw [List.append_assoc, List.singleton_append] at position
    have here : At str (start + 1 + content.length) (char :: rest) := position.next.advance
    refine ⟨char, ?_, fun other => ?_⟩
    · rw [List.length_append, List.length_singleton, Nat.add_comm content.length, ← Nat.add_assoc]
      exact charAt_eq here
    · rw [backslashes_concat, if_neg other]

/-- At a quote, the loop stops when an even run of backslashes stands before it. -/
theorem closingQuote_step {start : Nat} {content rest : Bytes}
    (position : At str start (byte '"' :: (content ++ byte '"' :: rest))) :
    closingQuote str (start + 1 + content.length) =
      if backslashes content % 2 = 0 then .ok (start + 1 + content.length)
      else match find str (byte '"') (start + 1 + content.length + 1) with
        | none => raise (.logicError "expected left '\"' in parse string")
        | some next => closingQuote str next := by
  have index : start + 1 + content.length - 1 = start + content.length := by omega
  obtain ⟨last, read, notEscape⟩ := charAt_last position
  rw [closingQuote, index]
  simp only [read, isEscConsume_eq position, ok_bind, decide_eq_true_eq]
  by_cases escape : last = byte '\\'
  · rw [if_neg (not_not_intro escape)]
    split
    · rfl
    · split <;> simp only [*]
  · rw [if_pos escape, if_pos (by rw [notEscape escape])]
    rfl

/-- From a quote behind escaped quotes, the loop finds the quote that ends a
well-escaped content, and throws when there is none. -/
theorem closingQuote_spec {start : Nat} (count : Nat) : ∀ {content rest : Bytes},
    rest.length < count → QuotesEscaped content →
    At str start (byte '"' :: (content ++ byte '"' :: rest)) →
      (∃ closed after, content ++ byte '"' :: rest = closed ++ byte '"' :: after ∧
        WellEscaped closed ∧
        closingQuote str (start + 1 + content.length) = .ok (start + 1 + closed.length)) ∨
      closingQuote str (start + 1 + content.length) =
          raise (.logicError "expected left '\"' in parse string") ∧
        ∀ closed after, content ++ byte '"' :: rest = closed ++ byte '"' :: after →
          ¬ WellEscaped closed := by
  induction count with
  | zero => exact fun none => absurd none (Nat.not_lt_zero _)
  | succ count inductionHypothesis =>
    intro content rest bound quotes position
    rw [closingQuote_step position]
    split
    · rename_i even
      exact Or.inl ⟨content, rest, rfl, (wellEscaped_iff _).mpr ⟨quotes, even⟩, rfl⟩
    · rename_i odd
      have odd : backslashes content % 2 = 1 := by omega
      have behind : At str (start + 1 + content.length + 1) rest := position.next.advance.next
      rcases split_first (byte '"') rest with absent | ⟨before, after, absent, rfl⟩
      · rw [find_eq_none absent behind]
        refine Or.inr ⟨rfl, fun closed after same escaped => ?_⟩
        have := quotes.extend odd absent closed after same
        have := escaped.2
        omega
      · rw [find_eq_some absent behind]
        rw [List.length_append, List.length_cons] at bound
        have regrouped : content ++ byte '"' :: (before ++ byte '"' :: after) =
            content ++ byte '"' :: before ++ byte '"' :: after := by
          rw [List.append_assoc, List.cons_append]
        have index : start + 1 + content.length + 1 + before.length =
            start + 1 + (content ++ byte '"' :: before).length := by
          rw [List.length_append, List.length_cons]
          omega
        rw [regrouped] at position ⊢
        rw [index]
        exact inductionHypothesis (by omega) (quotes.extend odd absent) position

/-- A string is read exactly when its quote is closed: the content is well escaped and
the final index is behind the closing quote. -/
theorem parseString_spec (Double : Type) {idx : Nat} {text : Bytes}
    (position : At str idx (byte '"' :: text)) :
    (∃ content after final, text = content ++ byte '"' :: after ∧ WellEscaped content ∧
      parseString str idx = .ok ((.str content : JObject Double), final) ∧ At str final after) ∨
    (∃ error, (parseString str idx : Run (JObject Double × Nat)) = raise error) ∧
      ∀ content after, text = content ++ byte '"' :: after → ¬ WellEscaped content := by
  rcases split_first (byte '"') text with absent | ⟨content, rest, absent, rfl⟩
  · refine Or.inr ⟨⟨.logicError "parse string error", ?_⟩, ?_⟩
    · simp only [parseString, find_eq_none absent position.next]
    · rintro content after rfl
      exact absurd (List.mem_append_right _ List.mem_cons_self) absent
  · have found := find_eq_some absent position.next
    rcases closingQuote_spec (rest.length + 1) (Nat.lt_succ_self _)
      (quotesEscaped_of_notMem absent) position with
      ⟨closed, after, same, escaped, out⟩ | ⟨out, none⟩
    · rw [same] at position
      refine Or.inl ⟨closed, after, idx + 1 + closed.length + 1, same, escaped, ?_, ?_⟩
      · have taken : (str.drop (idx + 1)).take (idx + 1 + closed.length - (idx + 1)) = closed := by
          rw [position.next.drop, Nat.add_sub_cancel_left, List.take_left]
        simp only [parseString, found, out, ok_bind, taken]
        rfl
      · exact position.next.advance.next
    · refine Or.inr ⟨⟨.logicError "expected left '\"' in parse string", ?_⟩, none⟩
      simp only [parseString, found, out, raise_bind]

theorem parseString_spells {idx : Nat} {text : Bytes}
    (position : At str idx (byte '"' :: text)) :
    Spells ops str (byte '"' :: text) (parseString str idx) := by
  rcases parseString_spec Double position with
    ⟨content, after, final, rfl, escaped, out, landed⟩ | ⟨⟨error, out⟩, _⟩
  · rw [out]
    exact .ok ⟨after, .str escaped, landed⟩
  · rw [out]
    exact .raise _

theorem parseString_accepts {idx : Nat} {content rest : Bytes} (escaped : WellEscaped content)
    (position : At str idx (byte '"' :: (content ++ byte '"' :: rest))) :
    ∃ final, parseString str idx = .ok ((.str content : JObject Double), final) ∧
      At str final rest := by
  rcases parseString_spec Double position with
    ⟨other, after, final, same, escapedToo, out, landed⟩ | ⟨_, none⟩
  · obtain ⟨rfl, rfl⟩ := content_unique escaped escapedToo same
    exact ⟨final, out, landed⟩
  · exact absurd escaped (none content rest rfl)

end Luce.TinyJson
