/-
This file compares two ways of finding the end of a string.

`ParseString` goes from quote to quote and counts the backslashes in front of each of
them backwards. A scanner that reads every character once only remembers whether the
next one is to be skipped. What it remembers after a text is the parity of the run of
backslashes at the end of the text, and so both stop at the same quote.
-/

import Luce.Json.Scalars

namespace Luce.TinyJson

open Library Library.Fuel

/-! ### The scanner -/

/-- Whether the next character is skipped, after this one. -/
def skipsAfter (skips : Bool) (char : Byte) : Bool := !skips && char = byte '\\'

/-- How many characters there are before the first quote that is not skipped. -/
def scanQuote : Bool → Bytes → Option Nat
  | _, [] => none
  | skips, char :: rest =>
    if !skips && char = byte '"' then some 0
    else (scanQuote (skipsAfter skips char) rest).map (· + 1)

/-- Whether the character behind a text is skipped. -/
def skipsBehind (text : Bytes) : Bool := text.foldl skipsAfter false

theorem skipsBehind_concat (text : Bytes) (char : Byte) :
    skipsBehind (text ++ [char]) = skipsAfter (skipsBehind text) char := by
  rw [skipsBehind, List.foldl_append]
  rfl

/-- A character is skipped exactly when an odd run of backslashes stands before it. -/
theorem skipsBehind_iff (text : Bytes) :
    skipsBehind text = true ↔ backslashes text % 2 = 1 := by
  induction text using List.reverseRecOn with
  | nil => decide
  | append_singleton text char inductionHypothesis =>
    rw [skipsBehind_concat, backslashes_concat, skipsAfter]
    by_cases escape : char = byte '\\'
    · rw [if_pos escape, decide_eq_true escape, Bool.and_true, Bool.not_eq_true', Bool.eq_false_iff,
        ne_eq, inductionHypothesis]
      omega
    · rw [if_neg escape, decide_eq_false escape, Bool.and_false]
      decide

/-! ### What the scanner finds -/

theorem QuotesEscaped.concat {text : Bytes} {char : Byte} (quotes : QuotesEscaped text)
    (skipped : char = byte '"' → skipsBehind text = true) : QuotesEscaped (text ++ [char]) := by
  by_cases quote : char = byte '"'
  · subst quote
    exact quotes.extend ((skipsBehind_iff text).mp (skipped rfl)) List.not_mem_nil
  · rintro before after same
    rcases List.eq_nil_or_concat' after with rfl | ⟨after, last, rfl⟩
    · exact absurd (List.append_inj' same rfl).2 (by simpa using quote)
    · refine quotes before after ?_
      rw [← List.cons_append, ← List.append_assoc] at same
      exact (List.append_inj' same rfl).1

/-- Behind a text of escaped quotes, the scanner finds the quote that ends a well-escaped
content, if there is one. -/
theorem scanQuote_spec {before : Bytes} (quotes : QuotesEscaped before) (rest : Bytes) :
    (∃ content after, rest = content ++ byte '"' :: after ∧ WellEscaped (before ++ content) ∧
      scanQuote (skipsBehind before) rest = some content.length) ∨
    scanQuote (skipsBehind before) rest = none ∧
      ∀ content after, rest = content ++ byte '"' :: after → ¬ WellEscaped (before ++ content) := by
  induction rest generalizing before with
  | nil => exact Or.inr ⟨rfl, fun content after same => by simp at same⟩
  | cons char rest inductionHypothesis =>
    rw [scanQuote]
    by_cases ends : (!skipsBehind before && decide (char = byte '"')) = true
    · obtain ⟨reads, quote⟩ := Bool.and_eq_true_iff.mp ends
      have even : ¬ backslashes before % 2 = 1 := by
        rw [← skipsBehind_iff]
        simpa using reads
      refine Or.inl ⟨[], rest, ?_, ?_, ?_⟩
      · rw [of_decide_eq_true quote, List.nil_append]
      · rw [List.append_nil, wellEscaped_iff]
        exact ⟨quotes, by omega⟩
      · rw [if_pos ends, List.length_nil]
    · rw [if_neg ends, ← skipsBehind_concat]
      have skipped : char = byte '"' → skipsBehind before = true := fun quote => by
        simpa [quote] using ends
      rcases inductionHypothesis (quotes.concat skipped) with
        ⟨content, after, rfl, escaped, found⟩ | ⟨found, none⟩
      · refine Or.inl ⟨char :: content, after, rfl, ?_, ?_⟩
        · rwa [List.append_assoc, List.singleton_append] at escaped
        · rw [found, Option.map_some, List.length_cons]
      · refine Or.inr ⟨by rw [found, Option.map_none], fun content after same escaped => ?_⟩
        cases content with
        | nil =>
          -- the quote itself would have to be one that is not skipped
          have odd := (skipsBehind_iff before).mp (skipped (List.cons.inj same).1)
          rw [List.append_nil] at escaped
          have := escaped.2
          omega
        | cons other content =>
          obtain ⟨rfl, more⟩ := List.cons.inj same
          refine none content after more ?_
          rwa [List.append_assoc, List.singleton_append]

/-! ### ParseString -/

/-- What `ParseString` throws. -/
def unclosed (text : Bytes) : ParseError :=
  .logicError (if byte '"' ∈ text then "expected left '\"' in parse string"
    else "parse string error")

/-- A string is closed by a quote behind a well-escaped content, or there is none and
`ParseString` throws. -/
theorem parseString_closed (Double : Type) {str text : Bytes} {idx : Nat}
    (position : At str idx (byte '"' :: text)) :
    (∃ content after, text = content ++ byte '"' :: after ∧ WellEscaped content ∧
      parseString str idx = .ok ((.str content : JObject Double), idx + 1 + content.length + 1)) ∨
    (parseString str idx : Run (JObject Double × Nat)) = raise (unclosed text) ∧
      ∀ content after, text = content ++ byte '"' :: after → ¬ WellEscaped content := by
  rcases parseString_spec Double position with
    ⟨content, after, final, rfl, escaped, out, landed⟩ | ⟨_, none⟩
  · refine Or.inl ⟨content, after, rfl, escaped, ?_⟩
    rw [out, landed.index_unique position.next.advance.next]
  · refine Or.inr ⟨?_, none⟩
    rw [unclosed]
    rcases split_first (byte '"') text with absent | ⟨before, rest, absent, rfl⟩
    · simp only [parseString, find_eq_none absent position.next, if_neg absent]
    · have found := find_eq_some absent position.next
      rcases closingQuote_spec (rest.length + 1) (Nat.lt_succ_self _)
        (quotesEscaped_of_notMem absent) position with ⟨closed, after, same, escaped, _⟩ | ⟨out, _⟩
      · exact absurd escaped (none closed after same)
      · have member : byte '"' ∈ before ++ byte '"' :: rest := by simp
        simp only [parseString, found, out, raise_bind, if_pos member]

theorem at_of_getElem? {str : Bytes} {idx : Nat} {char : Byte} (here : str[idx]? = some char) :
    At str idx (char :: str.drop (idx + 1)) := by
  obtain ⟨inside, same⟩ := List.getElem?_eq_some_iff.mp here
  exact ⟨inside.le, by rw [List.drop_eq_getElem_cons inside, same]⟩

/-- From an opening quote on, `ParseString` returns the text before the quote that the
scanner finds, with the index behind that quote, and throws where the scanner finds none. -/
theorem parseString_eq_scan (Double : Type) (str : Bytes) (idx : Nat)
    (opening : str[idx]? = some (byte '"')) :
    (parseString str idx : Run (JObject Double × Nat)) =
      match scanQuote false (str.drop (idx + 1)) with
      | some count => .ok (.str ((str.drop (idx + 1)).take count), idx + 1 + count + 1)
      | none => raise (unclosed (str.drop (idx + 1))) := by
  have position := at_of_getElem? opening
  generalize str.drop (idx + 1) = text at position ⊢
  have scanned := scanQuote_spec (quotesEscaped_of_notMem List.not_mem_nil) text
  simp only [List.nil_append, skipsBehind, List.foldl_nil] at scanned
  rcases parseString_closed Double position with
    ⟨content, after, rfl, escaped, out⟩ | ⟨out, refused⟩
  · rcases scanned with ⟨other, behind, same, escapedToo, found⟩ | ⟨_, none⟩
    · obtain ⟨rfl, rfl⟩ := content_unique escaped escapedToo same
      simp only [out, found, List.take_left]
    · exact absurd escaped (none content after rfl)
  · rcases scanned with ⟨content, after, same, escaped, _⟩ | ⟨found, _⟩
    · exact absurd escaped (refused content after same)
    · rw [out, found]

/-- An escaped quote and an escaped backslash before the closing quote. -/
theorem parseString_eq_scan_escapes :
    (parseString (ascii "[\"a\\\"b\\\\\", 1]") 1 : Run (JObject Nat × Nat)) =
      .ok (.str (ascii "a\\\"b\\\\"), 9) :=
  parseString_eq_scan Nat _ 1 (by decide)

end Luce.TinyJson
