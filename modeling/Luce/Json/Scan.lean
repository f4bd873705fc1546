/-
This file says what the scanners of the parser do, in terms of what is left of the
text at the current index.

A scanner finds its end by an index into the whole string; `At str idx rest` ties
an index to the text from there on. The token scanner skips trivia. Where it meets
an unterminated comment it starts over at the beginning of the string, and so it
ends at the string's own first token, or never.
-/

import Luce.Json.Grammar

namespace Luce.TinyJson

open Library Library.Fuel

variable {str : Bytes}

/-! ### Positions -/

/-- The index is inside the string, and this is the text from there on. -/
structure At (str : Bytes) (idx : Nat) (rest : Bytes) : Prop where
  inside : idx ≤ str.length
  drop : str.drop idx = rest

theorem At.start (str : Bytes) : At str 0 str := ⟨Nat.zero_le _, rfl⟩

theorem At.length {idx : Nat} {rest : Bytes} (position : At str idx rest) :
    idx + rest.length = str.length := by
  obtain ⟨inside, rfl⟩ := position
  rw [List.length_drop]
  omega

theorem At.advance {idx : Nat} {read rest : Bytes} (position : At str idx (read ++ rest)) :
    At str (idx + read.length) rest := by
  have length := position.length
  rw [List.length_append] at length
  refine ⟨by omega, ?_⟩
  rw [← List.drop_drop, position.drop, List.drop_left]

theorem At.next {idx : Nat} {char : Byte} {rest : Bytes} (position : At str idx (char :: rest)) :
    At str (idx + 1) rest :=
  have position : At str idx ([char] ++ rest) := position
  position.advance

theorem At.suffix {idx : Nat} {text rest : Bytes} (position : At str idx text)
    (suffix : rest <:+ text) : ∃ next, At str next rest := by
  obtain ⟨read, rfl⟩ := suffix
  exact ⟨_, position.advance⟩

theorem At.index_unique {first second : Nat} {rest : Bytes} (left : At str first rest)
    (right : At str second rest) : first = second := by
  have := left.length
  have := right.length
  omega

/-! ### Scanners -/

theorem charAt_eq {idx : Nat} {rest : Bytes} (position : At str idx rest) :
    charAt str idx = .ok (rest.headD 0) := by
  obtain ⟨inside, rfl⟩ := position
  rw [charAt, if_pos inside]
  simp [List.getD_eq_getElem?_getD, List.headD_eq_head?_getD]

theorem compare_eq {idx : Nat} {rest : Bytes} (position : At str idx rest) (text : Bytes) :
    compare str idx text = .ok (decide (text <+: rest)) := by
  obtain ⟨inside, rfl⟩ := position
  rw [compare, if_pos inside]
  simp only [List.prefix_iff_eq_take, eq_comm]

theorem skipWhile_eq {idx : Nat} {rest : Bytes} (position : At str idx rest)
    (condition : Byte → Bool) :
    skipWhile str condition idx = .ok (idx + (rest.takeWhile condition).length) ∧
      At str (idx + (rest.takeWhile condition).length) (rest.dropWhile condition) := by
  refine ⟨?_, At.advance (by rwa [List.takeWhile_append_dropWhile])⟩
  rw [skipWhile, if_pos position.inside, position.drop]

/-- `find` gives the first occurrence. -/
theorem find_eq_some {idx : Nat} {char : Byte} {before rest : Bytes} (absent : char ∉ before)
    (position : At str idx (before ++ char :: rest)) :
    find str char idx = some (idx + before.length) := by
  have taken : (before ++ char :: rest).takeWhile (· ≠ char) = before := by
    rw [List.takeWhile_append_of_pos fun other member => by
      simpa using fun equal : other = char => absent (equal ▸ member)]
    simp
  have length := position.length
  rw [List.length_append, List.length_cons] at length
  simp only [find, position.drop, taken]
  rw [if_pos (by omega)]

theorem find_eq_none {idx : Nat} {char : Byte} {rest : Bytes} (absent : char ∉ rest)
    (position : At str idx rest) : find str char idx = none := by
  have taken : rest.takeWhile (· ≠ char) = rest :=
    List.takeWhile_eq_self_iff.mpr fun other member => by
      simpa using fun equal : other = char => absent (equal ▸ member)
  simp only [find, position.drop, taken, position.length]
  rw [if_neg (Nat.lt_irrefl _)]

/-- A text has no such character, or it splits at the first one. -/
theorem split_first (char : Byte) (text : Bytes) :
    char ∉ text ∨ ∃ before rest, char ∉ before ∧ text = before ++ char :: rest := by
  by_cases member : char ∈ text
  · obtain ⟨before, rest, rfl, absent⟩ := List.eq_append_cons_of_mem member
    exact Or.inr ⟨before, rest, absent, rfl⟩
  · exact Or.inl member

/-! ### Tokens -/

/-- Where the scanner for the next token ends: behind the trivia, or, where the text
is stranded, behind the trivia at the beginning of the string. -/
def Lands (str rest next : Bytes) : Prop := Trivia rest next ∨ Stranded rest ∧ Trivia str next

theorem Lands.of_trivia {rest more next : Bytes} (trivia : Trivia rest more)
    (lands : Lands str more next) : Lands str rest next :=
  lands.imp trivia.trans fun astray => ⟨trivia.stranded astray.1, astray.2⟩

theorem notSpace_dropWhile (text : Bytes) (char : Byte) (rest : Bytes)
    (same : text.dropWhile isSpace = char :: rest) : ¬ isSpace char := by
  have head := List.head?_dropWhile_not isSpace text
  rw [same] at head
  simpa using head

/-- One turn of the loop over comments, from the index where the next line begins. -/
theorem commentLoop_step (fuel : Nat) {idx start : Nat} {text : Bytes}
    (inside : find str (byte '\n') idx ≠ some str.length)
    (resumes : lineBehind (find str (byte '\n') idx) = start)
    (position : At str start text) :
    ∃ next more, At str next more ∧ Trivia text more ∧
      (¬ ascii "//" <+: more → Solid more) ∧
      commentLoop str (fuel + 1) idx =
        if ascii "//" <+: more then commentLoop str fuel next else .ok next := by
  obtain ⟨skipped, landed⟩ := skipWhile_eq position isSpace
  refine ⟨_, _, landed, .dropWhile text,
    fun notComment => ⟨notSpace_dropWhile text, notComment⟩, ?_⟩
  have compared := compare_eq landed (ascii "//")
  rw [commentLoop]
  simp only [if_neg inside, resumes, skipped, ok_bind, compared, decide_eq_true_eq]
  rfl

/-- The loop over comments lands at a solid place, or it runs out of fuel. With
fuel for what is left it does so only when stranded, with fuel for the whole string
besides only when the string itself is. -/
theorem commentLoop_spec (fuel : Nat) : ∀ {idx : Nat} {rest : Bytes}, At str idx rest →
    ascii "//" <+: rest →
      commentLoop str fuel idx = exhausted ∧ (rest.length ≤ fuel → Stranded rest) ∧
          (rest.length + str.length ≤ fuel → Stranded str) ∨
        ∃ final next, commentLoop str fuel idx = .ok final ∧ At str final next ∧ Solid next ∧
          Lands str rest next := by
  induction fuel with
  | zero =>
    rintro idx _ _ ⟨line, rfl⟩
    exact Or.inl ⟨rfl, fun none => absurd none (by simp [ascii]),
      fun none => absurd none (by simp [ascii])⟩
  | succ fuel inductionHypothesis =>
    rintro idx _ position ⟨line, rfl⟩
    rcases split_first (byte '\n') line with endless | ⟨line, text, oneLine, rfl⟩
    · -- `find` gives `npos`, and the scan starts over at the beginning
      have stranded : Stranded (ascii "//" ++ line) := ⟨_, .nil _, .comment endless⟩
      have notFound : find str (byte '\n') idx = none :=
        find_eq_none (List.not_mem_append (by decide) endless) position
      obtain ⟨next, more, landed, trivia, solid, step⟩ := commentLoop_step fuel
        (notFound ▸ (Option.some_ne_none _).symm) (congrArg lineBehind notFound) (At.start str)
      rw [step]
      split
      · rename_i again
        rcases inductionHypothesis landed again with
          ⟨out, enough, _⟩ | ⟨final, rest, out, at', solid, lands⟩
        · refine Or.inl ⟨out, fun _ => stranded, fun fits => trivia.stranded (enough ?_)⟩
          have := trivia.length_le
          simp only [List.length_append, ascii, List.length_map] at fits
          have : 0 < "//".toList.length := by decide
          omega
        · exact Or.inr ⟨final, rest, out, at', solid, Or.inr ⟨stranded,
            (Lands.of_trivia trivia lands).elim id And.right⟩⟩
      · exact Or.inr ⟨next, more, rfl, landed, solid ‹_›, Or.inr ⟨stranded, trivia⟩⟩
    · have found : find str (byte '\n') idx = some (idx + (ascii "//" ++ line).length) :=
        find_eq_some (List.not_mem_append (by decide) oneLine) (by rwa [List.append_assoc])
      have behind : At str (idx + (ascii "//" ++ line).length + 1) text := by
        have line : At str idx ((ascii "//" ++ line ++ [byte '\n']) ++ text) := by
          simpa only [List.append_assoc, List.singleton_append] using position
        simpa only [List.length_append, List.length_singleton, Nat.add_assoc] using line.advance
      have skipped : Trivia (ascii "//" ++ (line ++ byte '\n' :: text)) text :=
        .comment oneLine (.nil _)
      obtain ⟨next, more, landed, trivia, solid, step⟩ := commentLoop_step fuel
        (found ▸ fun atEnd => by
          have := behind.inside
          have := Option.some.inj atEnd
          omega) (congrArg lineBehind found) behind
      have shorter : more.length < (ascii "//" ++ (line ++ byte '\n' :: text)).length := by
        have := trivia.length_le
        simp only [List.length_append, List.length_cons]
        omega
      have leads := skipped.trans trivia
      rw [step]
      split
      · rename_i again
        rcases inductionHypothesis landed again with
          ⟨out, enough, enoughToo⟩ | ⟨final, rest, out, at', solid, lands⟩
        · exact Or.inl ⟨out, fun fits => leads.stranded (enough (by omega)),
            fun fits => enoughToo (by omega)⟩
        · exact Or.inr ⟨final, rest, out, at', solid, lands.of_trivia leads⟩
      · exact Or.inr ⟨next, more, rfl, landed, solid ‹_›, Or.inl leads⟩

/-- The scanner for the next token throws at the end of the text, lands at a solid
place and returns what is there, or runs out of fuel. -/
theorem getNextToken_spec (fuel : Nat) {idx : Nat} {rest : Bytes} (position : At str idx rest) :
    getNextToken str fuel idx =
        raise (.logicError "Unexpected character in parse json") ∧ Trivia rest [] ∨
      getNextToken str fuel idx = exhausted ∧ (rest.length ≤ fuel → Stranded rest) ∧
          (rest.length + str.length ≤ fuel → Stranded str) ∨
        ∃ final next, getNextToken str fuel idx = .ok (next.headD 0, final) ∧
          At str final next ∧ Solid next ∧ Lands str rest next := by
  obtain ⟨skipped, landed⟩ := skipWhile_eq position isSpace
  have trivia := Trivia.dropWhile rest
  have compared := compare_eq landed (ascii "//")
  have length := landed.length
  have notSpace := notSpace_dropWhile rest
  generalize idx + (rest.takeWhile isSpace).length = start at skipped landed compared length
  generalize rest.dropWhile isSpace = more at landed trivia compared length notSpace
  simp only [getNextToken, skipped, ok_bind]
  by_cases empty : more = []
  · subst empty
    rw [if_pos (by simpa using length.ge)]
    exact Or.inl ⟨rfl, trivia⟩
  have notEmpty : 0 < more.length := List.length_pos_iff.mpr empty
  rw [if_neg (by omega)]
  simp only [skipComment, compared, ok_bind, decide_eq_true_eq]
  refine Or.inr ?_
  split
  · rename_i comment
    rcases commentLoop_spec fuel landed comment with
      ⟨out, enough, enoughToo⟩ | ⟨final, next, out, landed, solid, lands⟩
    · have := trivia.length_le
      exact Or.inl ⟨by rw [out]; rfl, fun fits => trivia.stranded (enough (by omega)),
        fun fits => enoughToo (by omega)⟩
    · refine Or.inr ⟨final, next, ?_, landed, solid, lands.of_trivia trivia⟩
      rw [out, ok_bind, charAt_eq landed]
      rfl
  · rename_i notComment
    refine Or.inr ⟨start, more, ?_, landed, ⟨notSpace, notComment⟩, Or.inl trivia⟩
    rw [pure_bind, charAt_eq landed]
    rfl

/-- Where a token follows, the scanner finds it. -/
theorem getNextToken_token (fuel : Nat) {idx : Nat} {rest next : Bytes}
    (position : At str idx rest) (trivia : Trivia rest next) (solid : Solid next)
    (notEmpty : next ≠ []) :
    ∃ final, At str final next ∧
      Approximates (getNextToken str fuel idx) (.ok (next.headD 0, final)) ∧
      (rest.length ≤ fuel → getNextToken str fuel idx = .ok (next.headD 0, final)) := by
  obtain ⟨final, landed⟩ := position.suffix trivia.suffix
  refine ⟨final, landed, ?_⟩
  rcases getNextToken_spec fuel position with
    ⟨_, nothing⟩ | ⟨out, enough, _⟩ | ⟨last, other, out, lastLanded, lastSolid, lands⟩
  · have stuckNil : Stuck [] := fun _ onward => by
      rcases onward.cases with same | ⟨_, _, absurdity, _⟩ | ⟨_, _, absurdity, _⟩
      · exact same
      · cases absurdity
      · cases absurdity
    exact absurd (trivia.unique nothing solid.stuck stuckNil) notEmpty
  · exact ⟨Or.inl out, fun fits => absurd solid ((enough fits).notSolid trivia)⟩
  · rcases lands with direct | ⟨stranded, _⟩
    · obtain rfl := direct.unique trivia lastSolid.stuck solid.stuck
      rw [landed.index_unique lastLanded, out]
      exact ⟨.refl _, fun _ => rfl⟩
    · exact absurd solid (stranded.notSolid trivia)

end Luce.TinyJson
