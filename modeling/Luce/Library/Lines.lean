/-
This file is the theory of texts that are cut into lines by a delimiter.

A line is closed by the delimiter if the first delimiter behind it is the one that stands
there. Then the text decides the line and what follows it, and a block of lines with an empty
line behind it is decided with all that follows.
-/

import Luce.Library.Search

namespace Library.Lines

open Library.Search

variable {Symbol : Type*} [DecidableEq Symbol]

/-- Behind the line the first delimiter is the one that closes it. -/
def Closed (delimiter line : List Symbol) : Prop :=
  find delimiter (line ++ delimiter) = some line.length

/-- Lines, each with its delimiter. -/
def text (delimiter : List Symbol) (lines : List (List Symbol)) : List Symbol :=
  lines.flatMap (· ++ delimiter)

/-- Lines with an empty one behind them. -/
def block (delimiter : List Symbol) (lines : List (List Symbol)) : List Symbol :=
  text delimiter lines ++ delimiter

variable {delimiter : List Symbol}

theorem closed_nil (delimiter : List Symbol) : Closed delimiter [] := find_self delimiter

/-- A line without the first symbol of the delimiter is closed by it. -/
theorem closed_of_not_mem {symbol : Symbol} (starts : delimiter.head? = some symbol)
    {line : List Symbol} (absent : symbol ∉ line) : Closed delimiter line := by
  rw [Closed, find_append_of_not_mem starts absent, find_self, Option.map_some, Nat.zero_add]

omit [DecidableEq Symbol] in
/-- Lines with the delimiter behind each of them are lines with it between them and behind
the last one. -/
theorem text_eq_intercalate {lines : List (List Symbol)} (some : lines ≠ []) :
    text delimiter lines = delimiter.intercalate lines ++ delimiter := by
  induction lines with
  | nil => exact absurd rfl some
  | cons line lines inductionHypothesis =>
    rw [text, List.flatMap_cons]
    by_cases more : lines = []
    · rw [more, List.intercalate_singleton]
      exact List.append_nil _
    · rw [List.intercalate_cons_of_ne_nil more, ← text, inductionHypothesis more]
      simp only [List.append_assoc]

/-- The text decides its first line. -/
theorem Closed.inj {line other rest more : List Symbol} (closed : Closed delimiter line)
    (otherClosed : Closed delimiter other)
    (same : line ++ delimiter ++ rest = other ++ delimiter ++ more) :
    line = other ∧ rest = more := by
  have first := find_append closed rest
  have second := find_append otherClosed more
  rw [same, second] at first
  have length : line.length = other.length := (Option.some.inj first).symm
  have width : (line ++ delimiter).length = (other ++ delimiter).length := by
    rw [List.length_append, List.length_append, length]
  obtain ⟨front, behind⟩ := List.append_inj same width
  exact ⟨List.append_cancel_right front, behind⟩

/-- The text decides its first block. -/
theorem block_inj {lines others : List (List Symbol)} {rest more : List Symbol}
    (closed : ∀ line ∈ lines, Closed delimiter line ∧ line ≠ [])
    (otherClosed : ∀ line ∈ others, Closed delimiter line ∧ line ≠ [])
    (same : block delimiter lines ++ rest = block delimiter others ++ more) :
    lines = others ∧ rest = more := by
  induction lines generalizing others with
  | nil =>
    cases others with
    | nil => exact ⟨rfl, List.append_cancel_left same⟩
    | cons other others =>
      obtain ⟨shut, some⟩ := otherClosed other (List.mem_cons_self ..)
      have front : [] ++ delimiter ++ rest =
          other ++ delimiter ++ (text delimiter others ++ delimiter ++ more) := by
        simpa only [block, text, List.flatMap_nil, List.flatMap_cons, List.nil_append,
          List.append_assoc] using same
      exact absurd ((closed_nil delimiter).inj shut front).1.symm some
  | cons line lines inductionHypothesis =>
    obtain ⟨⟨shut, some⟩, later⟩ := List.forall_mem_cons.mp closed
    cases others with
    | nil =>
      have front : line ++ delimiter ++ (text delimiter lines ++ delimiter ++ rest) =
          [] ++ delimiter ++ more := by
        simpa only [block, text, List.flatMap_nil, List.flatMap_cons, List.nil_append,
          List.append_assoc] using same
      exact absurd (shut.inj (closed_nil delimiter) front).1 some
    | cons other others =>
      obtain ⟨⟨otherShut, -⟩, otherLater⟩ := List.forall_mem_cons.mp otherClosed
      have front : line ++ delimiter ++ (block delimiter lines ++ rest) =
          other ++ delimiter ++ (block delimiter others ++ more) := by
        simpa only [block, text, List.flatMap_cons, List.append_assoc] using same
      obtain ⟨rfl, behind⟩ := shut.inj otherShut front
      obtain ⟨rfl, last⟩ := inductionHypothesis later otherLater behind
      exact ⟨rfl, last⟩

end Library.Lines
