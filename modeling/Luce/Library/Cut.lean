/-
This file is the theory of cutting a list at a delimiter.

A cut goes from the left: every part but the last ends where the delimiter first occurs,
and the last one does not contain it. A list has one cut for each delimiter that is not
empty, and the parts with the delimiter between them make up the list.
-/

import Luce.Library.Lines

namespace Library.Lines

open Library.Search

variable {Symbol : Type*} [DecidableEq Symbol]

/-- The parts that a list is cut into. -/
inductive Cut (delimiter : List Symbol) : List Symbol → List (List Symbol) → Prop where
  | last {part : List Symbol} (clean : ¬ delimiter <:+: part) : Cut delimiter part [part]
  | more {part rest : List Symbol} {parts : List (List Symbol)} (closed : Closed delimiter part)
    (others : Cut delimiter rest parts) : Cut delimiter (part ++ delimiter ++ rest) (part :: parts)

variable {delimiter : List Symbol}

theorem Cut.ne_nil {list : List Symbol} {parts : List (List Symbol)}
    (cut : Cut delimiter list parts) : parts ≠ [] := by
  cases cut <;> exact List.cons_ne_nil _ _

/-- Nothing but the parts and the delimiters between them is in the list. -/
theorem Cut.intercalate {list : List Symbol} {parts : List (List Symbol)}
    (cut : Cut delimiter list parts) : delimiter.intercalate parts = list := by
  induction cut with
  | last clean => exact List.intercalate_singleton
  | more closed others inductionHypothesis =>
    rw [List.intercalate_cons_of_ne_nil others.ne_nil, inductionHypothesis, List.append_assoc]

/-- The empty list is cut into an empty part. -/
theorem Cut.of_nil {parts : List (List Symbol)} (delimits : delimiter ≠ [])
    (cut : Cut delimiter [] parts) : parts = [[]] := by
  have joined := cut.intercalate
  cases parts with
  | nil => exact absurd rfl cut.ne_nil
  | cons part parts =>
    by_cases more : parts = []
    · rw [more, List.intercalate_singleton] at joined
      rw [more, joined]
    · rw [List.intercalate_cons_of_ne_nil more] at joined
      exact absurd (List.append_eq_nil_iff.mp (List.append_eq_nil_iff.mp joined).1).2 delimits

/-- There is something in a list if there is something in a part of it. -/
theorem Cut.list_ne_nil {list part : List Symbol} {parts : List (List Symbol)}
    (delimits : delimiter ≠ []) (cut : Cut delimiter list parts) (among : part ∈ parts)
    (some : part ≠ []) : list ≠ [] := by
  rintro rfl
  rw [cut.of_nil delimits] at among
  exact some (List.mem_singleton.mp among)

/-- Every list has a cut. -/
theorem exists_cut (delimits : delimiter ≠ []) (list : List Symbol) :
    ∃ parts, Cut delimiter list parts := by
  induction measured : list.length using Nat.strong_induction_on generalizing list with
  | _ length inductionHypothesis =>
    cases found : find delimiter list with
    | none => exact ⟨[list], .last (find_eq_none_iff.mp found)⟩
    | some position =>
      obtain ⟨part, rest, rfl, -, closed⟩ := eq_of_find found
      have shorter : rest.length < length := by
        have progress := List.length_pos_of_ne_nil delimits
        simp only [List.length_append] at measured
        omega
      obtain ⟨parts, others⟩ := inductionHypothesis rest.length shorter rest rfl
      exact ⟨part :: parts, .more closed others⟩

/-- A line that the delimiter closes does not contain it. -/
theorem Closed.clean {line : List Symbol} (delimits : delimiter ≠ [])
    (closed : Closed delimiter line) : ¬ delimiter <:+: line := by
  rw [← find_eq_none_iff]
  cases earlier : find delimiter line with
  | none => rfl
  | some position =>
    have progress := List.length_pos_of_ne_nil delimits
    have inside := find_le earlier
    have same := (find_append earlier delimiter).symm.trans closed
    have := Option.some.inj same
    omega

/-- Parts that the delimiter closes are a cut, if there are any. -/
theorem cut_intercalate {parts : List (List Symbol)} (delimits : delimiter ≠ [])
    (some : parts ≠ []) (closed : ∀ part ∈ parts, Closed delimiter part) :
    Cut delimiter (delimiter.intercalate parts) parts := by
  induction parts with
  | nil => exact absurd rfl some
  | cons part parts inductionHypothesis =>
    obtain ⟨shut, closed⟩ := List.forall_mem_cons.mp closed
    by_cases more : parts = []
    · rw [more, List.intercalate_singleton]
      exact .last (shut.clean delimits)
    · rw [List.intercalate_cons_of_ne_nil more]
      exact .more shut (inductionHypothesis more closed)

omit [DecidableEq Symbol] in
/-- What stands in neither the delimiter nor a part does not stand in the list. -/
theorem not_mem_intercalate {symbol : Symbol} {parts : List (List Symbol)}
    (absent : symbol ∉ delimiter) (others : ∀ part ∈ parts, symbol ∉ part) :
    symbol ∉ delimiter.intercalate parts := by
  induction parts with
  | nil => exact List.not_mem_nil
  | cons part parts inductionHypothesis =>
    obtain ⟨here, later⟩ := List.forall_mem_cons.mp others
    by_cases more : parts = []
    · rw [more, List.intercalate_singleton]
      exact here
    · rw [List.intercalate_cons_of_ne_nil more, List.mem_append, List.mem_append, not_or, not_or]
      exact ⟨⟨here, absent⟩, inductionHypothesis later⟩

/-! ### Single symbols -/

omit [DecidableEq Symbol] in
theorem infix_singleton_iff {symbol : Symbol} {list : List Symbol} :
    [symbol] <:+: list ↔ symbol ∈ list :=
  ⟨fun inside => inside.subset (List.mem_singleton_self symbol), fun member => by
    obtain ⟨front, behind, rfl⟩ := List.append_of_mem member
    exact ⟨front, behind, by simp⟩⟩

theorem Closed.absent {symbol : Symbol} {line : List Symbol} (closed : Closed [symbol] line) :
    symbol ∉ line :=
  infix_singleton_iff.not.mp (closed.clean (List.cons_ne_nil _ _))

/-- A symbol cuts a list into one part more than there are occurrences of it. -/
theorem Cut.length_singleton {symbol : Symbol} {list : List Symbol} {parts : List (List Symbol)}
    (cut : Cut [symbol] list parts) : parts.length = list.count symbol + 1 := by
  induction cut with
  | last clean => rw [List.count_eq_zero_of_not_mem (infix_singleton_iff.not.mp clean)]; rfl
  | more closed others inductionHypothesis =>
    rw [List.count_append, List.count_append, List.count_eq_zero_of_not_mem closed.absent,
      List.count_singleton_self, List.length_cons, inductionHypothesis]
    omega

/-- Parts without the symbol are a cut at it. -/
theorem cut_singleton {symbol : Symbol} {parts : List (List Symbol)} (some : parts ≠ [])
    (absent : ∀ part ∈ parts, symbol ∉ part) :
    Cut [symbol] ([symbol].intercalate parts) parts :=
  cut_intercalate (List.cons_ne_nil _ _) some fun part among =>
    closed_of_not_mem rfl (absent part among)

/-- The parts of a cut at a symbol do not have it. -/
theorem Cut.absent {symbol : Symbol} {list part : List Symbol} {parts : List (List Symbol)}
    (cut : Cut [symbol] list parts) (among : part ∈ parts) : symbol ∉ part := by
  induction cut with
  | last clean =>
    rw [List.mem_singleton.mp among]
    exact infix_singleton_iff.not.mp clean
  | more closed others inductionHypothesis =>
    obtain rfl | later := List.mem_cons.mp among
    · exact closed.absent
    · exact inductionHypothesis later

/-- A cut at a symbol is the split at it. -/
theorem cut_splitOn (symbol : Symbol) (list : List Symbol) :
    Cut [symbol] list (list.splitOn symbol) := by
  obtain ⟨parts, cut⟩ := exists_cut (List.cons_ne_nil symbol []) list
  have same : list.splitOn symbol = parts := by
    rw [← cut.intercalate]
    exact List.splitOn_intercalate symbol (fun _ among => cut.absent among) cut.ne_nil
  rw [same]
  exact cut

/-! ### Joining with another delimiter -/

/-- The parts with a delimiter between them, and a replacement in the first of the gaps. -/
def rejoin (replacement delimiter : List Symbol) : Nat → List (List Symbol) → List Symbol
  | 0, parts => delimiter.intercalate parts
  | _ + 1, [] => []
  | _ + 1, [part] => part
  | count + 1, part :: parts => part ++ replacement ++ rejoin replacement delimiter count parts

section Rejoin

variable {replacement : List Symbol}

omit [DecidableEq Symbol] in
@[simp] theorem rejoin_zero (parts : List (List Symbol)) :
    rejoin replacement delimiter 0 parts = delimiter.intercalate parts := by
  cases parts <;> rfl

omit [DecidableEq Symbol] in
@[simp] theorem rejoin_singleton (count : Nat) (part : List Symbol) :
    rejoin replacement delimiter count [part] = part := by
  cases count with
  | zero => exact List.intercalate_singleton
  | succ => rfl

omit [DecidableEq Symbol] in
theorem rejoin_succ (count : Nat) (part : List Symbol) {parts : List (List Symbol)}
    (more : parts ≠ []) :
    rejoin replacement delimiter (count + 1) (part :: parts) =
      part ++ replacement ++ rejoin replacement delimiter count parts := by
  cases parts with
  | nil => exact absurd rfl more
  | cons => rfl

omit [DecidableEq Symbol] in
/-- When the replacement comes into every gap, the parts are joined with it. -/
theorem rejoin_of_le {count : Nat} {parts : List (List Symbol)} (all : parts.length ≤ count + 1) :
    rejoin replacement delimiter count parts = replacement.intercalate parts := by
  induction parts generalizing count with
  | nil => cases count <;> rfl
  | cons part parts inductionHypothesis =>
    by_cases more : parts = []
    · rw [more, rejoin_singleton, List.intercalate_singleton]
    · have some := List.length_pos_of_ne_nil more
      rw [List.length_cons] at all
      obtain ⟨count, rfl⟩ : ∃ less, count = less + 1 := ⟨count - 1, by omega⟩
      rw [rejoin_succ count part more, inductionHypothesis (by omega),
        List.intercalate_cons_of_ne_nil more, List.append_assoc]

end Rejoin

end Library.Lines
