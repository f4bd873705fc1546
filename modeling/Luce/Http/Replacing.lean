/-
This file proves how `Split`, `Join` and `Replace` belong together.

What a text is cut into at the delimiter is what `Split` returns, and `Join` puts it
together again. `Replace` edits its target in place and searches on behind what it has
put in, so it never looks at a replacement again: it puts the cut together with the
replacement in the first gaps.
-/

import Luce.Http.StringUtil

namespace Luce.StringUtil

open Library.Search Library.Lines

/-! ### Join -/

/-- The loop that appends the parts to the result. -/
def appendParts (delim : Bytes) : Bool → Bytes → List Bytes → Bytes
  | _, result, [] => result
  | isFirst, result, part :: parts =>
    let result := if isFirst then result else result ++ delim
    appendParts delim false (result ++ part) parts

/-- `String::JoinImpl`. -/
def joinImpl (parts : List Bytes) (delim : Bytes) : Bytes :=
  let size := parts.foldl (fun size item => size + (item.length + delim.length)) 0
  if size = 0 then [] else appendParts delim true [] parts

theorem appendParts_eq (delim : Bytes) (parts : List Bytes) : ∀ result,
    appendParts delim false result parts = result ++ (parts.map (delim ++ ·)).flatten := by
  induction parts with
  | nil => simp [appendParts]
  | cons part parts inductionHypothesis =>
    intro result
    simp [appendParts, inductionHypothesis]

theorem intercalate_cons (delim part : Bytes) (parts : List Bytes) :
    delim.intercalate (part :: parts) = part ++ (parts.map (delim ++ ·)).flatten := by
  induction parts generalizing part with
  | nil => simp
  | cons next parts inductionHypothesis =>
    rw [List.intercalate_cons_of_ne_nil (List.cons_ne_nil _ _), inductionHypothesis]
    simp

theorem size_eq (delim : Bytes) (parts : List Bytes) (size : Nat) :
    parts.foldl (fun size item => size + (item.length + delim.length)) size =
      size + ((parts.map (delim ++ ·)).flatten).length := by
  induction parts generalizing size with
  | nil => rfl
  | cons part parts inductionHypothesis =>
    rw [List.foldl_cons, inductionHypothesis]
    simp only [List.map_cons, List.flatten_cons, List.length_append]
    omega

/-- Joining is joining: when the computed size is zero there is nothing to join. -/
theorem joinImpl_eq (parts : List Bytes) (delim : Bytes) :
    joinImpl parts delim = join parts delim := by
  rw [joinImpl, join, size_eq, Nat.zero_add]
  cases parts with
  | nil => rfl
  | cons part parts =>
    rw [intercalate_cons]
    split
    case isTrue none =>
      rw [List.length_eq_zero_iff, List.map_cons, List.flatten_cons] at none
      obtain ⟨first, others⟩ := List.append_eq_nil_iff.mp none
      rw [(List.append_eq_nil_iff.mp first).2, others]
      rfl
    case isFalse =>
      simp only [appendParts, if_true, List.nil_append, appendParts_eq]

/-! ### Split and Join -/

/-- Joining what a text is split into gives the text back. -/
theorem joinImpl_split (str : Bytes) {delim : Bytes} (delimits : delim ≠ []) :
    joinImpl (split str delim delimits true) delim = str := by
  by_cases empty : str = []
  · rw [empty]
    rfl
  · obtain ⟨parts, cut⟩ := exists_cut delimits str
    rw [split_of_cut delimits true cut empty, joinImpl_eq]
    exact cut.intercalate

/-- Dropping the empty parts while splitting is dropping them afterwards. -/
theorem split_false (str : Bytes) {delim : Bytes} (delimits : delim ≠ []) :
    split str delim delimits false = (split str delim delimits true).filter (!·.isEmpty) := by
  by_cases empty : str = []
  · rw [empty]
    rfl
  · obtain ⟨parts, cut⟩ := exists_cut delimits str
    rw [split_of_cut delimits true cut empty, split_of_cut delimits false cut empty]
    rfl

/-- Parts without the character come back, unless there is only an empty one. -/
theorem split_joinImpl {char : Byte} {parts : List Bytes} (absent : ∀ part ∈ parts, char ∉ part)
    (notLone : parts ≠ [[]]) :
    split (joinImpl parts [char]) [char] (List.cons_ne_nil _ _) true = parts := by
  rw [joinImpl_eq]
  cases parts with
  | nil => rfl
  | cons part parts =>
    refine split_join (List.cons_ne_nil _ _) absent ?_
    rw [join, intercalate_cons]
    intro empty
    obtain ⟨none, others⟩ := List.append_eq_nil_iff.mp empty
    cases parts with
    | nil => exact notLone (congrArg (fun part => [part]) none)
    | cons => simp at others

/-- `Split` ends, its parts have no delimiter, `Join` undoes it, it drops the empty parts
and nothing else, and it undoes a `Join` with a character that no part has. -/
theorem split_inverse :
    (∀ (str delim : Bytes) (delimits : delim ≠ []),
      (∀ keepEmpty, (splitLoop delim keepEmpty (str.length + 1) str).isSome) ∧
      (∀ part ∈ split str delim delimits true, ¬ delim <:+: part) ∧
      joinImpl (split str delim delimits true) delim = str ∧
      split str delim delimits false =
        (split str delim delimits true).filter (!·.isEmpty)) ∧
    ∀ (char : Byte) (parts : List Bytes), (∀ part ∈ parts, char ∉ part) → parts ≠ [[]] →
      split (joinImpl parts [char]) [char] (List.cons_ne_nil _ _) true = parts :=
  ⟨fun str _ delimits => ⟨fun keepEmpty => splitLoop_isSome delimits keepEmpty (Nat.lt_succ_self _),
      fun _ among => (of_mem_split among).2, joinImpl_split str delimits, split_false str delimits⟩,
    fun _ _ absent notLone => split_joinImpl absent notLone⟩

/-- A text at a delimiter of two characters that overlaps with itself, and parts of which
one is empty. -/
theorem split_inverse_overlap :
    joinImpl (split (ascii "aaa") (ascii "aa") (by decide) true) (ascii "aa") = ascii "aaa" ∧
      split (joinImpl [ascii "x", []] (ascii ",")) (ascii ",") (by decide) true =
        [ascii "x", []] :=
  ⟨(split_inverse.1 (ascii "aaa") (ascii "aa") (by decide)).2.2.1,
    split_inverse.2 (byte ',') [ascii "x", []] (by decide) (by decide)⟩

/-! ### Replace -/

/-- `target.find(pattern, pos)`. -/
def findFrom (pattern target : Bytes) (pos : Nat) : Option Nat :=
  if pos ≤ target.length then (find pattern (target.drop pos)).map (pos + ·) else none

/-- The loop of `String::Replace`, if it ends within this many rounds. -/
def replaceLoop (pattern replacement : Bytes) : Nat → Option Nat → Bytes → Nat → Option Bytes
  | 0, _, _, _ => none
  | _ + 1, none, target, _ => some target
  | _ + 1, some _, target, 0 => some target
  | rounds + 1, some p, target, count + 1 =>
    let target := target.take p ++ replacement ++ target.drop (p + pattern.length)
    let next := findFrom pattern target (p + replacement.length)
    replaceLoop pattern replacement rounds next target count

theorem findFrom_append (pattern front rest : Bytes) :
    findFrom pattern (front ++ rest) front.length =
      (find pattern rest).map (front.length + ·) := by
  rw [findFrom, if_pos (by simp), List.drop_left]

/-- Behind what is done already, the loop puts the cut of the rest together with the
replacement in the first gaps. -/
theorem replaceLoop_of_cut {pattern : Bytes} (delimits : pattern ≠ []) (replacement : Bytes)
    {rest : Bytes} {parts : List Bytes} (cut : Cut pattern rest parts) :
    ∀ {rounds : Nat} (done : Bytes) (count : Nat), rest.length < rounds →
      replaceLoop pattern replacement rounds (findFrom pattern (done ++ rest) done.length)
        (done ++ rest) count = some (done ++ rejoin replacement pattern count parts) := by
  induction cut with
  | @last part clean =>
    intro rounds done count enough
    obtain ⟨rounds, rfl⟩ : ∃ less, rounds = less + 1 := ⟨rounds - 1, by omega⟩
    rw [findFrom_append, find_eq_none_iff.mpr clean, Option.map_none, replaceLoop, rejoin_singleton]
  | @more part rest parts closed others inductionHypothesis =>
    intro rounds done count enough
    have found : find pattern (part ++ pattern ++ rest) = some part.length :=
      find_append closed rest
    have progress := List.length_pos_of_ne_nil delimits
    obtain ⟨rounds, rfl⟩ : ∃ less, rounds = less + 1 := ⟨rounds - 1, by omega⟩
    rw [findFrom_append, found, Option.map_some]
    cases count with
    | zero => rw [replaceLoop, rejoin_zero, (Cut.more closed others).intercalate]
    | succ count =>
      have kept : (done ++ (part ++ pattern ++ rest)).take (done.length + part.length) =
          done ++ part := by
        rw [← List.length_append, List.append_assoc, ← List.append_assoc, List.take_left]
      have behind : (done ++ (part ++ pattern ++ rest)).drop
          (done.length + part.length + pattern.length) = rest := by
        rw [← List.append_assoc, ← List.append_assoc, ← List.length_append, ← List.length_append,
          List.drop_left]
      have resumes : done.length + part.length + replacement.length =
          (done ++ part ++ replacement).length := by
        rw [List.length_append, List.length_append]
      simp only [List.length_append] at enough
      simp only [replaceLoop, kept, behind, resumes]
      rw [inductionHypothesis (done ++ part ++ replacement) count (by omega),
        rejoin_succ count part others.ne_nil]
      simp only [List.append_assoc]

theorem replaceLoop_isSome {pattern : Bytes} (delimits : pattern ≠ []) (replacement target : Bytes)
    (count : Nat) :
    (replaceLoop pattern replacement (target.length + 1) (findFrom pattern target 0) target
      count).isSome := by
  obtain ⟨parts, cut⟩ := exists_cut delimits target
  have loop := replaceLoop_of_cut delimits replacement cut [] count (Nat.lt_succ_self _)
  rw [List.nil_append, List.length_nil] at loop
  rw [loop, Option.isSome_some]

/-- `String::Replace`. With an empty pattern the loop need not end. -/
def replace (target pattern replacement : Bytes) (count : Nat) (delimits : pattern ≠ []) : Bytes :=
  (replaceLoop pattern replacement (target.length + 1) (findFrom pattern target 0) target count).get
    (replaceLoop_isSome delimits replacement target count)

/-- `Replace` puts the cut together with the replacement in the first gaps. -/
theorem replace_of_cut {target pattern : Bytes} (delimits : pattern ≠ []) (replacement : Bytes)
    (count : Nat) {parts : List Bytes} (cut : Cut pattern target parts) :
    replace target pattern replacement count delimits = rejoin replacement pattern count parts := by
  have loop := replaceLoop_of_cut delimits replacement cut [] count (Nat.lt_succ_self _)
  rw [List.nil_append, List.length_nil] at loop
  simp only [replace, loop, Option.get_some, List.nil_append]

/-- `Replace` ends, and replaces the first occurrences of the pattern in the cut of its
target, up to the count; with a count for all of them it is `Join` after `Split`. -/
theorem replace_eq (target pattern replacement : Bytes) (count : Nat) (delimits : pattern ≠ []) :
    (replaceLoop pattern replacement (target.length + 1) (findFrom pattern target 0) target
      count).isSome ∧
    ∃ parts, Cut pattern target parts ∧
      replace target pattern replacement count delimits = rejoin replacement pattern count parts ∧
      (parts.length - 1 ≤ count → replace target pattern replacement count delimits =
        joinImpl (split target pattern delimits true) replacement) := by
  obtain ⟨parts, cut⟩ := exists_cut delimits target
  have replaced := replace_of_cut delimits replacement count cut
  refine ⟨replaceLoop_isSome delimits replacement target count, parts, cut, replaced, fun all => ?_⟩
  rw [replaced, rejoin_of_le (by omega), joinImpl_eq, join]
  by_cases empty : target = []
  · subst empty
    rw [cut.of_nil delimits]
    exact List.intercalate_singleton
  · rw [split_of_cut delimits true cut empty]
    rfl

/-- A replacement that contains the pattern, and one occurrence more than the count. -/
theorem replace_eq_nested :
    ∃ parts, Cut (ascii "a") (ascii "banana") parts ∧
      replace (ascii "banana") (ascii "a") (ascii "aa") 2 (by decide) =
        rejoin (ascii "aa") (ascii "a") 2 parts := by
  obtain ⟨-, parts, cut, replaced, -⟩ :=
    replace_eq (ascii "banana") (ascii "a") (ascii "aa") 2 (by decide)
  exact ⟨parts, cut, replaced⟩

example : replace (ascii "banana") (ascii "a") (ascii "aa") 2 (by decide) = ascii "baanaana" := by
  decide

end Luce.StringUtil
