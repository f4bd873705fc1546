/-
This file models the string functions that the HTTP server uses.

`Split` runs its loop until it finds no delimiter any more or has nothing left. Each
round shortens what is left by a delimiter at least, so the loop ends unless the
delimiter is empty, in which case it never does; a caller shows that its delimiter is
not.
-/

import Luce.Byte
import Luce.Library.Cut

namespace Luce.StringUtil

open Library.Search Library.Lines

/-- `String::Join`. -/
def join (parts : List Bytes) (delim : Bytes) : Bytes := delim.intercalate parts

/-- `String::EndsWith`. -/
def endsWith (str suffix : Bytes) : Bool :=
  suffix.length ≤ str.length && str.drop (str.length - suffix.length) = suffix

/-- `String::Contains`. -/
def contains (str target : Bytes) : Bool :=
  if str = target then true
  else if str.isEmpty then false
  else if target.isEmpty then true
  else (find target str).isSome

/-- What the loop of `String::Split` adds to the result, if it ends within this many
rounds. -/
def splitLoop (delim : Bytes) (keepEmpty : Bool) : Nat → Bytes → Option (List Bytes)
  | 0, _ => none
  | rounds + 1, current =>
    let pos := find delim current
    let part := if pos ≠ some 0 || keepEmpty then [current.take (pos.getD current.length)] else []
    match pos with
    | none => some part
    | some pos =>
      let current := current.drop (pos + delim.length)
      if current.isEmpty then some (part ++ if keepEmpty then [[]] else [])
      else (splitLoop delim keepEmpty rounds current).map (part ++ ·)

theorem splitLoop_isSome {delim : Bytes} (delimits : delim ≠ []) (keepEmpty : Bool) {rounds : Nat}
    {current : Bytes} (enough : current.length < rounds) :
    (splitLoop delim keepEmpty rounds current).isSome := by
  induction rounds generalizing current with
  | zero => cases enough
  | succ rounds inductionHypothesis =>
    cases found : find delim current with
    | none => simp [splitLoop, found]
    | some pos =>
      have progress := List.length_pos_of_ne_nil delimits
      have inside := find_le found
      have shorter : (current.drop (pos + delim.length)).length < rounds := by
        rw [List.length_drop]
        omega
      simp only [splitLoop, found]
      split
      · rfl
      · rw [Option.isSome_map]
        exact inductionHypothesis shorter

/-- `String::Split`. -/
def split (str delim : Bytes) (delimits : delim ≠ []) (keepEmpty : Bool) : List Bytes :=
  if str.isEmpty then []
  else (splitLoop delim keepEmpty (str.length + 1) str).get
    (splitLoop_isSome delimits keepEmpty (Nat.lt_succ_self _))

/-- What comes before the first delimiter, or everything. -/
def before (delim str : Bytes) : Bytes := str.take ((find delim str).getD str.length)

theorem length_before_le (delim str : Bytes) : (before delim str).length ≤ str.length :=
  List.length_take_le' _ _

/-- Nothing is cut off exactly if there is no delimiter. -/
theorem length_before_eq_iff {delim str : Bytes} (delimits : delim ≠ []) :
    (before delim str).length = str.length ↔ ¬ delim <:+: str := by
  have progress := List.length_pos_of_ne_nil delimits
  rw [before, ← find_eq_none_iff]
  cases found : find delim str with
  | none => simp
  | some pos =>
    have inside := find_le found
    simp only [Option.getD_some, List.length_take, reduceCtorEq, iff_false]
    omega

theorem before_eq_iff {delim str : Bytes} (delimits : delim ≠ []) :
    before delim str = str ↔ ¬ delim <:+: str := by
  rw [← length_before_eq_iff delimits]
  exact ⟨congrArg List.length, (List.take_prefix _ _).eq_of_length⟩

theorem before_append {delim first : Bytes} (closed : Closed delim first) (rest : Bytes) :
    before delim (first ++ delim ++ rest) = first := by
  rw [before, find_append closed rest, List.append_assoc]
  exact List.take_left

/-- There is no delimiter before the first one. -/
theorem not_infix_take {delim str : Bytes} (delimits : delim ≠ []) :
    ¬ delim <:+: str.take ((find delim str).getD str.length) := by
  rw [← find_eq_none_iff]
  cases earlier : find delim (str.take ((find delim str).getD str.length)) with
  | none => rfl
  | some pos =>
    have progress := List.length_pos_of_ne_nil delimits
    have inside := find_le earlier
    have found := find_append earlier (str.drop ((find delim str).getD str.length))
    rw [List.take_append_drop] at found
    rw [found, Option.getD_some, List.length_take] at inside
    omega

/-- Each part of a text stands in it, and has no delimiter. -/
theorem of_mem_splitLoop {delim : Bytes} (delimits : delim ≠ []) {keepEmpty : Bool} {rounds : Nat}
    {current part : Bytes} {parts : List Bytes}
    (ended : splitLoop delim keepEmpty rounds current = some parts) (among : part ∈ parts) :
    part <:+: current ∧ ¬ delim <:+: part := by
  induction rounds generalizing current parts with
  | zero => cases ended
  | succ rounds inductionHypothesis =>
    have first : current.take ((find delim current).getD current.length) <:+: current ∧
        ¬ delim <:+: current.take ((find delim current).getD current.length) :=
      ⟨(List.take_prefix _ _).isInfix, not_infix_take delimits⟩
    have empty : ([] : Bytes) <:+: current ∧ ¬ delim <:+: ([] : Bytes) :=
      ⟨List.nil_infix, fun inside => delimits (List.infix_nil.mp inside)⟩
    cases found : find delim current with
    | none =>
      rw [found] at first
      simp only [splitLoop, found, Option.some.injEq] at ended
      rw [← ended] at among
      split at among
      · rw [List.mem_singleton.mp among]
        exact first
      · cases among
    | some pos =>
      rw [found] at first
      simp only [splitLoop, found] at ended
      split at ended
      · rw [← Option.some.inj ended, List.mem_append] at among
        obtain here | last := among
        · split at here
          · rw [List.mem_singleton.mp here]
            exact first
          · cases here
        · split at last
          · rw [List.mem_singleton.mp last]
            exact empty
          · cases last
      · obtain ⟨more, rounds, rfl⟩ := Option.map_eq_some_iff.mp ended
        obtain here | later := List.mem_append.mp among
        · split at here
          · rw [List.mem_singleton.mp here]
            exact first
          · cases here
        · obtain ⟨stands, clean⟩ := inductionHypothesis rounds later
          exact ⟨stands.trans (List.drop_suffix _ _).isInfix, clean⟩

theorem of_mem_split {delim str part : Bytes} {delimits : delim ≠ []} {keepEmpty : Bool}
    (among : part ∈ split str delim delimits keepEmpty) :
    part <:+: str ∧ ¬ delim <:+: part := by
  rw [split] at among
  split at among
  · cases among
  · exact of_mem_splitLoop delimits (Option.some_get _).symm among

/-- The first part, when empty parts are kept. -/
theorem splitLoop_first {delim : Bytes} (delimits : delim ≠ []) {rounds : Nat} {current : Bytes}
    (enough : current.length < rounds) :
    ∃ more, splitLoop delim true rounds current = some (before delim current :: more) := by
  obtain ⟨parts, ended⟩ := Option.isSome_iff_exists.mp (splitLoop_isSome delimits true enough)
  rw [ended]
  cases rounds with
  | zero => cases enough
  | succ rounds =>
    simp only [splitLoop, Bool.or_true, if_true] at ended
    split at ended
    case h_1 none =>
      rw [← Option.some.inj ended, before]
      exact ⟨[], rfl⟩
    case h_2 pos found =>
      split at ended
      case isTrue =>
        rw [← Option.some.inj ended, before]
        exact ⟨[[]], rfl⟩
      case isFalse =>
        obtain ⟨more, -, rfl⟩ := Option.map_eq_some_iff.mp ended
        exact ⟨more, rfl⟩

/-- The first two parts of a text with a delimiter, when empty parts are kept. -/
theorem split_append {delim first : Bytes} (delimits : delim ≠ [])
    (found : find delim (first ++ delim) = some first.length) (rest : Bytes) :
    ∃ more, split (first ++ delim ++ rest) delim delimits true =
      first :: before delim rest :: more := by
  have start : find delim (first ++ delim ++ rest) = some first.length := find_append found rest
  have part : (first ++ delim ++ rest).take first.length = first := by
    rw [List.append_assoc, List.take_left]
  have behind : (first ++ delim ++ rest).drop (first.length + delim.length) = rest := by
    rw [← List.length_append, List.drop_left]
  have shorter : rest.length < (first ++ delim ++ rest).length := by
    have progress := List.length_pos_of_ne_nil delimits
    simp only [List.length_append]
    omega
  have nonempty : (first ++ delim ++ rest).isEmpty = false := by simp [delimits]
  obtain ⟨more, loop⟩ : ∃ more, splitLoop delim true ((first ++ delim ++ rest).length + 1)
      (first ++ delim ++ rest) = some (first :: before delim rest :: more) := by
    simp only [splitLoop, start, part, behind, Bool.or_true, if_true, Option.getD_some]
    cases rest with
    | nil => exact ⟨[], by simp [before]⟩
    | cons head tail =>
      obtain ⟨more, rounds⟩ := splitLoop_first delimits shorter
      rw [rounds]
      exact ⟨more, rfl⟩
  refine ⟨more, ?_⟩
  simp only [split, nonempty, Bool.false_eq_true, if_false, loop, Option.get_some]

theorem contains_iff {str target : Bytes} (some : target ≠ []) :
    contains str target ↔ target <:+: str := by
  rw [contains]
  split
  case isTrue same => simp [same]
  case isFalse =>
  split
  case isTrue empty => simp [List.isEmpty_iff.mp empty, some]
  case isFalse =>
    rw [if_neg (by simpa using some), Option.isSome_iff_ne_none, ne_eq, find_eq_none_iff, not_not]

/-! ### Cuts -/

/-- A part is kept, or dropped because it is empty. -/
theorem kept_eq (keepEmpty : Bool) (part : Bytes) :
    (if some part.length ≠ some 0 || keepEmpty then [part] else []) =
      if keepEmpty then [part] else [part].filter (!·.isEmpty) := by
  cases keepEmpty <;> cases part <;> simp

theorem splitLoop_of_cut {delim : Bytes} (delimits : delim ≠ []) (keepEmpty : Bool) {rounds : Nat}
    {current : Bytes} {parts : List Bytes} (cut : Cut delim current parts)
    (nonempty : current ≠ []) (enough : current.length < rounds) :
    splitLoop delim keepEmpty rounds current =
      some (if keepEmpty then parts else parts.filter (!·.isEmpty)) := by
  induction cut generalizing rounds with
  | @last part clean =>
    obtain ⟨rounds, rfl⟩ : ∃ less, rounds = less + 1 := ⟨rounds - 1, by omega⟩
    simp only [splitLoop, find_eq_none_iff.mpr clean]
    cases keepEmpty <;> simp [nonempty]
  | @more part rest parts closed others inductionHypothesis =>
    obtain ⟨rounds, rfl⟩ : ∃ less, rounds = less + 1 := ⟨rounds - 1, by omega⟩
    have found : find delim (part ++ delim ++ rest) = some part.length := find_append closed rest
    have taken : (part ++ delim ++ rest).take part.length = part := by
      rw [List.append_assoc, List.take_left]
    have behind : (part ++ delim ++ rest).drop (part.length + delim.length) = rest := by
      rw [← List.length_append, List.drop_left]
    simp only [splitLoop, found, Option.getD_some, taken, behind, kept_eq]
    by_cases last : rest = []
    · subst last
      rw [others.of_nil delimits]
      cases keepEmpty <;> cases part <;> simp
    · have shorter : rest.length < rounds := by
        have progress := List.length_pos_of_ne_nil delimits
        simp only [List.length_append] at enough
        omega
      rw [if_neg (by simpa using last), inductionHypothesis last shorter]
      cases keepEmpty <;> cases part <;> simp

/-- What is cut into parts is split into them, without the empty ones if these are not kept. -/
theorem split_of_cut {delim str : Bytes} (delimits : delim ≠ []) (keepEmpty : Bool)
    {parts : List Bytes} (cut : Cut delim str parts) (nonempty : str ≠ []) :
    split str delim delimits keepEmpty =
      if keepEmpty then parts else parts.filter (!·.isEmpty) := by
  have loop := splitLoop_of_cut delimits keepEmpty cut nonempty (Nat.lt_succ_self _)
  simp only [split, List.isEmpty_eq_false_iff.mpr nonempty, loop, Option.get_some]
  rfl

/-- Parts without the character are what their joint text is split into. -/
theorem split_join {char : Byte} {parts : List Bytes} (some : parts ≠ [])
    (absent : ∀ part ∈ parts, char ∉ part) (nonempty : join parts [char] ≠ []) :
    split (join parts [char]) [char] (List.cons_ne_nil _ _) true = parts :=
  split_of_cut (List.cons_ne_nil _ _) true (cut_singleton some absent) nonempty

/-- There is something in a joint text if there is something in a part. -/
theorem join_ne_nil {char : Byte} {part : Bytes} {parts : List Bytes} (among : part ∈ parts)
    (some : part ≠ []) (absent : ∀ part ∈ parts, char ∉ part) : join parts [char] ≠ [] :=
  (cut_singleton (List.ne_nil_of_mem among) absent).list_ne_nil (List.cons_ne_nil _ _) among some

/-- A text is split at a character into what is between its occurrences. -/
theorem split_singleton {char : Byte} (str : Bytes) :
    split str [char] (List.cons_ne_nil _ _) false =
      (str.splitOn char).filter (!·.isEmpty) := by
  by_cases empty : str = []
  · rw [empty]
    rfl
  · exact split_of_cut (List.cons_ne_nil _ _) false (cut_splitOn char str) empty

end Luce.StringUtil
