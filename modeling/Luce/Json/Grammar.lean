/-
This file states the grammar of JSON texts that the parser is measured against.

A derivation is about a text and what follows it: `Value convert value text rest`
says that a value is spelled from the start of `text` up to `rest`. White space and
complete comments may precede every token, `Trivia text rest`. A fractional literal
denotes whatever `convert` makes of it and of the text that follows.

Where a comment without a line break stands in place of a token, the text is
stranded. The second half of the file says where such a comment keeps the parser
from ever coming to an end: where a value, a key or a first element is due.
-/

import Luce.Json.Parser

namespace Luce.TinyJson

open Library

/-! ### White space and comments -/

/-- White space and complete comments, up to this rest. -/
inductive Trivia : Bytes → Bytes → Prop where
  | nil (rest : Bytes) : Trivia rest rest
  | space {char : Byte} {text rest : Bytes} (blank : isSpace char) (more : Trivia text rest) :
    Trivia (char :: text) rest
  | comment {line text rest : Bytes} (oneLine : byte '\n' ∉ line) (more : Trivia text rest) :
    Trivia (byte '/' :: byte '/' :: (line ++ byte '\n' :: text)) rest

/-- A comment without a line break begins here. -/
inductive Unterminated : Bytes → Prop where
  | comment {line : Bytes} (endless : byte '\n' ∉ line) :
    Unterminated (byte '/' :: byte '/' :: line)

/-- An unterminated comment stands in place of the next token. -/
def Stranded (text : Bytes) : Prop := ∃ comment, Trivia text comment ∧ Unterminated comment

/-- Neither white space nor a comment begins here. -/
structure Solid (text : Bytes) : Prop where
  notSpace : ∀ char rest, text = char :: rest → ¬ isSpace char
  notComment : ¬ ascii "//" <+: text

/-- No white space and no complete comment begins here. -/
def Stuck (text : Bytes) : Prop := ∀ rest, Trivia text rest → rest = text

theorem Trivia.trans {first second third : Bytes} (start : Trivia first second)
    (finish : Trivia second third) : Trivia first third := by
  induction start with
  | nil rest => exact finish
  | space blank _ inductionHypothesis => exact .space blank (inductionHypothesis finish)
  | comment oneLine _ inductionHypothesis => exact .comment oneLine (inductionHypothesis finish)

theorem Trivia.suffix {text rest : Bytes} (trivia : Trivia text rest) : rest <:+ text := by
  induction trivia with
  | nil rest => exact List.suffix_rfl
  | space _ _ inductionHypothesis => exact inductionHypothesis.trans (List.suffix_cons _ _)
  | @comment line text rest _ _ inductionHypothesis =>
    exact inductionHypothesis.trans ⟨byte '/' :: byte '/' :: (line ++ [byte '\n']), by simp⟩

theorem Trivia.length_le {text rest : Bytes} (trivia : Trivia text rest) :
    rest.length ≤ text.length :=
  trivia.suffix.length_le

/-- The blanks at the start of a text are trivia. -/
theorem Trivia.dropWhile (text : Bytes) : Trivia text (text.dropWhile isSpace) := by
  induction text with
  | nil => exact .nil _
  | cons char text inductionHypothesis =>
    by_cases blank : isSpace char
    · rw [List.dropWhile_cons_of_pos blank]
      exact .space blank inductionHypothesis
    · rw [List.dropWhile_cons_of_neg blank]
      exact .nil _

/-- How trivia can begin. -/
theorem Trivia.cases {text rest : Bytes} (trivia : Trivia text rest) :
    rest = text ∨
      (∃ char more, text = char :: more ∧ isSpace char ∧ Trivia more rest) ∨
        ∃ line more, text = byte '/' :: byte '/' :: (line ++ byte '\n' :: more) ∧
          byte '\n' ∉ line ∧ Trivia more rest := by
  cases trivia with
  | nil => exact Or.inl rfl
  | space blank more => exact Or.inr (Or.inl ⟨_, _, rfl, blank, more⟩)
  | comment oneLine more => exact Or.inr (Or.inr ⟨_, _, rfl, oneLine, more⟩)

/-- A text splits at the first occurrence of a character in one way. -/
theorem split_unique {char : Byte} : ∀ {first second left right : Bytes}, char ∉ first →
    char ∉ second → first ++ char :: left = second ++ char :: right →
      first = second ∧ left = right
  | [], [], _, _, _, _, same => ⟨rfl, (List.cons.inj same).2⟩
  | [], other :: _, _, _, _, absent, same =>
    absurd ((List.cons.inj same).1 ▸ List.mem_cons_self) absent
  | _ :: _, [], _, _, absent, _, same =>
    absurd ((List.cons.inj same).1 ▸ List.mem_cons_self) absent
  | _ :: first, _ :: second, _, _, notFirst, notSecond, same => by
    obtain ⟨rfl, rest⟩ := List.cons.inj same
    obtain ⟨rfl, rfl⟩ := split_unique (fun member => notFirst (List.mem_cons_of_mem _ member))
      (fun member => notSecond (List.mem_cons_of_mem _ member)) rest
    exact ⟨rfl, rfl⟩

theorem slash_notSpace : ¬ isSpace (byte '/') := by decide

/-- Of two stretches of trivia, one continues the other. -/
theorem Trivia.linear {text first second : Bytes} (left : Trivia text first)
    (right : Trivia text second) : Trivia first second ∨ Trivia second first := by
  induction left with
  | nil rest => exact Or.inl right
  | space blank more inductionHypothesis =>
    rcases right.cases with rfl | ⟨_, _, same, _, right⟩ | ⟨_, _, same, _, _⟩
    · exact Or.inr (.space blank more)
    · obtain ⟨rfl, rfl⟩ := List.cons.inj same
      exact inductionHypothesis right
    · exact absurd ((List.cons.inj same).1 ▸ blank) slash_notSpace
  | comment oneLine more inductionHypothesis =>
    rcases right.cases with rfl | ⟨_, _, same, blank, _⟩ | ⟨_, _, same, oneLineToo, right⟩
    · exact Or.inr (.comment oneLine more)
    · exact absurd ((List.cons.inj same).1 ▸ blank) slash_notSpace
    · obtain ⟨_, rfl⟩ := split_unique oneLine oneLineToo
        (List.cons.inj (List.cons.inj same).2).2
      exact inductionHypothesis right

/-- Trivia leads to one place where it cannot go on. -/
theorem Trivia.unique {text first second : Bytes} (left : Trivia text first)
    (right : Trivia text second) (stuckLeft : Stuck first) (stuckRight : Stuck second) :
    first = second := by
  rcases left.linear right with onward | onward
  · exact (stuckLeft _ onward).symm
  · exact stuckRight _ onward

theorem Solid.stuck {text : Bytes} (solid : Solid text) : Stuck text := by
  intro rest trivia
  rcases trivia.cases with same | ⟨char, more, rfl, blank, _⟩ | ⟨line, more, rfl, _, _⟩
  · exact same
  · exact absurd blank (solid.notSpace _ _ rfl)
  · exact absurd ⟨_, rfl⟩ solid.notComment

theorem Unterminated.stuck {text : Bytes} (unterminated : Unterminated text) : Stuck text := by
  intro rest trivia
  obtain ⟨endless⟩ := unterminated
  rcases trivia.cases with same | ⟨_, _, same, blank, _⟩ | ⟨line, more, same, _, _⟩
  · exact same
  · exact absurd ((List.cons.inj same).1 ▸ blank) slash_notSpace
  · rw [(List.cons.inj (List.cons.inj same).2).2] at endless
    exact absurd (List.mem_append_right _ List.mem_cons_self) endless

theorem Unterminated.notSolid {text : Bytes} (unterminated : Unterminated text) :
    ¬ Solid text := by
  obtain ⟨_⟩ := unterminated
  exact fun solid => solid.notComment ⟨_, rfl⟩

/-- A stranded text has no next token. -/
theorem Stranded.notSolid {text rest : Bytes} (stranded : Stranded text)
    (trivia : Trivia text rest) : ¬ Solid rest := by
  obtain ⟨comment, leads, unterminated⟩ := stranded
  intro solid
  exact unterminated.notSolid (leads.unique trivia unterminated.stuck solid.stuck ▸ solid)

theorem Trivia.stranded {text rest : Bytes} (trivia : Trivia text rest)
    (stranded : Stranded rest) : Stranded text := by
  obtain ⟨comment, leads, unterminated⟩ := stranded
  exact ⟨comment, trivia.trans leads, unterminated⟩

/-- A character that is neither blank nor a slash begins a token. -/
theorem Solid.of_head {char : Byte} (rest : Bytes) (notSpace : ¬ isSpace char)
    (notSlash : char ≠ byte '/') : Solid (char :: rest) where
  notSpace _ _ same := (List.cons.inj same).1 ▸ notSpace
  notComment starts := notSlash (List.cons_prefix_cons.mp starts).1.symm

/-! ### Tokens -/

/-- A run of digits. -/
def Digits (text : Bytes) : Prop := text ≠ [] ∧ ∀ char ∈ text, isDigit char

/-- The integer that a run of digits denotes. -/
def integer (text : Bytes) : Int32 := Int32.ofNat (strtol text)

/-- The length of the run of backslashes that ends a text. -/
def backslashes (text : Bytes) : Nat := (text.rtakeWhile (· = byte '\\')).length

/-- Every quote in the text stands behind an odd run of backslashes, and the text
does not end in one. -/
def WellEscaped (text : Bytes) : Prop :=
  (∀ idx < text.length, text[idx]? = some (byte '"') → backslashes (text.take idx) % 2 = 1) ∧
    backslashes text % 2 = 0

instance (text : Bytes) : Decidable (WellEscaped text) := inferInstanceAs (Decidable (_ ∧ _))

/-! ### Values -/

variable {Double : Type}

mutual

/-- The text spells a value up to the rest. -/
inductive Value (convert : Bytes → Bytes → Double) : JObject Double → Bytes → Bytes → Prop where
  | null {rest : Bytes} : Value convert .null (ascii "null" ++ rest) rest
  | bool {value : Bool} {rest : Bytes} :
    Value convert (.bool value) (ascii (if value then "true" else "false") ++ rest) rest
  | int {whole rest : Bytes} (digits : Digits whole) :
    Value convert (.int (integer whole)) (whole ++ rest) rest
  | double {whole part rest : Bytes} (digits : Digits whole) (fraction : Digits part) :
    Value convert (.double (convert (whole ++ byte '.' :: part) rest))
      (whole ++ byte '.' :: part ++ rest) rest
  | str {content rest : Bytes} (escaped : WellEscaped content) :
    Value convert (.str content) (byte '"' :: (content ++ byte '"' :: rest)) rest
  | emptyList {inner rest : Bytes} (close : Trivia inner (byte ']' :: rest)) :
    Value convert (.list []) (byte '[' :: inner) rest
  | list {items : List (JObject Double)} {inner first rest : Bytes} (gap : Trivia inner first)
    (elements : Elements convert items first rest) :
    Value convert (.list items) (byte '[' :: inner) rest
  | emptyDict {inner rest : Bytes} (close : Trivia inner (byte '}' :: rest)) :
    Value convert (.dict []) (byte '{' :: inner) rest
  | dict {members : List (Bytes × JObject Double)} {inner first rest : Bytes}
    (gap : Trivia inner first) (pairs : Members convert members first rest) :
    Value convert (.dict (SortedMap.build JObject.keyBefore members)) (byte '{' :: inner) rest

/-- Values separated by commas and closed by a bracket. -/
inductive Elements (convert : Bytes → Bytes → Double) :
    List (JObject Double) → Bytes → Bytes → Prop where
  | last {item : JObject Double} {text after rest : Bytes} (value : Value convert item text after)
    (close : Trivia after (byte ']' :: rest)) : Elements convert [item] text rest
  | more {item : JObject Double} {items : List (JObject Double)} {text after gap next rest : Bytes}
    (value : Value convert item text after) (comma : Trivia after (byte ',' :: gap))
    (blank : Trivia gap next) (others : Elements convert items next rest) :
    Elements convert (item :: items) text rest

/-- Pairs of a key and a value separated by commas and closed by a brace. -/
inductive Members (convert : Bytes → Bytes → Double) :
    List (Bytes × JObject Double) → Bytes → Bytes → Prop where
  | last {key : Bytes} {item : JObject Double} {text after gap next afterValue rest : Bytes}
    (name : Value convert (.str key) text after) (colon : Trivia after (byte ':' :: gap))
    (blank : Trivia gap next) (value : Value convert item next afterValue)
    (close : Trivia afterValue (byte '}' :: rest)) : Members convert [(key, item)] text rest
  | more {key : Bytes} {item : JObject Double} {members : List (Bytes × JObject Double)}
    {text after gap next afterValue gapToo nextToo rest : Bytes}
    (name : Value convert (.str key) text after) (colon : Trivia after (byte ':' :: gap))
    (blank : Trivia gap next) (value : Value convert item next afterValue)
    (comma : Trivia afterValue (byte ',' :: gapToo)) (blankToo : Trivia gapToo nextToo)
    (others : Members convert members nextToo rest) :
    Members convert ((key, item) :: members) text rest

end

/-! ### Dangling comments -/

mutual

/-- A value is due here, and looking for it leads to an unterminated comment in
place of a value, a key or a first element. -/
inductive DanglingValue (convert : Bytes → Bytes → Double) : Bytes → Prop where
  | here {text : Bytes} (unterminated : Unterminated text) : DanglingValue convert text
  | list {inner first : Bytes} (gap : Trivia inner first)
    (elements : DanglingElements convert first) : DanglingValue convert (byte '[' :: inner)
  | dict {inner first : Bytes} (gap : Trivia inner first)
    (members : DanglingMembers convert first) : DanglingValue convert (byte '{' :: inner)

/-- The same of the elements of a list. -/
inductive DanglingElements (convert : Bytes → Bytes → Double) : Bytes → Prop where
  | first {text : Bytes} (value : DanglingValue convert text) : DanglingElements convert text
  | later {item : JObject Double} {text after gap next : Bytes}
    (value : Value convert item text after) (comma : Trivia after (byte ',' :: gap))
    (blank : Trivia gap next) (others : DanglingElements convert next) :
    DanglingElements convert text

/-- The same of the members of a dictionary. -/
inductive DanglingMembers (convert : Bytes → Bytes → Double) : Bytes → Prop where
  | key {text : Bytes} (value : DanglingValue convert text) : DanglingMembers convert text
  | value {key text after gap next : Bytes} (name : Value convert (.str key) text after)
    (colon : Trivia after (byte ':' :: gap)) (blank : Trivia gap next)
    (value : DanglingValue convert next) : DanglingMembers convert text
  | later {key : Bytes} {item : JObject Double}
    {text after gap next afterValue gapToo nextToo : Bytes}
    (name : Value convert (.str key) text after) (colon : Trivia after (byte ':' :: gap))
    (blank : Trivia gap next) (value : Value convert item next afterValue)
    (comma : Trivia afterValue (byte ',' :: gapToo)) (blankToo : Trivia gapToo nextToo)
    (others : DanglingMembers convert nextToo) : DanglingMembers convert text

end

/-- A value is due behind some trivia, and an unterminated comment is in the way. -/
def Dangling (convert : Bytes → Bytes → Double) (text : Bytes) : Prop :=
  ∃ first, Trivia text first ∧ DanglingValue convert first

end Luce.TinyJson
