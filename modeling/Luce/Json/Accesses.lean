/-
This file proves that the parser stays in its string.

The parser is modelled once more, with a record of every value that `idx_` takes, of
every element of `str_` it reads, and of the positions it compares and searches from.
None of its loops looks at the length. They stop at the terminating zero, which is
neither blank nor a digit; the count of backslashes stops at the opening quote; and
behind a comment without a line break, `npos + 1` wraps around to the beginning.

What is recorded is kept when the parser throws and when the fuel runs out, so the
records on all amounts of fuel are those of the whole run, whether it ends or not.
-/

import Luce.Json.Parser
import Luce.Library.Tracing

namespace Luce.TinyJson

open Library Library.Tracing

/-- What the parser does with a position. -/
inductive Access where
  /-- `idx_` becomes this. -/
  | index (idx : Nat)
  /-- `str_[pos]` is read. -/
  | read (pos : Nat)
  | compare (pos : Nat)
  | find (pos : Nat)
  /-- The text from there on is given away, to `substr`, `strtol` or `strtof64`. -/
  | tail (pos : Nat)
  /-- The backwards count in the string that was opened there is here. -/
  | escapes (opening pos : Nat)
deriving DecidableEq, Repr

/-- No position is behind the end, and no count of backslashes is before the opening
quote. -/
def Access.Inside (str : Bytes) : Access → Prop
  | .index pos | .read pos | .compare pos | .find pos | .tail pos => pos ≤ str.length
  | .escapes opening pos => opening ≤ pos ∧ pos ≤ str.length

abbrev AccessTrace (Value : Type) : Type := Trace Access ParseError Value

/-- `pos - 1` for a `size_t`. -/
def previous : Nat → Nat
  | 0 => 2 ^ 64 - 1
  | pos + 1 => pos

namespace Traced

variable {Double : Type} (ops : FloatOps Double) (str : Bytes)

def charAt (pos : Nat) : AccessTrace Byte := do
  record (.read pos)
  silent (TinyJson.charAt str pos)

def compare (pos : Nat) (text : Bytes) : AccessTrace Bool := do
  record (.compare pos)
  silent (TinyJson.compare str pos text)

/-- `while (condition(str_[idx_])) ++idx_;` -/
def skipWhile (condition : Byte → Bool) (idx : Nat) : AccessTrace Nat :=
  if idx ≤ str.length then do
    let char ← charAt str idx
    if condition char then
      record (.index (idx + 1))
      skipWhile condition (idx + 1)
    else pure idx
  else do
    record (.read idx)
    silent (Fuel.raise .outOfBounds)
termination_by str.length + 1 - idx

/-! ### Tokens -/

def commentLoop : Nat → Nat → AccessTrace Nat
  | 0, _ => silent Fuel.exhausted
  | fuel + 1, idx => do
    record (.find idx)
    let nextPos := find str (byte '\n') idx
    if nextPos = some str.length then
      silent (Fuel.raise (.logicError "invalid comment area!"))
    else
      record (.index (lineBehind nextPos))
      let idx ← skipWhile str isSpace (lineBehind nextPos)
      let again ← compare str idx (ascii "//")
      if again then commentLoop fuel idx else pure idx

def skipComment (fuel idx : Nat) : AccessTrace Nat := do
  let comment ← compare str idx (ascii "//")
  if comment then commentLoop str fuel idx else pure idx

def getNextToken (fuel idx : Nat) : AccessTrace (Byte × Nat) := do
  let idx ← skipWhile str isSpace idx
  if idx ≥ str.length then
    silent (Fuel.raise (.logicError "Unexpected character in parse json"))
  else
    let idx ← skipComment str fuel idx
    let token ← charAt str idx
    pure (token, idx)

/-! ### Scalars -/

def parseNull (idx : Nat) : AccessTrace (JObject Double × Nat) := do
  let isNull ← compare str idx (ascii "null")
  if isNull then
    record (.index (idx + 4))
    pure (.null, idx + 4)
  else silent (Fuel.raise (.logicError "parse null error"))

def parseBool (idx : Nat) : AccessTrace (JObject Double × Nat) := do
  let isTrue ← compare str idx (ascii "true")
  if isTrue then
    record (.index (idx + 4))
    pure (.bool true, idx + 4)
  else
    let isFalse ← compare str idx (ascii "false")
    if isFalse then
      record (.index (idx + 5))
      pure (.bool false, idx + 5)
    else silent (Fuel.raise (.logicError "parse bool error"))

def parseNumber (idx : Nat) : AccessTrace (JObject Double × Nat) := do
  let begin := idx
  let first ← charAt str idx
  if !isDigit first then
    silent (Fuel.raise (.logicError "invalid character in number"))
  else
    let idx ← skipWhile str isDigit idx
    let next ← charAt str idx
    if next ≠ byte '.' then
      record (.tail begin)
      pure (.int (Int32.ofNat (strtol (str.drop begin))), idx)
    else
      let idx := idx + 1
      record (.index idx)
      let fraction ← charAt str idx
      if !isDigit fraction then
        silent (Fuel.raise (.logicError "at least one digit required in parse float part!"))
      else
        let idx ← skipWhile str isDigit idx
        record (.tail begin)
        pure (.double (ops.strtof64 (cString (str.drop begin))), idx)

/-! ### Strings -/

/-- `while (str_[pos] == '\\') --pos;` in the string that was opened there. -/
def beforeEscapes (opening : Nat) : Nat → AccessTrace Nat
  | 0 => do
    record (.escapes opening 0)
    let char ← charAt str 0
    if char = byte '\\' then
      record (.escapes opening (previous 0))
      silent (Fuel.raise .outOfBounds)
    else pure 0
  | pos + 1 => do
    record (.escapes opening (pos + 1))
    let char ← charAt str (pos + 1)
    if char = byte '\\' then beforeEscapes opening pos else pure (pos + 1)

def isEscConsume (opening pos : Nat) : AccessTrace Bool := do
  let endPos := pos
  let pos ← beforeEscapes str opening pos
  let cnt := endPos - pos
  pure (decide (cnt % 2 = 0))

def closingQuote (opening pos : Nat) : AccessTrace Nat := do
  let last ← charAt str (previous pos)
  if last ≠ byte '\\' then pure pos
  else
    let consumed ← isEscConsume str opening (previous pos)
    if consumed then pure pos
    else
      record (.find (pos + 1))
      match _found : find str (byte '"') (pos + 1) with
      | none => silent (Fuel.raise (.logicError "expected left '\"' in parse string"))
      | some next => closingQuote opening next
termination_by str.length - pos
decreasing_by
  have := find_bounds str _found
  omega

def parseString (idx : Nat) : AccessTrace (JObject Double × Nat) := do
  let prePos := idx + 1
  record (.index prePos)
  record (.find prePos)
  match find str (byte '"') prePos with
  | none => silent (Fuel.raise (.logicError "parse string error"))
  | some pos =>
    let pos ← closingQuote str idx pos
    record (.index (pos + 1))
    record (.tail prePos)
    pure (.str ((str.drop prePos).take (pos - prePos)), pos + 1)

/-! ### Containers -/

def listLoop (parse : Nat → AccessTrace (JObject Double × Nat)) :
    Nat → List (JObject Double) → Nat → AccessTrace (List (JObject Double) × Nat)
  | 0, _, _ => silent Fuel.exhausted
  | fuel + 1, arr, idx => do
    let (item, idx) ← parse idx
    let arr := arr ++ [item]
    let (ch, idx) ← getNextToken str fuel idx
    if ch = byte ']' then
      record (.index (idx + 1))
      pure (arr, idx + 1)
    else if ch ≠ byte ',' then
      silent (Fuel.raise (.logicError "expected ',' in parse list"))
    else
      record (.index (idx + 1))
      listLoop parse fuel arr (idx + 1)

def parseList (parse : Nat → AccessTrace (JObject Double × Nat)) (fuel idx : Nat) :
    AccessTrace (JObject Double × Nat) := do
  let idx := idx + 1
  record (.index idx)
  let (ch, idx) ← getNextToken str fuel idx
  if ch = byte ']' then
    record (.index (idx + 1))
    pure (.list [], idx + 1)
  else
    let (arr, idx) ← listLoop str parse fuel [] idx
    pure (.list arr, idx)

def dictLoop (parse : Nat → AccessTrace (JObject Double × Nat)) :
    Nat → List (Bytes × JObject Double) → Nat → AccessTrace (List (Bytes × JObject Double) × Nat)
  | 0, _, _ => silent Fuel.exhausted
  | fuel + 1, dict, idx => do
    let (keyObject, idx) ← parse idx
    let key ← silent (stringValue keyObject)
    let (ch, idx) ← getNextToken str fuel idx
    if ch ≠ byte ':' then
      silent (Fuel.raise (.logicError "expected ':' in parse dict"))
    else
      record (.index (idx + 1))
      let (value, idx) ← parse (idx + 1)
      let dict := JObject.setMember dict key value
      let (ch, idx) ← getNextToken str fuel idx
      if ch = byte '}' then
        record (.index (idx + 1))
        pure (dict, idx + 1)
      else if ch ≠ byte ',' then
        silent (Fuel.raise (.logicError "expected ':' in parse dict"))
      else
        record (.index (idx + 1))
        dictLoop parse fuel dict (idx + 1)

def parseDict (parse : Nat → AccessTrace (JObject Double × Nat)) (fuel idx : Nat) :
    AccessTrace (JObject Double × Nat) := do
  let idx := idx + 1
  record (.index idx)
  let (ch, idx) ← getNextToken str fuel idx
  if ch = byte '}' then
    record (.index (idx + 1))
    pure (.dict [], idx + 1)
  else
    let (dict, idx) ← dictLoop str parse fuel [] idx
    pure (.dict dict, idx)

/-! ### Values -/

def parseToken (parse : Nat → AccessTrace (JObject Double × Nat)) (fuel : Nat) (token : Byte)
    (idx : Nat) : AccessTrace (JObject Double × Nat) :=
  if token = byte 'n' then parseNull str idx
  else if token = byte 't' ∨ token = byte 'f' then parseBool str idx
  else if token = byte '-' ∨ isDigit token then parseNumber ops str idx
  else if token = byte '"' then parseString str idx
  else if token = byte '[' then parseList str parse fuel idx
  else if token = byte '{' then parseDict str parse fuel idx
  else silent (Fuel.raise (.logicError "Unexpected character in parse json"))

def parse : Nat → Nat → AccessTrace (JObject Double × Nat)
  | 0, _ => silent Fuel.exhausted
  | fuel + 1, idx => do
    let (token, idx) ← getNextToken str fuel idx
    parseToken ops str (parse fuel) fuel token idx

omit str in
def fromString (fuel : Nat) (content : Bytes) : AccessTrace (JObject Double) := do
  record (.index 0)
  let (value, _) ← parse ops (trimRight content) fuel 0
  pure value

end Traced

/-! ### The loops -/

variable {str : Bytes}

theorem getD_of_lt {pos : Nat} (inside : pos < str.length) : str.getD pos 0 = str[pos] := by
  rw [List.getD_eq_getElem?_getD, List.getElem?_eq_getElem inside, Option.getD_some]

/-- There is no element behind the end but the terminating zero. -/
theorem lt_length_of_getD {pos : Nat} (inside : pos ≤ str.length) (notZero : str.getD pos 0 ≠ 0) :
    pos < str.length := by
  refine lt_of_le_of_ne inside fun atEnd => notZero ?_
  rw [atEnd, List.getD_eq_getElem?_getD, List.getElem?_length, Option.getD_none]

/-- The loop over the characters that meet a condition, one character at a time. -/
theorem skipWhile_step {condition : Byte → Bool} {idx : Nat} (inside : idx ≤ str.length)
    (stops : condition 0 = false) :
    skipWhile str condition idx = charAt str idx >>= fun char =>
      if condition char then skipWhile str condition (idx + 1) else pure idx := by
  rw [charAt, if_pos inside, skipWhile, if_pos inside, Fuel.ok_bind]
  split
  · rename_i holds
    have inside : idx < str.length := lt_length_of_getD inside fun zero => by
      rw [zero, stops] at holds
      cases holds
    rw [getD_of_lt inside] at holds
    have behind : idx + 1 ≤ str.length := inside
    rw [List.drop_eq_getElem_cons inside, List.takeWhile_cons_of_pos holds, skipWhile,
      if_pos behind, List.length_cons, Nat.add_assoc, Nat.add_comm 1]
  · rename_i fails
    by_cases atEnd : idx = str.length
    · simp [atEnd]
      rfl
    · have inside : idx < str.length := lt_of_le_of_ne inside atEnd
      rw [getD_of_lt inside] at fails
      rw [List.drop_eq_getElem_cons inside, List.takeWhile_cons_of_neg fails]
      rfl

/-! ### Every access is inside -/

/-- The trace ends like the run and stays in the string. -/
abbrev StaysInside (str : Bytes) {Value : Type} (good : Value → Prop) (trace : AccessTrace Value)
    (run : Run Value) : Prop :=
  Mirrors (Access.Inside str) good trace run

variable {Double : Type} {ops : FloatOps Double}

namespace Traced

theorem charAt_inside {pos : Nat} (inside : pos ≤ str.length) :
    StaysInside str (· = str.getD pos 0) (charAt str pos) (TinyJson.charAt str pos) := by
  rw [charAt]
  refine .record (by exact inside) (.silent fun char read => ?_)
  rw [TinyJson.charAt, if_pos inside] at read
  exact (Except.ok.inj read).symm

/-- What is found to stand at a position ends inside. -/
theorem compare_inside {pos : Nat} (inside : pos ≤ str.length) (text : Bytes) :
    StaysInside str (fun same => same = true → pos + text.length ≤ str.length)
      (compare str pos text) (TinyJson.compare str pos text) := by
  rw [compare]
  refine .record (by exact inside) (.silent fun same compared starts => ?_)
  rw [TinyJson.compare, if_pos inside] at compared
  cases compared
  have length := congrArg List.length (of_decide_eq_true starts)
  rw [List.length_take, List.length_drop] at length
  omega

theorem skipWhile_inside {condition : Byte → Bool} (stops : condition 0 = false) {idx : Nat}
    (inside : idx ≤ str.length) :
    StaysInside str (· ≤ str.length) (skipWhile str condition idx)
      (TinyJson.skipWhile str condition idx) := by
  induction left : str.length - idx using Nat.strong_induction_on generalizing idx with
  | _ left inductionHypothesis =>
    rw [skipWhile, if_pos inside, skipWhile_step inside stops]
    refine (charAt_inside inside).bind ?_
    rintro _ rfl
    refine .ite (fun holds => ?_) fun _ => .pure inside
    have further : idx < str.length := lt_length_of_getD inside fun zero => by
      rw [zero, stops] at holds
      cases holds
    refine .record (by exact further) ?_
    exact inductionHypothesis (str.length - (idx + 1)) (by omega) further rfl

theorem lineBehind_find_le (char : Byte) (idx : Nat) :
    lineBehind (find str char idx) ≤ str.length := by
  cases found : find str char idx with
  | none => exact Nat.zero_le _
  | some nextPos => exact (find_bounds str found).2

theorem commentLoop_inside (fuel : Nat) {idx : Nat} (inside : idx ≤ str.length) :
    StaysInside str (· ≤ str.length) (commentLoop str fuel idx)
      (TinyJson.commentLoop str fuel idx) := by
  induction fuel generalizing idx with
  | zero => exact .exhausted
  | succ fuel inductionHypothesis =>
    rw [commentLoop, TinyJson.commentLoop]
    refine .record (by exact inside) (.ite (fun _ => .raise _) fun _ => ?_)
    have line : lineBehind (find str (byte '\n') idx) ≤ str.length := lineBehind_find_le _ idx
    refine .record (by exact line) ((skipWhile_inside (by decide) line).bind fun idx inside => ?_)
    refine (compare_inside inside _).bind fun again _ => ?_
    exact .ite (fun _ => inductionHypothesis inside) fun _ => .pure inside

/-- The token is what stands at the index, which may be the terminating zero. -/
theorem getNextToken_inside (fuel : Nat) {idx : Nat} (inside : idx ≤ str.length) :
    StaysInside str (fun result => result.2 ≤ str.length ∧ str.getD result.2 0 = result.1)
      (getNextToken str fuel idx) (TinyJson.getNextToken str fuel idx) := by
  refine (skipWhile_inside (by decide) inside).bind fun idx inside => ?_
  refine .ite (fun _ => .raise _) fun _ => ?_
  have skipped : StaysInside str (· ≤ str.length) (skipComment str fuel idx)
      (TinyJson.skipComment str fuel idx) :=
    (compare_inside inside _).bind fun comment _ =>
      .ite (fun _ => commentLoop_inside fuel inside) fun _ => .pure inside
  refine skipped.bind fun idx inside => (charAt_inside inside).bind ?_
  rintro _ rfl
  exact .pure ⟨inside, rfl⟩

/-- The index behind what a function has read. -/
abbrev EndsInside (str : Bytes) {Result : Type} (result : Result × Nat) : Prop :=
  result.2 ≤ str.length

theorem parseNull_inside {idx : Nat} (inside : idx ≤ str.length) :
    StaysInside str (EndsInside str) (parseNull str idx : AccessTrace (JObject Double × Nat))
      (TinyJson.parseNull str idx) := by
  refine (compare_inside inside _).bind fun isNull fits => .ite (fun holds => ?_) fun _ => .raise _
  exact .record (by exact fits holds) (.pure (fits holds))

theorem parseBool_inside {idx : Nat} (inside : idx ≤ str.length) :
    StaysInside str (EndsInside str) (parseBool str idx : AccessTrace (JObject Double × Nat))
      (TinyJson.parseBool str idx) := by
  refine (compare_inside inside _).bind fun isTrue fits => .ite (fun holds => ?_) fun _ => ?_
  · exact .record (by exact fits holds) (.pure (fits holds))
  refine (compare_inside inside _).bind fun isFalse fits => .ite (fun holds => ?_) fun _ => .raise _
  exact .record (by exact fits holds) (.pure (fits holds))

theorem parseNumber_inside {idx : Nat} (inside : idx ≤ str.length) :
    StaysInside str (EndsInside str) (parseNumber ops str idx)
      (TinyJson.parseNumber ops str idx) := by
  refine (charAt_inside inside).bind fun first _ => .ite (fun _ => .raise _) fun _ => ?_
  refine (skipWhile_inside (by decide) inside).bind fun whole wholeInside => ?_
  refine (charAt_inside wholeInside).bind ?_
  rintro _ rfl
  refine .ite (fun _ => .record (by exact inside) (.pure wholeInside)) fun dot => ?_
  have fraction : whole < str.length := lt_length_of_getD wholeInside fun zero => by
    rw [zero] at dot
    exact dot (by decide)
  refine .record (by exact fraction) ((charAt_inside fraction).bind fun first _ => ?_)
  refine .ite (fun _ => .raise _) fun _ => ?_
  refine (skipWhile_inside (by decide) fraction).bind fun final finalInside => ?_
  exact .record (by exact inside) (.pure finalInside)

/-- The count of backslashes stops at the opening quote, which is none. -/
theorem beforeEscapes_inside {opening pos : Nat} (quote : str.getD opening 0 = byte '"')
    (behind : opening ≤ pos) (inside : pos ≤ str.length) :
    StaysInside str (opening ≤ ·) (beforeEscapes str opening pos)
      (TinyJson.beforeEscapes str pos) := by
  induction pos with
  | zero =>
    obtain rfl := Nat.le_zero.mp behind
    refine .record (by exact ⟨behind, inside⟩) ((charAt_inside inside).bind ?_)
    rintro _ rfl
    refine .ite (fun escape => ?_) fun _ => .pure behind
    exact absurd (quote.symm.trans escape) (by decide)
  | succ pos inductionHypothesis =>
    refine .record (by exact ⟨behind, inside⟩) ((charAt_inside inside).bind ?_)
    rintro _ rfl
    refine .ite (fun escape => ?_) fun _ => .pure behind
    have before : opening ≠ pos + 1 := by
      rintro rfl
      exact absurd (quote.symm.trans escape) (by decide)
    exact inductionHypothesis (by omega) (by omega)

example : (Traced.beforeEscapes (ascii "\"\\\\\"") 0 2).events =
    [.escapes 0 2, .read 2, .escapes 0 1, .read 1, .escapes 0 0, .read 0] := by decide

theorem closingQuote_inside {opening pos : Nat} (quote : str.getD opening 0 = byte '"')
    (behind : opening < pos) (inside : pos < str.length) :
    StaysInside str (fun closing => opening < closing ∧ closing < str.length)
      (closingQuote str opening pos) (TinyJson.closingQuote str pos) := by
  induction left : str.length - pos using Nat.strong_induction_on generalizing pos with
  | _ left inductionHypothesis =>
    obtain ⟨pos, rfl⟩ : ∃ less, pos = less + 1 := ⟨pos - 1, by omega⟩
    have lastInside : pos ≤ str.length := by omega
    rw [closingQuote, TinyJson.closingQuote]
    refine (charAt_inside lastInside).bind fun last _ => ?_
    refine .ite (fun _ => .pure ⟨behind, inside⟩) fun _ => ?_
    have counted : StaysInside str (fun _ => True) (isEscConsume str opening pos)
        (TinyJson.isEscConsume str pos) :=
      (beforeEscapes_inside quote (by omega) lastInside).bind fun _ _ => .pure trivial
    refine counted.bind fun consumed _ => .ite (fun _ => .pure ⟨behind, inside⟩) fun _ => ?_
    refine .record (by exact inside) ?_
    cases found : find str (byte '"') (pos + 1 + 1) with
    | none => exact .raise _
    | some next =>
      obtain ⟨further, nextInside⟩ := find_bounds str found
      exact inductionHypothesis _ (by omega) (by omega) nextInside rfl

theorem parseString_inside {idx : Nat} (inside : idx < str.length)
    (quote : str.getD idx 0 = byte '"') :
    StaysInside str (EndsInside str) (parseString str idx : AccessTrace (JObject Double × Nat))
      (TinyJson.parseString str idx) := by
  rw [parseString, TinyJson.parseString]
  refine .record (by exact inside) (.record (by exact inside) ?_)
  cases found : find str (byte '"') (idx + 1) with
  | none => exact .raise _
  | some pos =>
    obtain ⟨behind, posInside⟩ := find_bounds str found
    refine (closingQuote_inside quote behind posInside).bind fun closing bounds => ?_
    exact .record (by exact bounds.2) (.record (by exact inside) (.pure bounds.2))

/-! ### Containers and values -/

theorem lt_of_token {token : Byte} {idx : Nat}
    (here : idx ≤ str.length ∧ str.getD idx 0 = token) (notZero : token ≠ 0) :
    idx < str.length :=
  lt_length_of_getD here.1 (here.2 ▸ notZero)

section Containers

variable {traced : Nat → AccessTrace (JObject Double × Nat)}
  {parse : Nat → Run (JObject Double × Nat)}
  (parses : ∀ idx ≤ str.length, StaysInside str (EndsInside str) (traced idx) (parse idx))

include parses

theorem listLoop_inside (fuel : Nat) (arr : List (JObject Double)) {idx : Nat}
    (inside : idx ≤ str.length) :
    StaysInside str (EndsInside str) (listLoop str traced fuel arr idx)
      (TinyJson.listLoop str parse fuel arr idx) := by
  induction fuel generalizing arr idx with
  | zero => exact .exhausted
  | succ fuel inductionHypothesis =>
    rw [listLoop, TinyJson.listLoop]
    refine (parses idx inside).bind fun item itemInside => ?_
    refine (getNextToken_inside fuel itemInside).bind fun token here => ?_
    refine .ite (fun close => ?_) fun _ => .ite (fun _ => .raise _) fun comma => ?_
    · have further := lt_of_token here (close ▸ by decide)
      exact .record (by exact further) (.pure further)
    · have further := lt_of_token here (not_not.mp comma ▸ by decide)
      refine .record (by exact further) ?_
      exact inductionHypothesis _ further

theorem parseList_inside (fuel : Nat) {idx : Nat} (inside : idx < str.length) :
    StaysInside str (EndsInside str) (parseList str traced fuel idx)
      (TinyJson.parseList str parse fuel idx) := by
  refine .record (by exact inside) ((getNextToken_inside fuel inside).bind fun token here => ?_)
  refine .ite (fun close => ?_) fun _ => ?_
  · have further := lt_of_token here (close ▸ by decide)
    exact .record (by exact further) (.pure further)
  · exact (listLoop_inside parses fuel [] here.1).bind fun _ arrInside => .pure arrInside

theorem dictLoop_inside (fuel : Nat) (dict : List (Bytes × JObject Double)) {idx : Nat}
    (inside : idx ≤ str.length) :
    StaysInside str (EndsInside str) (dictLoop str traced fuel dict idx)
      (TinyJson.dictLoop str parse fuel dict idx) := by
  induction fuel generalizing dict idx with
  | zero => exact .exhausted
  | succ fuel inductionHypothesis =>
    rw [dictLoop, TinyJson.dictLoop]
    refine (parses idx inside).bind fun keyObject keyInside => ?_
    have isKey : StaysInside str (fun _ => True) (silent (stringValue keyObject.1))
        (stringValue keyObject.1) := .silent fun _ _ => trivial
    refine isKey.bind fun key _ => ?_
    refine (getNextToken_inside fuel keyInside).bind fun token here => ?_
    refine .ite (fun _ => .raise _) fun colon => ?_
    have further := lt_of_token here (not_not.mp colon ▸ by decide)
    refine .record (by exact further) ((parses _ further).bind fun value valueInside => ?_)
    refine (getNextToken_inside fuel valueInside).bind fun token here => ?_
    refine .ite (fun close => ?_) fun _ => .ite (fun _ => .raise _) fun comma => ?_
    · have further := lt_of_token here (close ▸ by decide)
      exact .record (by exact further) (.pure further)
    · have further := lt_of_token here (not_not.mp comma ▸ by decide)
      refine .record (by exact further) ?_
      exact inductionHypothesis _ further

theorem parseDict_inside (fuel : Nat) {idx : Nat} (inside : idx < str.length) :
    StaysInside str (EndsInside str) (parseDict str traced fuel idx)
      (TinyJson.parseDict str parse fuel idx) := by
  refine .record (by exact inside) ((getNextToken_inside fuel inside).bind fun token here => ?_)
  refine .ite (fun close => ?_) fun _ => ?_
  · have further := lt_of_token here (close ▸ by decide)
    exact .record (by exact further) (.pure further)
  · exact (dictLoop_inside parses fuel [] here.1).bind fun _ dictInside => .pure dictInside

theorem parseToken_inside (fuel : Nat) {token : Byte} {idx : Nat}
    (here : idx ≤ str.length ∧ str.getD idx 0 = token) :
    StaysInside str (EndsInside str) (parseToken ops str traced fuel token idx)
      (TinyJson.parseToken ops str parse fuel token idx) := by
  refine .ite (fun _ => parseNull_inside here.1) fun _ => ?_
  refine .ite (fun _ => parseBool_inside here.1) fun _ => ?_
  refine .ite (fun _ => parseNumber_inside here.1) fun _ => ?_
  refine .ite (fun quote => ?_) fun _ => .ite (fun bracket => ?_) fun _ =>
    .ite (fun brace => ?_) fun _ => .raise _
  · exact parseString_inside (lt_of_token here (quote ▸ by decide)) (here.2.trans quote)
  · exact parseList_inside parses fuel (lt_of_token here (bracket ▸ by decide))
  · exact parseDict_inside parses fuel (lt_of_token here (brace ▸ by decide))

end Containers

theorem parse_inside (fuel : Nat) : ∀ idx ≤ str.length,
    StaysInside str (EndsInside str) (parse ops str fuel idx)
      (TinyJson.parse ops str fuel idx) := by
  induction fuel with
  | zero => exact fun _ _ => .exhausted
  | succ fuel inductionHypothesis =>
    intro idx inside
    rw [parse, TinyJson.parse]
    refine (getNextToken_inside fuel inside).bind fun token here => ?_
    exact parseToken_inside inductionHypothesis fuel here

/-! ### More fuel -/

theorem commentLoop_continues (str : Bytes) : ∀ fuel idx,
    Continues (commentLoop str fuel idx) (commentLoop str (fuel + 1) idx)
  | 0, _ => .exhausted _
  | fuel + 1, idx => by
    conv => arg 1; rw [commentLoop]
    conv => arg 2; rw [commentLoop]
    refine .bind (.refl _) fun _ => .ite (.refl _) (.bind (.refl _) fun _ => ?_)
    refine .bind (.refl _) fun idx => .bind (.refl _) fun again => ?_
    exact .ite (commentLoop_continues str fuel idx) (.refl _)

theorem getNextToken_continues (str : Bytes) (fuel idx : Nat) :
    Continues (getNextToken str fuel idx) (getNextToken str (fuel + 1) idx) := by
  refine .bind (.refl _) fun idx => .ite (.refl _) (.bind ?_ fun _ => .refl _)
  exact .bind (.refl _) fun comment => .ite (commentLoop_continues str fuel idx) (.refl _)

section Fuel

variable {less more : Nat → AccessTrace (JObject Double × Nat)}
  (grows : ∀ idx, Continues (less idx) (more idx))

include grows

theorem listLoop_continues : ∀ fuel arr idx,
    Continues (listLoop str less fuel arr idx) (listLoop str more (fuel + 1) arr idx)
  | 0, _, _ => .exhausted _
  | fuel + 1, arr, idx => by
    rw [listLoop, listLoop]
    refine .bind (grows idx) fun item => .bind (getNextToken_continues str _ _) fun token => ?_
    refine .ite (.refl _) (.ite (.refl _) (.bind (.refl _) fun _ => ?_))
    exact listLoop_continues fuel _ _

theorem dictLoop_continues : ∀ fuel dict idx,
    Continues (dictLoop str less fuel dict idx) (dictLoop str more (fuel + 1) dict idx)
  | 0, _, _ => .exhausted _
  | fuel + 1, dict, idx => by
    rw [dictLoop, dictLoop]
    refine .bind (grows idx) fun keyObject => .bind (.refl _) fun key =>
      .bind (getNextToken_continues str _ _) fun colon =>
        .ite (.refl _) (.bind (.refl _) fun _ => ?_)
    refine .bind (grows _) fun value => .bind (getNextToken_continues str _ _) fun token => ?_
    refine .ite (.refl _) (.ite (.refl _) (.bind (.refl _) fun _ => ?_))
    exact dictLoop_continues fuel _ _

theorem parseToken_continues (fuel : Nat) (token : Byte) (idx : Nat) :
    Continues (parseToken ops str less fuel token idx)
      (parseToken ops str more (fuel + 1) token idx) := by
  refine .ite (.refl _) (.ite (.refl _) (.ite (.refl _) (.ite (.refl _) (.ite ?_ (.ite ?_
    (.refl _))))))
  · exact .bind (.refl _) fun _ => .bind (getNextToken_continues str _ _) fun token =>
      .ite (.refl _) (.bind (listLoop_continues grows _ _ _) fun _ => .refl _)
  · exact .bind (.refl _) fun _ => .bind (getNextToken_continues str _ _) fun token =>
      .ite (.refl _) (.bind (dictLoop_continues grows _ _ _) fun _ => .refl _)

end Fuel

theorem parse_continues (ops : FloatOps Double) (str : Bytes) : ∀ fuel idx,
    Continues (parse ops str fuel idx) (parse ops str (fuel + 1) idx)
  | 0, _ => .exhausted _
  | fuel + 1, idx => by
    conv => arg 1; rw [parse]
    conv => arg 2; rw [parse]
    exact .bind (getNextToken_continues str _ _) fun token =>
      parseToken_continues (parse_continues ops str fuel) _ _ _

/-- On more fuel `FromString` does what it does on less, and goes on from there. -/
theorem fromString_continues (ops : FloatOps Double) (fuel : Nat) (content : Bytes) :
    Continues (fromString ops fuel content) (fromString ops (fuel + 1) content) :=
  .bind (.refl _) fun _ => .bind (parse_continues ops _ fuel 0) fun _ => .refl _

end Traced

/-- On every text and any amount of fuel, `FromString` stays in the trimmed text, does
what the parser does, and with more fuel goes on from there. -/
theorem fromString_inside (ops : FloatOps Double) (fuel : Nat) (content : Bytes) :
    (∀ access ∈ (Traced.fromString ops fuel content).events,
      access.Inside (trimRight content)) ∧
    (Traced.fromString ops fuel content).outcome = fromString ops fuel content ∧
    (Traced.fromString ops fuel content).events <+:
      (Traced.fromString ops (fuel + 1) content).events := by
  have mirrors : StaysInside (trimRight content) (fun _ => True)
      (Traced.fromString ops fuel content) (fromString ops fuel content) := by
    refine .record (by exact Nat.zero_le _) ?_
    exact (Traced.parse_inside fuel 0 (Nat.zero_le _)).bind fun _ _ => .pure trivial
  exact ⟨mirrors.events, mirrors.outcome, (Traced.fromString_continues ops fuel content).events⟩

end Luce.TinyJson
