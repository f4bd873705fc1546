/-
This file models the JSON parser.

`str_` does not change once the text has been trimmed, so it is a parameter here,
and `idx_` is passed from call to call. An element of the string may be read up to
its terminating zero; reading behind that is undefined. `compare` throws when its
position is behind the end, and `find` has no result where the library returns
`npos`. The three functions `Parse`, `ParseList` and `ParseDict` call each other
through `Parse`, and the loop over comments may run forever, so both run on fuel.
-/

import Luce.Json.JObject
import Luce.Library.Fuel
import Mathlib.Algebra.Group.Nat.Defs
import Mathlib.Data.List.DropRight

namespace Luce.TinyJson

open Library

/-- What stops the parser. -/
inductive ParseError where
  | logicError (what : String)
  | outOfRange
  /-- Undefined behaviour: an element behind the end of the string. -/
  | outOfBounds
deriving DecidableEq, Repr

abbrev Run := Fuel.Run ParseError

/-! ### Characters -/

/-- `std::isspace` in the C locale. -/
def isSpace (char : Byte) : Bool := char = byte ' ' || (9 ≤ char && char ≤ 13)

/-- `std::isdigit`. -/
def isDigit (char : Byte) : Bool := byte '0' ≤ char && char ≤ byte '9'

variable {Double : Type} (ops : FloatOps Double) (str : Bytes)

/-- `str_[idx]`. -/
def charAt (idx : Nat) : Run Byte :=
  if idx ≤ str.length then .ok (str.getD idx 0) else Fuel.raise .outOfBounds

/-- `str_.compare(pos, text.size(), text) == 0`. -/
def compare (pos : Nat) (text : Bytes) : Run Bool :=
  if pos ≤ str.length then .ok (decide ((str.drop pos).take text.length = text))
  else Fuel.raise .outOfRange

/-- `str_.find(char, pos)`. -/
def find (char : Byte) (pos : Nat) : Option Nat :=
  let skipped := ((str.drop pos).takeWhile (· ≠ char)).length
  if pos + skipped < str.length then some (pos + skipped) else none

/-- `while (condition(str_[idx_])) ++idx_;` for a condition that is false of zero. -/
def skipWhile (condition : Byte → Bool) (idx : Nat) : Run Nat :=
  if idx ≤ str.length then .ok (idx + ((str.drop idx).takeWhile condition).length)
  else Fuel.raise .outOfBounds

/-! ### Tokens -/

/-- `next_pos + 1`, which wraps around to zero behind `npos`. -/
def lineBehind : Option Nat → Nat
  | some nextPos => nextPos + 1
  | none => 0

/-- The loop of `SkipComment`. -/
def commentLoop : Nat → Nat → Run Nat
  | 0, _ => Fuel.exhausted
  | fuel + 1, idx => do
    let nextPos := find str (byte '\n') idx
    if nextPos = some str.length then
      Fuel.raise (.logicError "invalid comment area!")
    else
      let idx ← skipWhile str isSpace (lineBehind nextPos)
      let again ← compare str idx (ascii "//")
      if again then commentLoop fuel idx else pure idx

def skipComment (fuel idx : Nat) : Run Nat := do
  let comment ← compare str idx (ascii "//")
  if comment then commentLoop str fuel idx else pure idx

/-- The token, and where it is. -/
def getNextToken (fuel idx : Nat) : Run (Byte × Nat) := do
  let idx ← skipWhile str isSpace idx
  if idx ≥ str.length then
    Fuel.raise (.logicError "Unexpected character in parse json")
  else
    let idx ← skipComment str fuel idx
    let token ← charAt str idx
    pure (token, idx)

/-! ### Scalars -/

def parseNull (idx : Nat) : Run (JObject Double × Nat) := do
  let isNull ← compare str idx (ascii "null")
  if isNull then pure (.null, idx + 4)
  else Fuel.raise (.logicError "parse null error")

def parseBool (idx : Nat) : Run (JObject Double × Nat) := do
  let isTrue ← compare str idx (ascii "true")
  if isTrue then pure (.bool true, idx + 4)
  else
    let isFalse ← compare str idx (ascii "false")
    if isFalse then pure (.bool false, idx + 5)
    else Fuel.raise (.logicError "parse bool error")

/-- `strtol` on a text that begins with digits: the value saturates. -/
def strtol (text : Bytes) : Nat :=
  let value := (text.takeWhile isDigit).foldl
    (fun value digit => 10 * value + (digit - byte '0').toNat) 0
  min value (2 ^ 63 - 1)

def parseNumber (idx : Nat) : Run (JObject Double × Nat) := do
  let begin := idx
  let first ← charAt str idx
  if !isDigit first then
    Fuel.raise (.logicError "invalid character in number")
  else
    let idx ← skipWhile str isDigit idx
    let next ← charAt str idx
    if next ≠ byte '.' then
      pure (.int (Int32.ofNat (strtol (str.drop begin))), idx)
    else
      let idx := idx + 1
      let fraction ← charAt str idx
      if !isDigit fraction then
        Fuel.raise (.logicError "at least one digit required in parse float part!")
      else
        let idx ← skipWhile str isDigit idx
        pure (.double (ops.strtof64 (cString (str.drop begin))), idx)

/-! ### Strings -/

/-- `while (str_[pos] == '\\') --pos;`. Below zero the index wraps around. -/
def beforeEscapes : Nat → Run Nat
  | 0 => do
    let char ← charAt str 0
    if char = byte '\\' then Fuel.raise .outOfBounds else pure 0
  | pos + 1 => do
    let char ← charAt str (pos + 1)
    if char = byte '\\' then beforeEscapes pos else pure (pos + 1)

def isEscConsume (pos : Nat) : Run Bool := do
  let endPos := pos
  let pos ← beforeEscapes str pos
  let cnt := endPos - pos
  pure (decide (cnt % 2 = 0))

theorem find_bounds {char : Byte} {pos found : Nat} (outcome : find str char pos = some found) :
    pos ≤ found ∧ found < str.length := by
  simp only [find] at outcome
  split at outcome
  · obtain rfl := Option.some.inj outcome
    exact ⟨Nat.le_add_right _ _, ‹_›⟩
  · cases outcome

/-- The loop of `ParseString`: from one quote to the next until one is not escaped. -/
def closingQuote (pos : Nat) : Run Nat := do
  let last ← charAt str (pos - 1)
  if last ≠ byte '\\' then pure pos
  else
    let consumed ← isEscConsume str (pos - 1)
    if consumed then pure pos
    else match _found : find str (byte '"') (pos + 1) with
      | none => Fuel.raise (.logicError "expected left '\"' in parse string")
      | some next => closingQuote next
termination_by str.length - pos
decreasing_by
  have := find_bounds str _found
  omega

def parseString (idx : Nat) : Run (JObject Double × Nat) := do
  let prePos := idx + 1
  match find str (byte '"') prePos with
  | none => Fuel.raise (.logicError "parse string error")
  | some pos =>
    let pos ← closingQuote str pos
    pure (.str ((str.drop prePos).take (pos - prePos)), pos + 1)

/-! ### Containers -/

/-- The loop of `ParseList`, given `Parse`. -/
def listLoop (parse : Nat → Run (JObject Double × Nat)) :
    Nat → List (JObject Double) → Nat → Run (List (JObject Double) × Nat)
  | 0, _, _ => Fuel.exhausted
  | fuel + 1, arr, idx => do
    let (item, idx) ← parse idx
    let arr := arr ++ [item]
    let (ch, idx) ← getNextToken str fuel idx
    if ch = byte ']' then pure (arr, idx + 1)
    else if ch ≠ byte ',' then
      Fuel.raise (.logicError "expected ',' in parse list")
    else listLoop parse fuel arr (idx + 1)

def parseList (parse : Nat → Run (JObject Double × Nat)) (fuel idx : Nat) :
    Run (JObject Double × Nat) := do
  let idx := idx + 1
  let (ch, idx) ← getNextToken str fuel idx
  if ch = byte ']' then pure (.list [], idx + 1)
  else
    let (arr, idx) ← listLoop str parse fuel [] idx
    pure (.list arr, idx)

/-- `Value<string>()`. -/
def stringValue : JObject Double → Run Bytes
  | .str value => pure value
  | _ => Fuel.raise (.logicError "type error in get string value!")

/-- The loop of `ParseDict`, given `Parse`. -/
def dictLoop (parse : Nat → Run (JObject Double × Nat)) :
    Nat → List (Bytes × JObject Double) → Nat → Run (List (Bytes × JObject Double) × Nat)
  | 0, _, _ => Fuel.exhausted
  | fuel + 1, dict, idx => do
    let (keyObject, idx) ← parse idx
    let key ← stringValue keyObject
    let (ch, idx) ← getNextToken str fuel idx
    if ch ≠ byte ':' then
      Fuel.raise (.logicError "expected ':' in parse dict")
    else
      let (value, idx) ← parse (idx + 1)
      let dict := JObject.setMember dict key value
      let (ch, idx) ← getNextToken str fuel idx
      if ch = byte '}' then pure (dict, idx + 1)
      else if ch ≠ byte ',' then
        Fuel.raise (.logicError "expected ':' in parse dict")
      else dictLoop parse fuel dict (idx + 1)

def parseDict (parse : Nat → Run (JObject Double × Nat)) (fuel idx : Nat) :
    Run (JObject Double × Nat) := do
  let idx := idx + 1
  let (ch, idx) ← getNextToken str fuel idx
  if ch = byte '}' then pure (.dict [], idx + 1)
  else
    let (dict, idx) ← dictLoop str parse fuel [] idx
    pure (.dict dict, idx)

/-! ### Values -/

/-- What `Parse` does with the token it got, given `Parse`. -/
def parseToken (parse : Nat → Run (JObject Double × Nat)) (fuel : Nat) (token : Byte)
    (idx : Nat) : Run (JObject Double × Nat) :=
  if token = byte 'n' then parseNull str idx
  else if token = byte 't' ∨ token = byte 'f' then parseBool str idx
  else if token = byte '-' ∨ isDigit token then parseNumber ops str idx
  else if token = byte '"' then parseString str idx
  else if token = byte '[' then parseList str parse fuel idx
  else if token = byte '{' then parseDict str parse fuel idx
  else Fuel.raise (.logicError "Unexpected character in parse json")

def parse : Nat → Nat → Run (JObject Double × Nat)
  | 0, _ => Fuel.exhausted
  | fuel + 1, idx => do
    let (token, idx) ← getNextToken str fuel idx
    parseToken ops str (parse fuel) fuel token idx

omit str in
/-- `TrimRight`. -/
def trimRight (src : Bytes) : Bytes := src.rdropWhile isSpace

omit str in
def fromString (fuel : Nat) (content : Bytes) : Run (JObject Double) := do
  let (value, _) ← parse ops (trimRight content) fuel 0
  pure value

end Luce.TinyJson
