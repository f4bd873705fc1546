/-
This file models JSON objects and how they are printed.

An object is a tree. A `dict_t` is a `std::map`, kept as the list of its entries
in the order of their keys; strings compare byte by byte. The type of doubles and
what the standard library makes of them are parameters.
-/

import Luce.Byte
import Luce.Library.SortedMap
import Mathlib.Data.List.Lex

namespace Luce.TinyJson

open Library

/-- What the standard library does with doubles: `strtof64` on a C string, and the
output operator. -/
structure FloatOps (Double : Type) where
  strtof64 : Bytes → Double
  print : Double → Bytes

/-- A JSON object, by its type tag. -/
inductive JObject (Double : Type) where
  | null
  | bool (value : Bool)
  | int (value : Int32)
  | double (value : Double)
  | str (value : Bytes)
  | list (items : List (JObject Double))
  | dict (members : List (Bytes × JObject Double))

namespace JObject

variable {Double : Type}

/-! ### Dictionaries -/

/-- Whether a key comes before another in a `std::map`. -/
abbrev keyBefore (first second : Bytes) : Prop := first < second

instance : IsStrictTotalOrder Bytes keyBefore where
  irrefl := List.lt_irrefl
  trans _ _ _ := List.lt_trans
  trichotomous _ _ notBefore notAfter := List.le_antisymm notAfter notBefore

/-- `dict[key] = value`. -/
def setMember (members : List (Bytes × JObject Double)) (key : Bytes) (value : JObject Double) :
    List (Bytes × JObject Double) :=
  SortedMap.assign keyBefore members key value

mutual

/-- Every dictionary of the tree is a map: its keys are in order. -/
def WellFormed : JObject Double → Prop
  | .list items => AllWellFormed items
  | .dict members => SortedMap.Sorted keyBefore members ∧ MembersWellFormed members
  | _ => True

def AllWellFormed : List (JObject Double) → Prop
  | [] => True
  | item :: items => item.WellFormed ∧ AllWellFormed items

def MembersWellFormed : List (Bytes × JObject Double) → Prop
  | [] => True
  | (_, value) :: members => value.WellFormed ∧ MembersWellFormed members

end

/-! ### Printing -/

/-- The decimal digits of a number. -/
def digits (number : Nat) : Bytes :=
  (Nat.toDigits 10 number).map byte

/-- A number in decimal notation. -/
def decimal : Int → Bytes
  | .ofNat number => digits number
  | .negSucc number => byte '-' :: digits (number + 1)

mutual

def toText (ops : FloatOps Double) : JObject Double → Bytes
  | .null => ascii "null"
  | .bool value => if value then ascii "true" else ascii "false"
  | .int value => decimal value.toInt
  | .double value => ops.print value
  | .str value => byte '"' :: value ++ [byte '"']
  | .list items => byte '[' :: itemsToText ops items ++ [byte ']']
  | .dict members => byte '{' :: membersToText ops true members ++ [byte '}']

/-- The loop over a list: a comma after every item but the last. -/
def itemsToText (ops : FloatOps Double) : List (JObject Double) → Bytes
  | [] => []
  | item :: items =>
    item.toText ops ++ (if items.isEmpty then [] else [byte ',']) ++ itemsToText ops items

/-- The loop over a dictionary: a comma before every member but the first. -/
def membersToText (ops : FloatOps Double) (first : Bool) :
    List (Bytes × JObject Double) → Bytes
  | [] => []
  | (key, value) :: members =>
    (if first then [] else [byte ',']) ++ byte '"' :: key ++ ascii "\":" ++ value.toText ops ++
      membersToText ops false members

end

end JObject

end Luce.TinyJson
