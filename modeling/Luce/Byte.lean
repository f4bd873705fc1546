/-
This file fixes the alphabet of every text and buffer of the model: a C++ `char`
is a byte, and a character literal stands for its ASCII code. The buffers are
standard containers, which are lists.
-/

import Mathlib.Data.List.TakeWhile

namespace Luce

/-- A C++ `char`. -/
abbrev Byte := UInt8

/-- The contents of a `std::string` or of a `std::vector<char>`. -/
abbrev Bytes := List Byte

/-- The ASCII code of a character literal. -/
def byte (character : Char) : Byte := UInt8.ofNat character.toNat

/-- The bytes of an ASCII string literal. -/
def ascii (text : String) : Bytes := text.toList.map byte

/-- The text that a `const char*` to these bytes stands for. -/
def cString (data : Bytes) : Bytes := data.takeWhile (· ≠ 0)

theorem length_cString_le (data : Bytes) : (cString data).length ≤ data.length :=
  (List.takeWhile_sublist _).length_le

theorem cString_eq_iff {data : Bytes} : cString data = data ↔ 0 ∉ data := by
  rw [cString, List.takeWhile_eq_self_iff]
  constructor
  · intro nonzero zero
    exact absurd rfl (of_decide_eq_true (nonzero 0 zero))
  · intro absent char member
    exact decide_eq_true fun zero => absent (zero ▸ member)

theorem length_cString_eq_iff {data : Bytes} : (cString data).length = data.length ↔ 0 ∉ data := by
  rw [← cString_eq_iff]
  exact ⟨(List.takeWhile_prefix _).eq_of_length, congrArg List.length⟩

theorem cString_append {text : Bytes} (nonzero : 0 ∉ text) (data : Bytes) :
    cString (text ++ data) = text ++ cString data := by
  refine List.takeWhile_append_of_pos fun char member => decide_eq_true fun zero => ?_
  exact nonzero (zero ▸ member)

/-- The text ends at a NUL at the latest. -/
theorem cString_append_zero (data more : Bytes) : cString (data ++ 0 :: more) = cString data := by
  induction data with
  | nil => rfl
  | cons char data inductionHypothesis =>
    simp only [cString, List.cons_append, List.takeWhile_cons] at inductionHypothesis ⊢
    rw [inductionHypothesis]

/-- NULs behind the data add nothing to the text. -/
theorem cString_append_zeros (data : Bytes) (count : Nat) :
    cString (data ++ List.replicate count 0) = cString data := by
  cases count with
  | zero => rw [List.replicate_zero, List.append_nil]
  | succ count => rw [List.replicate_succ, cString_append_zero]

/-- `resize` of a container: shortens the target, or fills it up. -/
def resize {Element : Type} (target : List Element) (size : Nat) (fill : Element) : List Element :=
  target.take size ++ List.replicate (size - target.length) fill

@[simp] theorem length_resize {Element : Type} (target : List Element) (size : Nat)
    (fill : Element) : (resize target size fill).length = size := by
  rw [resize, List.length_append, List.length_take, List.length_replicate]
  omega

end Luce
