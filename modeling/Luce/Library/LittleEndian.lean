/-
This file is the little-endian image of a natural number: `width` bytes, least
significant first. The image determines the number modulo `256 ^ width`, and
every list of bytes is the image of exactly one number below that bound.
-/

import Mathlib.Data.List.Basic
import Mathlib.Tactic.Ring

namespace Library.LittleEndian

/-- The `width` low-order bytes of a number, least significant first. -/
def leBytes : Nat → Nat → List UInt8
  | 0, _ => []
  | width + 1, number => UInt8.ofNat number :: leBytes width (number / 256)

/-- The number a list of bytes spells, least significant first. -/
def leValue : List UInt8 → Nat
  | [] => 0
  | byte :: bytes => byte.toNat + 256 * leValue bytes

@[simp] theorem length_leBytes (width number : Nat) : (leBytes width number).length = width := by
  induction width generalizing number with
  | zero => rfl
  | succ width inductionHypothesis => rw [leBytes, List.length_cons, inductionHypothesis]

/-- Reading an image back gives the number modulo the size of the image. -/
theorem leValue_leBytes (width number : Nat) :
    leValue (leBytes width number) = number % 256 ^ width := by
  induction width generalizing number with
  | zero => rw [leBytes, leValue, Nat.pow_zero, Nat.mod_one]
  | succ width inductionHypothesis =>
    rw [leBytes, leValue, inductionHypothesis, Nat.pow_succ', Nat.mod_mul, UInt8.toNat_ofNat']

theorem leValue_lt (bytes : List UInt8) : leValue bytes < 256 ^ bytes.length := by
  induction bytes with
  | nil => exact Nat.one_pos
  | cons byte bytes inductionHypothesis =>
    have bound := byte.toNat_lt
    rw [leValue, List.length_cons, Nat.pow_succ']
    omega

theorem leValue_append (low high : List UInt8) :
    leValue (low ++ high) = leValue low + 256 ^ low.length * leValue high := by
  induction low with
  | nil => rw [List.nil_append, leValue, List.length_nil, Nat.pow_zero, Nat.one_mul, Nat.zero_add]
  | cons byte low inductionHypothesis =>
    rw [List.cons_append, leValue, leValue, inductionHypothesis, List.length_cons, Nat.pow_succ']
    ring

/-- Every list of bytes is the image of the number it spells. -/
theorem leBytes_leValue (bytes : List UInt8) : leBytes bytes.length (leValue bytes) = bytes := by
  induction bytes with
  | nil => rfl
  | cons byte bytes inductionHypothesis =>
    have bound := byte.toNat_lt
    have low : UInt8.ofNat (byte.toNat + 256 * leValue bytes) = byte := by
      apply UInt8.toNat_inj.mp
      rw [UInt8.toNat_ofNat']
      omega
    have high : (byte.toNat + 256 * leValue bytes) / 256 = leValue bytes := by omega
    rw [List.length_cons, leValue, leBytes, low, high, inductionHypothesis]

theorem leValue_leBytes_of_lt {width number : Nat} (bound : number < 256 ^ width) :
    leValue (leBytes width number) = number := by
  rw [leValue_leBytes, Nat.mod_eq_of_lt bound]

end Library.LittleEndian
