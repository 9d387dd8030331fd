import Mathlib.Data.Nat.Bitwise
import Mathlib.Tactic.Ring

/-!
# Arithmetic of 64-bit machine words

A word is a natural number below `2 ^ 64`.  Plain operators wrap around, the
checked ones report overflow, and the saturating ones stop at the ends of the
range.  Alignment is masking, as compilers emit it; the lemmas turn it into
division by the alignment.
-/

namespace AetherKernel.Lib.Word

open Nat

/-- The number of 64-bit words. -/
def size : Nat :=
  2 ^ 64

/-- The largest word. -/
def max : Nat :=
  size - 1

/-- Addition that reports overflow. -/
def checkedAdd (a b : Nat) : Option Nat :=
  if a + b < size then some (a + b) else none

/-- Addition modulo the word size. -/
def wrappingAdd (a b : Nat) : Nat :=
  (a + b) % size

/-- Subtraction that reports a negative result. -/
def checkedSub (a b : Nat) : Option Nat :=
  if b ≤ a then some (a - b) else none

/-- Addition that stops at the largest word. -/
def saturatingAdd (a b : Nat) : Nat :=
  min (a + b) max

/-- Complement of a word. -/
def complement (a : Nat) : Nat :=
  max - a

/-- Round down to a multiple of a power of two. -/
def alignDown (value align : Nat) : Nat :=
  value &&& complement (align - 1)

/-- Round up to a multiple of a power of two, wrapping at the end of the
range. -/
def alignUp (value align : Nat) : Nat :=
  wrappingAdd value (align - 1) &&& complement (align - 1)

theorem wrappingAdd_lt (a b : Nat) : wrappingAdd a b < size :=
  mod_lt _ (by decide)

variable {a b value shift : Nat}

theorem wrappingAdd_of_lt (fits : a + b < size) : wrappingAdd a b = a + b :=
  mod_eq_of_lt fits

theorem checkedAdd_eq_some_iff {c : Nat} : checkedAdd a b = some c ↔ a + b < size ∧ c = a + b := by
  unfold checkedAdd
  split
  · rename_i fits
    simp [fits, eq_comm]
  · rename_i overflows
    simp [overflows]

/-- Masking off the low bits is rounding down. -/
theorem and_complement_two_pow (bound : value < size) (fits : shift ≤ 64) :
    value &&& complement (2 ^ shift - 1) = value / 2 ^ shift * 2 ^ shift := by
  have small : 2 ^ shift - 1 < 2 ^ 64 := by
    have := Nat.pow_le_pow_right (show 0 < 2 by decide) fits
    omega
  have mask : complement (2 ^ shift - 1) = 2 ^ 64 - ((2 ^ shift - 1) + 1) := by
    unfold complement max size
    omega
  apply eq_of_testBit_eq
  intro i
  rw [mask, testBit_and, testBit_two_pow_sub_succ small, testBit_mul_two_pow, testBit_div_two_pow]
  by_cases low : i < shift
  · simp [low]
  have high : shift ≤ i := not_lt.mp low
  rw [Nat.sub_add_cancel high]
  by_cases inside : i < 64
  · simp [low, high, inside]
  · have outside : value.testBit i = false := by
      apply testBit_lt_two_pow
      exact lt_of_lt_of_le bound (Nat.pow_le_pow_right (by decide) (by omega))
    simp [outside]

theorem alignUp_two_pow (fits : shift ≤ 64) : alignUp value (2 ^ shift) =
      (value + (2 ^ shift - 1)) % size / 2 ^ shift * 2 ^ shift :=
  and_complement_two_pow (mod_lt _ (by decide)) fits

end AetherKernel.Lib.Word
