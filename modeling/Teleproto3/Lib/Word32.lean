/-
# Signed 32-bit arithmetic

An `int` of the program is an integer between `-2 ^ 31` and `2 ^ 31 - 1`, and
arithmetic on it wraps around.  `wrap32` brings any integer into that range.
-/

import Mathlib.Algebra.Order.Ring.Int

namespace Teleproto3
namespace Lib

/-- The 32-bit two's complement value of an integer. -/
def wrap32 (x : ℤ) : ℤ := Int.bmod x (2 ^ 32)

/-- A value that fits is itself. -/
theorem wrap32_of_fits {x : ℤ} (h1 : -2 ^ 31 ≤ x) (h2 : x < 2 ^ 31) : wrap32 x = x := by
  unfold wrap32
  rw [Int.bmod_def]
  split_ifs <;> omega

/-- The 16-bit two's complement value of an integer, as of a `short`. -/
def wrap16 (x : ℤ) : ℤ := Int.bmod x (2 ^ 16)

/-- What a `short` holds without a loss. -/
theorem wrap16_eq_iff {x : ℤ} : wrap16 x = x ↔ -2 ^ 15 ≤ x ∧ x < 2 ^ 15 := by
  unfold wrap16
  rw [Int.bmod_def]
  split_ifs <;> omega

/-- The 64-bit two's complement value of an integer, as of a `long long`. -/
def wrap64 (x : ℤ) : ℤ := Int.bmod x (2 ^ 64)

theorem wrap32_lt (x : ℤ) : wrap32 x < 2 ^ 31 := by
  unfold wrap32
  rw [Int.bmod_def]
  split_ifs <;> omega

theorem le_wrap32 (x : ℤ) : -2 ^ 31 ≤ wrap32 x := by
  unfold wrap32
  rw [Int.bmod_def]
  split_ifs <;> omega

/-- A sum of two numbers that are not negative is itself, or wraps around once. -/
theorem wrap32_cases {x : ℤ} (h0 : 0 ≤ x) (h1 : x < 2 ^ 32) :
    x < 2 ^ 31 ∧ wrap32 x = x ∨ 2 ^ 31 ≤ x ∧ wrap32 x = x - 2 ^ 32 := by
  unfold wrap32
  rw [Int.bmod_def]
  split_ifs <;> omega

/-- Counting on from a number that is not negative ends above it, or at the smallest
`int`. -/
theorem wrap32_succ {n : ℤ} (h0 : 0 ≤ n) (h1 : n < 2 ^ 31) :
    0 ≤ wrap32 (n + 1) ∧ wrap32 (n + 1) < 2 ^ 31 ∨ wrap32 (n + 1) = -2 ^ 31 := by
  unfold wrap32
  rw [Int.bmod_def]
  split_ifs <;> omega

end Lib
end Teleproto3
