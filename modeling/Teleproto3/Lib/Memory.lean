/-
# Memory as a function of the address

A block of memory is the function from an address to the byte that stands
there.  `memRead` is what a reader of `n` bytes at an address sees, `memWrite`
is `memcpy` from a string, and `memMove` is `memmove` inside the block.  The
lemmas say what a read sees after each of the two, which is all that a buffer
built on such a block needs.
-/

import Mathlib.Algebra.Order.Ring.Int
import Mathlib.Data.List.Basic
import Mathlib.Data.List.GetD
import Mathlib.Data.List.Range

namespace Teleproto3
namespace Lib

/-- What literals of `Fin 4` rest on. -/
instance four_neZero : NeZero 4 := ⟨Nat.succ_ne_zero 3⟩

/-- A string of bytes. -/
abbrev Bytes := List UInt8

/-- A block of memory: the byte at each address. -/
abbrev Mem := ℕ → UInt8

/-- The `n` bytes from address `a` on. -/
def memRead (m : Mem) (a n : ℕ) : Bytes :=
  (List.range n).map fun i => m (a + i)

/-- `memcpy` of a string to address `a`. -/
def memWrite (m : Mem) (a : ℕ) (bs : Bytes) : Mem :=
  fun i => if a ≤ i ∧ i < a + bs.length then bs.getD (i - a) 0 else m i

/-- `memmove` of `n` bytes from address `src` to address `dst`. -/
def memMove (m : Mem) (dst src n : ℕ) : Mem :=
  fun i => if dst ≤ i ∧ i < dst + n then m (src + (i - dst)) else m i

/-- The bytes of one C object, which is never `2 ^ 63` bytes long or longer. -/
structure Object where
  bytes : Bytes
  length_lt : bytes.length < 2 ^ 63

/-- The length of an object. -/
def Object.length (o : Object) : ℕ := o.bytes.length

variable (m : Mem) (a n k : ℕ) (bs : Bytes)

@[simp] theorem memRead_length : (memRead m a n).length = n := by
  simp [memRead]

@[simp] theorem memRead_zero : memRead m a 0 = [] := rfl

/-- A read of two adjacent pieces is the two reads one after the other. -/
theorem memRead_add : memRead m a (n + k) = memRead m a n ++ memRead m (a + n) k := by
  simp only [memRead, List.range_add, List.map_append, List.map_map]
  congr 1
  refine List.map_congr_left fun i _ => ?_
  simp only [Function.comp, Nat.add_assoc]

/-- Dropping the front of a read is a read that starts later. -/
theorem memRead_drop (h : k ≤ n) : (memRead m a n).drop k = memRead m (a + k) (n - k) := by
  have hsplit : memRead m a n = memRead m a k ++ memRead m (a + k) (n - k) := by
    rw [← memRead_add, Nat.add_sub_cancel' h]
  rw [hsplit, List.drop_left' (memRead_length m a k)]

/-- Two blocks that agree on the addresses read give the same read. -/
theorem memRead_congr {m m' : Mem} {a b n : ℕ} (h : ∀ i < n, m (a + i) = m' (b + i)) :
    memRead m a n = memRead m' b n :=
  List.map_congr_left fun i hi => h i (List.mem_range.mp hi)

/-- What was written is what is read back. -/
theorem memRead_memWrite_same : memRead (memWrite m a bs) a bs.length = bs := by
  refine List.ext_getElem (memRead_length _ _ _) fun i h1 h2 => ?_
  have hi : i < bs.length := h2
  simp only [memRead, List.getElem_map, List.getElem_range, memWrite]
  rw [if_pos ⟨by omega, by omega⟩, Nat.add_sub_cancel_left, List.getD_eq_getElem _ _ hi]

/-- A write does not touch what lies before it. -/
theorem memRead_memWrite_before {b : ℕ} (h : b + n ≤ a) :
    memRead (memWrite m a bs) b n = memRead m b n := by
  refine memRead_congr fun i hi => ?_
  rw [memWrite, if_neg (by omega)]

/-- A move carries the bytes it was told to carry. -/
theorem memRead_memMove_same (dst src : ℕ) :
    memRead (memMove m dst src n) dst n = memRead m src n := by
  refine memRead_congr fun i hi => ?_
  rw [memMove, if_pos ⟨by omega, by omega⟩, Nat.add_sub_cancel_left]

end Lib
end Teleproto3
