/-
# Records that arrive in parts

A stream of records, each of its own size, of which so many bytes have arrived.  `arrived`
are the records that are there as a whole, `awaited` the others with the number of bytes that
are there of the first of them.

Both can be taken up where they were left: `arrived_add` and `awaited_add` say what more bytes
make of them, `drop_of_awaited` that what is to come of the stream is what is to come of the
records that are awaited.
-/

import Teleproto3.Lib.Memory

namespace Teleproto3
namespace Lib

variable {α : Type*} (size : α → ℕ)

/-- The records that are there as a whole. -/
def arrived : List α → ℕ → List α
  | [], _ => []
  | a :: l, n => if size a ≤ n then a :: arrived l (n - size a) else []

/-- The other records, with the number of bytes that are there of them. -/
def awaited : List α → ℕ → List α × ℕ
  | [], n => ([], n)
  | a :: l, n => if size a ≤ n then awaited l (n - size a) else (a :: l, n)

variable {size} {a : α} {l : List α} {n m : ℕ}

theorem arrived_of_le (h : size a ≤ n) :
    arrived size (a :: l) n = a :: arrived size l (n - size a) := if_pos h

theorem arrived_of_lt (h : n < size a) : arrived size (a :: l) n = [] := if_neg (not_le.mpr h)

theorem awaited_of_le (h : size a ≤ n) :
    awaited size (a :: l) n = awaited size l (n - size a) := if_pos h

theorem awaited_of_lt (h : n < size a) : awaited size (a :: l) n = (a :: l, n) :=
  if_neg (not_le.mpr h)

/-- **No record is lost.** -/
theorem arrived_append_awaited (l : List α) (n : ℕ) :
    arrived size l n ++ (awaited size l n).1 = l := by
  induction l generalizing n with
  | nil => rfl
  | cons a l ih =>
    rcases le_or_gt (size a) n with h | h
    · rw [arrived_of_le h, awaited_of_le h, List.cons_append, ih]
    · rw [arrived_of_lt h, awaited_of_lt h, List.nil_append]

/-- What is awaited is of the stream. -/
theorem mem_of_mem_awaited {l : List α} {n : ℕ} (h : a ∈ (awaited size l n).1) : a ∈ l := by
  have hmem : a ∈ arrived size l n ++ (awaited size l n).1 := List.mem_append_right _ h
  rwa [arrived_append_awaited] at hmem

/-- **More bytes arrive.** -/
theorem arrived_add (l : List α) (n m : ℕ) :
    arrived size l (n + m) =
      arrived size l n ++ arrived size (awaited size l n).1 ((awaited size l n).2 + m) := by
  induction l generalizing n with
  | nil => rfl
  | cons a l ih =>
    rcases le_or_gt (size a) n with h | h
    · rw [arrived_of_le h, awaited_of_le h, arrived_of_le (h.trans (Nat.le_add_right n m)),
        show n + m - size a = n - size a + m by omega, ih, List.cons_append]
    · rw [arrived_of_lt h, awaited_of_lt h, List.nil_append]

theorem awaited_add (l : List α) (n m : ℕ) :
    awaited size l (n + m) =
      awaited size (awaited size l n).1 ((awaited size l n).2 + m) := by
  induction l generalizing n with
  | nil => rfl
  | cons a l ih =>
    rcases le_or_gt (size a) n with h | h
    · rw [awaited_of_le h, awaited_of_le (h.trans (Nat.le_add_right n m)),
        show n + m - size a = n - size a + m by omega, ih]
    · rw [awaited_of_lt h]

/-- What is still to come of the stream is still to come of the records awaited. -/
theorem drop_of_awaited {encode : α → Bytes} (hsize : ∀ a, size a = (encode a).length)
    (l : List α) (n : ℕ) :
    (l.flatMap encode).drop n =
      ((awaited size l n).1.flatMap encode).drop (awaited size l n).2 := by
  induction l generalizing n with
  | nil => rfl
  | cons a l ih =>
    rcases le_or_gt (size a) n with h | h
    · rw [awaited_of_le h, ← ih, List.flatMap_cons, List.drop_append,
        List.drop_eq_nil_of_le (by rw [← hsize]; exact h), List.nil_append, hsize]
    · rw [awaited_of_lt h]

/-- No more is there of the records awaited than there is to them. -/
theorem awaited_le {encode : α → Bytes} (hsize : ∀ a, size a = (encode a).length) {l : List α}
    {n : ℕ} (h : n ≤ (l.flatMap encode).length) :
    (awaited size l n).2 ≤ ((awaited size l n).1.flatMap encode).length := by
  induction l generalizing n with
  | nil => exact h
  | cons a l ih =>
    rcases le_or_gt (size a) n with hle | hlt
    · rw [awaited_of_le hle]
      rw [List.flatMap_cons, List.length_append, ← hsize] at h
      exact ih (by omega)
    · rw [awaited_of_lt hlt]
      exact h

end Lib
end Teleproto3
