/-
# Tables whose first match is replaced

A table of a fixed number of entries is searched from the front, and what is found is overwritten:
`List.replaceF` with a function that says which entries match and what a match is made into.  The
lemmas say what is in the table afterwards.

`other_of_mem_set` is about a list in which an element is set: where the elements are told apart by
a key, every other one has another key.
-/

import Mathlib.Data.List.Basic
import Mathlib.Data.List.Nodup

namespace Teleproto3
namespace Lib

variable {α β : Type*} {f : α → Option α} {l : List α} {x y z : α}

/-- What does not match stays. -/
theorem mem_replaceF_of_none (hx : x ∈ l) (hf : f x = none) : x ∈ l.replaceF f := by
  induction l with
  | nil => exact hx
  | cons a l ih =>
    rw [List.replaceF_cons]
    rcases List.mem_cons.mp hx with rfl | hx
    · rw [hf]
      exact List.mem_cons_self
    · cases f a with
      | none => exact List.mem_cons_of_mem _ (ih hx)
      | some a' => exact List.mem_cons_of_mem _ hx

/-- What is in the table afterwards was in it before, or is what a match was made into. -/
theorem mem_replaceF (hy : y ∈ l.replaceF f) : y ∈ l ∨ ∃ x ∈ l, f x = some y := by
  induction l with
  | nil => exact Or.inl hy
  | cons a l ih =>
    rw [List.replaceF_cons] at hy
    cases hf : f a with
    | none =>
      rw [hf] at hy
      rcases List.mem_cons.mp hy with rfl | hy
      · exact Or.inl List.mem_cons_self
      · rcases ih hy with hy | ⟨x, hx, hxy⟩
        · exact Or.inl (List.mem_cons_of_mem _ hy)
        · exact Or.inr ⟨x, List.mem_cons_of_mem _ hx, hxy⟩
    | some a' =>
      rw [hf] at hy
      rcases List.mem_cons.mp hy with rfl | hy
      · exact Or.inr ⟨a, List.mem_cons_self, hf⟩
      · exact Or.inl (List.mem_cons_of_mem _ hy)

/-- Where something matches, what a match is made into is in the table. -/
theorem exists_mem_replaceF (hx : x ∈ l) (hf : f x = some y) :
    ∃ a ∈ l, ∃ a', f a = some a' ∧ a' ∈ l.replaceF f := by
  obtain ⟨a, a', l₁, l₂, -, ha, hl, hreplaced⟩ := List.exists_of_replaceF hx hf
  refine ⟨a, ?_, a', ha, ?_⟩
  · rw [hl]
    exact List.mem_append_right _ List.mem_cons_self
  · rw [hreplaced]
    exact List.mem_append_right _ List.mem_cons_self

/-- The elements of a list in which one is set: the new one, and those with other keys. -/
theorem other_of_mem_set {k : α → β} (hnodup : (l.map k).Nodup) {i : ℕ} (hi : l[i]? = some x)
    (hy : y ∈ l.set i z) : y = z ∨ y ∈ l ∧ k y ≠ k x := by
  obtain ⟨j, hj⟩ := List.mem_iff_getElem?.mp hy
  rw [List.getElem?_set] at hj
  split at hj
  next hij =>
    split at hj
    · exact Or.inl (Option.some.inj hj).symm
    · cases hj
  next hij =>
    refine Or.inr ⟨List.mem_iff_getElem?.mpr ⟨j, hj⟩, fun hkey => hij ?_⟩
    have hi' : (l.map k)[i]? = some (k x) := by rw [List.getElem?_map, hi]; rfl
    have hj' : (l.map k)[j]? = some (k x) := by rw [List.getElem?_map, hj, ← hkey]; rfl
    have hlt : i < (l.map k).length := (List.getElem?_eq_some_iff.mp hi').1
    exact (List.getElem?_inj hlt hnodup).mp (hi'.trans hj'.symm)

/-- Setting an element leaves the keys alone where the new one has the key of the old one. -/
theorem map_set_of_key {k : α → β} {i : ℕ} (hi : l[i]? = some x) (hz : k z = k x) :
    (l.set i z).map k = l.map k := by
  refine List.ext_getElem? fun j => ?_
  rw [List.getElem?_map, List.getElem?_map, List.getElem?_set]
  split
  next hij =>
    rw [← hij, hi, if_pos (List.getElem?_eq_some_iff.mp hi).1, Option.map_some, Option.map_some, hz]
  next => rfl

end Lib
end Teleproto3
