/-
# Parts with a separator between them

A list of parts joined by a separator that stands in none of them, as a scanner sees it that goes
through the joined list once and holds what it has read of the part it is in.  `Joins sep P cur l`
says that `cur` and what is ahead of the scanner are such a list; `joins_nil`, `joins_sep` and
`joins_cons` say what becomes of it at the end, at a separator and at any other element.
-/

import Mathlib.Data.List.Basic

namespace Teleproto3
namespace Lib

variable {α : Type*} {sep : α} {P : List α → Prop}

/-- `cur` and what stands behind it are parts with the separator between them, and `cur` is the
front of the first. -/
def Joins (sep : α) (P : List α → Prop) (cur l : List α) : Prop :=
  ∃ part parts, cur <+: part ∧ (∀ p ∈ part :: parts, P p) ∧
    cur ++ l = [sep].intercalate (part :: parts)

/-- A first part is all there is, or a separator stands behind it. -/
theorem intercalate_cons (sep : α) (part : List α) (parts : List (List α)) :
    parts = [] ∧ [sep].intercalate (part :: parts) = part ∨
      [sep].intercalate (part :: parts) = part ++ sep :: [sep].intercalate parts ∧ parts ≠ [] := by
  cases parts with
  | nil => exact Or.inl ⟨rfl, List.intercalate_singleton⟩
  | cons p parts =>
    refine Or.inr ⟨?_, List.cons_ne_nil p parts⟩
    rw [List.intercalate_cons_cons]
    simp

section

variable (hsep : ∀ p, P p → sep ∉ p)
include hsep

/-- At the end of the list the part is complete. -/
theorem joins_nil {cur : List α} : Joins sep P cur [] ↔ P cur := by
  constructor
  · rintro ⟨part, parts, hcur, hall, heq⟩
    have hpart := hall part List.mem_cons_self
    rw [List.append_nil] at heq
    rcases intercalate_cons sep part parts with ⟨-, hone⟩ | ⟨hmore, -⟩
    · rw [heq, hone]
      exact hpart
    · have hmem : sep ∈ cur := by simp [heq, hmore]
      exact absurd (hcur.subset hmem) (hsep part hpart)
  · intro hcur
    refine ⟨cur, [], List.prefix_refl cur, by simpa using hcur, ?_⟩
    simp

/-- At a separator the part is complete, and the next one begins. -/
theorem joins_sep {cur l : List α} : Joins sep P cur (sep :: l) ↔ P cur ∧ Joins sep P [] l := by
  constructor
  · rintro ⟨part, parts, ⟨t, rfl⟩, hall, heq⟩
    have hpart := hall (cur ++ t) List.mem_cons_self
    have ht : sep ∉ t := fun h => hsep _ hpart (List.mem_append_right cur h)
    rcases intercalate_cons sep (cur ++ t) parts with ⟨-, hone⟩ | ⟨hmore, hne⟩
    · rw [hone, List.append_cancel_left_eq] at heq
      exact absurd (heq ▸ List.mem_cons_self) ht
    · rw [hmore, List.append_assoc, List.append_cancel_left_eq] at heq
      cases t with
      | cons a t =>
        rw [List.cons_append, List.cons.injEq] at heq
        exact absurd (heq.1 ▸ List.mem_cons_self) ht
      | nil =>
        rw [List.nil_append, List.cons.injEq] at heq
        rw [List.append_nil] at hpart
        obtain ⟨p, parts, rfl⟩ := List.exists_cons_of_ne_nil hne
        exact ⟨hpart, p, parts, List.nil_prefix, fun q hq => hall q (List.mem_cons_of_mem _ hq),
          heq.2⟩
  · rintro ⟨hcur, part, parts, -, hall, heq⟩
    refine ⟨cur, part :: parts, List.prefix_refl cur, ?_, ?_⟩
    · intro p hp
      rcases List.mem_cons.mp hp with rfl | hp
      · exact hcur
      · exact hall p hp
    · rw [List.intercalate_cons_cons, ← heq]
      simp

end

/-- Any other element belongs to the part. -/
theorem joins_cons {cur l : List α} {a : α} (ha : a ≠ sep) :
    Joins sep P cur (a :: l) ↔ Joins sep P (cur ++ [a]) l := by
  constructor
  · rintro ⟨part, parts, ⟨t, rfl⟩, hall, heq⟩
    refine ⟨cur ++ t, parts, ?_, hall, by rw [← heq]; simp⟩
    rw [List.prefix_append_right_inj]
    rcases intercalate_cons sep (cur ++ t) parts with ⟨-, hone⟩ | ⟨hmore, -⟩
    · rw [hone, List.append_cancel_left_eq] at heq
      simp [← heq]
    · rw [hmore, List.append_assoc, List.append_cancel_left_eq] at heq
      cases t with
      | nil => exact absurd (List.cons.inj heq).1 ha
      | cons b t => simp [(List.cons.inj heq).1]
  · rintro ⟨part, parts, hcur, hall, heq⟩
    exact ⟨part, parts, (List.prefix_append cur [a]).trans hcur, hall, by rw [← heq]; simp⟩

end Lib
end Teleproto3
