/-
# Lists linked through a heap

Cells of a type `α` at addresses of a type `ι`, with a field `next` that holds the address of
another cell or nothing.  `Segment heap next p l q` says that from `p` the cells at the addresses
`l` are linked, each to the one behind it and the last one to `q`; a whole list ends in nothing.

A segment reads nothing but the links of its own cells (`segment_congr`), so what is written
elsewhere, and what is written to other fields, leaves it.  One heap may link its cells by
several fields.
-/

import Mathlib.Data.List.Basic

namespace Teleproto3
namespace Lib

variable {ι α : Type*} {heap heap' : ι → Option α} {next : α → Option ι}

/-- The cells at the addresses of a list, linked from `p` on and to `q` at the end. -/
def Segment (heap : ι → Option α) (next : α → Option ι) : Option ι → List ι → Option ι → Prop
  | p, [], q => p = q
  | p, a :: l, q => p = some a ∧ ∃ c, heap a = some c ∧ Segment heap next (next c) l q

@[simp] theorem segment_nil {p q : Option ι} : Segment heap next p [] q ↔ p = q := Iff.rfl

@[simp] theorem segment_cons {p q : Option ι} {a : ι} {l : List ι} :
    Segment heap next p (a :: l) q ↔
      p = some a ∧ ∃ c, heap a = some c ∧ Segment heap next (next c) l q := Iff.rfl

/-- Two segments, one behind the other. -/
theorem segment_append {p q : Option ι} {l l' : List ι} :
    Segment heap next p (l ++ l') q ↔
      ∃ m, Segment heap next p l m ∧ Segment heap next m l' q := by
  induction l generalizing p with
  | nil => simp
  | cons a l ih =>
    simp only [List.cons_append, segment_cons, ih]
    constructor
    · rintro ⟨hp, c, hc, m, hl, hl'⟩
      exact ⟨m, ⟨hp, c, hc, hl⟩, hl'⟩
    · rintro ⟨m, ⟨hp, c, hc, hl⟩, hl'⟩
      exact ⟨hp, c, hc, m, hl, hl'⟩

/-- A segment and its last cell. -/
theorem segment_concat {p q : Option ι} {l : List ι} {a : ι} :
    Segment heap next p (l ++ [a]) q ↔
      Segment heap next p l (some a) ∧ ∃ c, heap a = some c ∧ next c = q := by
  rw [segment_append]
  constructor
  · rintro ⟨m, hl, rfl, hc⟩
    exact ⟨hl, hc⟩
  · rintro ⟨hl, hc⟩
    exact ⟨some a, hl, rfl, hc⟩

/-- **A segment reads only its own links.** -/
theorem segment_congr {p q : Option ι} {l : List ι}
    (h : ∀ a ∈ l, (heap' a).map next = (heap a).map next) :
    Segment heap' next p l q ↔ Segment heap next p l q := by
  induction l generalizing p with
  | nil => rfl
  | cons a l ih =>
    have ha := h a List.mem_cons_self
    have hl (p : Option ι) := ih (p := p) fun b hb => h b (List.mem_cons_of_mem a hb)
    simp only [segment_cons, hl]
    constructor
    · rintro ⟨hp, c, hc, hrest⟩
      rw [hc] at ha
      obtain ⟨d, hd, heq⟩ := Option.map_eq_some_iff.mp ha.symm
      exact ⟨hp, d, hd, heq.symm ▸ hrest⟩
    · rintro ⟨hp, c, hc, hrest⟩
      rw [hc] at ha
      obtain ⟨d, hd, heq⟩ := Option.map_eq_some_iff.mp ha
      exact ⟨hp, d, hd, heq.symm ▸ hrest⟩

/-- Where a list begins. -/
theorem Segment.head {p : Option ι} {l : List ι} (h : Segment heap next p l none) :
    p = l.head? := by
  cases l with
  | nil => exact h
  | cons a l => exact h.1

/-- There is one list from each address. -/
theorem Segment.unique {p : Option ι} {l l' : List ι} (h : Segment heap next p l none)
    (h' : Segment heap next p l' none) : l = l' := by
  induction l generalizing p l' with
  | nil =>
    have hnil := h'.head
    rw [h.head] at hnil
    exact (List.head?_eq_none_iff.mp hnil.symm).symm
  | cons a l ih =>
    cases l' with
    | nil => exact absurd (h.1.symm.trans h') (by simp)
    | cons b l' =>
      obtain ⟨hp, c, hc, hrest⟩ := h
      obtain ⟨hp', d, hd, hrest'⟩ := h'
      obtain rfl := Option.some.inj (hp.symm.trans hp')
      obtain rfl := Option.some.inj (hc.symm.trans hd)
      rw [ih hrest hrest']

end Lib
end Teleproto3
