/-
# Records handled one for each arrival

A reader that keeps what has arrived, and with each arrival handles the record at its front, if all
of that is there, and no more than this one.  `InTurn` says that a list of records is handled so:
each at the first arrival, behind that of the record before it, with which all of it is there.

A record that arrives together with the one before it waits for another arrival.  Where no part of
a record arrives before the one in front of it has been handled, all of them are handled
(`inTurn_of_blocks`).
-/

import Mathlib.Data.List.Infix

namespace Teleproto3
namespace Lib

variable {β : Type*}

/-- The records are handled one for each arrival, from what is kept and what arrives. -/
def InTurn : List (List β) → List β → List (List β) → Prop
  | [], _, _ => True
  | _ :: _, _, [] => False
  | r :: rs, kept, part :: parts =>
    if r.length ≤ (kept ++ part).length then
      r <+: kept ++ part ∧ InTurn rs ((kept ++ part).drop r.length) parts
    else InTurn (r :: rs) (kept ++ part) parts

variable {r : List β} {rs parts : List (List β)} {kept part : List β}

@[simp] theorem inTurn_nil (kept : List β) (parts : List (List β)) : InTurn [] kept parts := by
  cases parts <;> trivial

@[simp] theorem not_inTurn_end (r : List β) (rs : List (List β)) (kept : List β) :
    ¬ InTurn (r :: rs) kept [] := not_false

/-- A record that is there is handled. -/
theorem inTurn_cons_of_le (h : r.length ≤ (kept ++ part).length) :
    InTurn (r :: rs) kept (part :: parts) ↔
      r <+: kept ++ part ∧ InTurn rs ((kept ++ part).drop r.length) parts := by
  rw [InTurn, if_pos h]

/-- A record that is not is waited for. -/
theorem inTurn_cons_of_lt (h : (kept ++ part).length < r.length) :
    InTurn (r :: rs) kept (part :: parts) ↔ InTurn (r :: rs) (kept ++ part) parts := by
  rw [InTurn, if_neg (not_le.mpr h)]

/-- **What is handled in turn is what has arrived.** -/
theorem InTurn.prefix (h : InTurn rs kept parts) : rs.flatten <+: kept ++ parts.flatten := by
  induction parts generalizing rs kept with
  | nil =>
    cases rs with
    | nil => exact List.nil_prefix
    | cons r rs => exact absurd h (not_inTurn_end r rs kept)
  | cons part parts ih =>
    cases rs with
    | nil => exact List.nil_prefix
    | cons r rs =>
      rw [List.flatten_cons, List.flatten_cons, ← List.append_assoc]
      rcases Nat.lt_or_ge (kept ++ part).length r.length with hlt | hle
      · exact ih ((inTurn_cons_of_lt hlt).mp h)
      · obtain ⟨⟨tail, htail⟩, hrest⟩ := (inTurn_cons_of_le hle).mp h
        have hrs := ih hrest
        rw [← htail] at hrs ⊢
        rw [List.drop_left] at hrs
        rw [List.append_assoc]
        exact (List.prefix_append_right_inj r).mpr hrs

/-- The first of the records has arrived. -/
theorem InTurn.head_prefix (h : InTurn (r :: rs) kept parts) : r <+: kept ++ parts.flatten :=
  (List.prefix_append r rs.flatten).trans h.prefix

/-- **A record without the arrivals of others**: it is handled with the last of its own. -/
theorem inTurn_block {block : List (List β)} (hne : ∀ part ∈ block, part ≠ [])
    (hkept : kept.length < r.length) (hblock : kept ++ block.flatten = r) :
    InTurn (r :: rs) kept (block ++ parts) ↔ InTurn rs [] parts := by
  induction block generalizing kept with
  | nil =>
    rw [List.flatten_nil, List.append_nil] at hblock
    rw [hblock] at hkept
    exact absurd hkept (lt_irrefl _)
  | cons part block ih =>
    rw [List.flatten_cons, ← List.append_assoc] at hblock
    have hrest (b : List β) (hb : b ∈ block) : b ≠ [] := hne b (List.mem_cons_of_mem part hb)
    rw [List.cons_append]
    cases block with
    | nil =>
      rw [List.flatten_nil, List.append_nil] at hblock
      rw [inTurn_cons_of_le (by rw [hblock]), hblock, List.drop_length]
      simp
    | cons b block =>
      have hpos := List.length_pos_of_ne_nil (hrest b List.mem_cons_self)
      have hlt : (kept ++ part).length < r.length := by
        rw [← hblock]
        simp only [List.flatten_cons, List.length_append]
        omega
      rw [inTurn_cons_of_lt hlt]
      exact ih hrest hlt hblock

/-- **Records of which none arrives before the one in front of it has been handled** are handled in
turn. -/
theorem inTurn_of_blocks {blocks : List (List (List β))}
    (hne : ∀ block ∈ blocks, ∀ part ∈ block, part ≠ [])
    (hrs : ∀ block ∈ blocks, block.flatten ≠ []) :
    InTurn (blocks.map List.flatten) [] (blocks.flatten ++ parts) := by
  induction blocks with
  | nil => exact inTurn_nil _ _
  | cons block blocks ih =>
    have hblock := hrs block List.mem_cons_self
    have hpos : ([] : List β).length < block.flatten.length := List.length_pos_of_ne_nil hblock
    rw [List.map_cons, List.flatten_cons, List.append_assoc,
      inTurn_block (hne block List.mem_cons_self) hpos (List.nil_append _)]
    exact ih (fun b hb => hne b (List.mem_cons_of_mem block hb))
      fun b hb => hrs b (List.mem_cons_of_mem block hb)

end Lib
end Teleproto3
