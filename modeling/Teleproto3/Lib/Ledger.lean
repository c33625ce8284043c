/-
# A ledger of counts

A ledger is a list of keys with a count for each.  It reflects a function that counts when no key
is entered twice and each count is positive and the one the function has for its key.  Keys that
are not entered are not spoken of.

The laws are those of a table that follows parties as they come and go: a count goes up or down
by one, a key is entered with its first party and struck out with its last, and what happens under
other keys does not show.
-/

import Mathlib.Algebra.Order.Ring.Int
import Mathlib.Data.List.Nodup

namespace Teleproto3
namespace Lib

variable {κ : Type*}

/-- **The ledger reflects the counts.** -/
structure Reflects (ledger : List (κ × ℤ)) (count : κ → ℕ) : Prop where
  nodup : (ledger.map Prod.fst).Nodup
  pos : ∀ c ∈ ledger, 0 < c.2
  counts : ∀ c ∈ ledger, c.2 = count c.1

/-- The keys that are entered, when one cell is taken out. -/
theorem exists_cell {l r : List (κ × ℤ)} {k a : κ} {n : ℤ} :
    (∃ c ∈ l ++ (k, n) :: r, c.1 = a) ↔ a = k ∨ ∃ c ∈ l ++ r, c.1 = a := by
  constructor
  · rintro ⟨c, hc, rfl⟩
    rcases List.mem_cons.mp (List.perm_middle.mem_iff.mp hc) with rfl | hc
    · exact Or.inl rfl
    · exact Or.inr ⟨c, hc, rfl⟩
  · rintro (rfl | ⟨c, hc, rfl⟩)
    · exact ⟨_, List.mem_append_right l List.mem_cons_self, rfl⟩
    · exact ⟨c, List.perm_middle.mem_iff.mpr (List.mem_cons_of_mem _ hc), rfl⟩

namespace Reflects

variable {l r : List (κ × ℤ)} {k : κ} {n : ℤ} {count count' : κ → ℕ}

theorem nil (count : κ → ℕ) : Reflects [] count := ⟨List.nodup_nil, nofun, nofun⟩

/-- What the others are when one cell is taken out. -/
theorem others (h : Reflects (l ++ (k, n) :: r) count) :
    Reflects (l ++ r) count ∧ ∀ c ∈ l ++ r, c.1 ≠ k := by
  have hsub : List.Sublist (l ++ r) (l ++ (k, n) :: r) :=
    List.Sublist.append_left (List.sublist_cons_self _ _) l
  have hnodup := h.nodup
  rw [List.map_append, List.map_cons, List.nodup_middle, ← List.map_append] at hnodup
  refine ⟨⟨(List.nodup_cons.mp hnodup).2, fun c hc => h.pos c (hsub.subset hc),
    fun c hc => h.counts c (hsub.subset hc)⟩, fun c hc heq => ?_⟩
  exact (List.nodup_cons.mp hnodup).1 (List.mem_map.mpr ⟨c, hc, heq⟩)

/-- A cell is put in. -/
theorem insert (h : Reflects (l ++ r) count) (hk : ∀ c ∈ l ++ r, c.1 ≠ k)
    (hrest : ∀ j, j ≠ k → count' j = count j) (hpos : 0 < n) (hn : n = count' k) :
    Reflects (l ++ (k, n) :: r) count' := by
  have hcell {c : κ × ℤ} (hc : c ∈ l ++ (k, n) :: r) : c = (k, n) ∨ c ∈ l ++ r :=
    List.mem_cons.mp (List.perm_middle.mem_iff.mp hc)
  refine ⟨?_, fun c hc => ?_, fun c hc => ?_⟩
  · rw [List.map_append, List.map_cons, List.nodup_middle, ← List.map_append, List.nodup_cons]
    refine ⟨fun hmem => ?_, h.nodup⟩
    obtain ⟨c, hc, heq⟩ := List.mem_map.mp hmem
    exact hk c hc heq
  · rcases hcell hc with rfl | hc
    · exact hpos
    · exact h.pos c hc
  · rcases hcell hc with rfl | hc
    · exact hn
    · rw [h.counts c hc, hrest c.1 (hk c hc)]

/-- **One more under a key that is entered.** -/
theorem raise (h : Reflects (l ++ (k, n) :: r) count) (hk : count' k = count k + 1)
    (hrest : ∀ j, j ≠ k → count' j = count j) : Reflects (l ++ (k, n + 1) :: r) count' := by
  have hmem : (k, n) ∈ l ++ (k, n) :: r := List.mem_append_right l List.mem_cons_self
  have hn : n = count k := h.counts _ hmem
  have hpos : 0 < n := h.pos _ hmem
  refine h.others.1.insert h.others.2 hrest (by omega) ?_
  rw [hk, hn, Nat.cast_add, Nat.cast_one]

/-- **The first under a key.** -/
theorem enter (h : Reflects (l ++ r) count) (hnone : ∀ c ∈ l ++ r, c.1 ≠ k) (hk : count' k = 1)
    (hrest : ∀ j, j ≠ k → count' j = count j) : Reflects (l ++ (k, 1) :: r) count' := by
  refine h.insert hnone hrest Int.one_pos ?_
  rw [hk, Nat.cast_one]

/-- **One fewer, and not the last.** -/
theorem lower (h : Reflects (l ++ (k, n) :: r) count) (hn : 0 < n - 1)
    (hk : count k = count' k + 1) (hrest : ∀ j, j ≠ k → count' j = count j) :
    Reflects (l ++ (k, n - 1) :: r) count' := by
  have hmem : (k, n) ∈ l ++ (k, n) :: r := List.mem_append_right l List.mem_cons_self
  have hcount : n = count k := h.counts _ hmem
  refine h.others.1.insert h.others.2 hrest hn ?_
  rw [hcount, hk, Nat.cast_add, Nat.cast_one, add_sub_cancel_right]

/-- What happens under a key that is not entered. -/
theorem elsewhere (h : Reflects l count) (hnone : ∀ c ∈ l, c.1 ≠ k)
    (hrest : ∀ j, j ≠ k → count' j = count j) : Reflects l count' :=
  ⟨h.nodup, h.pos, fun c hc => by rw [h.counts c hc, hrest c.1 (hnone c hc)]⟩

/-- **The last under a key.** -/
theorem strike (h : Reflects (l ++ (k, n) :: r) count)
    (hrest : ∀ j, j ≠ k → count' j = count j) : Reflects (l ++ r) count' :=
  h.others.1.elsewhere h.others.2 hrest

/-- Nobody is there, and no key is entered. -/
theorem eq_nil (h : Reflects l count) (hnone : ∀ j, count j = 0) : l = [] := by
  refine List.eq_nil_iff_forall_not_mem.mpr fun c hc => ?_
  have hpos := h.pos c hc
  rw [h.counts c hc, hnone] at hpos
  exact absurd hpos (lt_irrefl _)

end Reflects

end Lib
end Teleproto3
