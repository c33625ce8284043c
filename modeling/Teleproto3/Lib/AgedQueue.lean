/-
# A queue that forgets its oldest entries

A queue of entries that each came at some time, the oldest in front.  `expire` drops from the
front what came at a limit or before, but never the last entry.

What `expire` drops from a queue in order is at most as old as everything it leaves
(`mem_expire_or`): whoever finds an entry gone knows the age of all others.  What stays is what
is young, and the last entry (`mem_expire_iff`).
-/

import Mathlib.Algebra.Order.Ring.Int
import Mathlib.Data.List.Nodup
import Mathlib.Order.Defs.LinearOrder

namespace Teleproto3
namespace Lib

variable {α τ : Type*} [LinearOrder τ] (time : α → τ) (limit : τ)

/-- The queue without what came at `limit` or before, up to its last entry. -/
def expire : List α → List α
  | a :: b :: l => if limit < time a then a :: b :: l else expire (b :: l)
  | l => l

/-- The oldest entry first. -/
def Aged (l : List α) : Prop := l.Pairwise fun a b => time a ≤ time b

variable {time limit} {l : List α}

theorem expire_of_lt {a b : α} (h : limit < time a) :
    expire time limit (a :: b :: l) = a :: b :: l := if_pos h

theorem expire_of_le {a b : α} (h : time a ≤ limit) :
    expire time limit (a :: b :: l) = expire time limit (b :: l) := if_neg (not_lt.mpr h)

/-- What is left is the queue's end. -/
theorem expire_suffix : ∀ l : List α, expire time limit l <:+ l
  | [] => List.suffix_rfl
  | [_] => List.suffix_rfl
  | a :: b :: l => by
    by_cases h : limit < time a
    · exact (expire_of_lt h).symm ▸ List.suffix_rfl
    · rw [expire_of_le (not_lt.mp h)]
      exact (expire_suffix (b :: l)).trans (List.suffix_cons a _)

/-- The last entry stays. -/
theorem mem_expire_concat (a : α) : ∀ l : List α, a ∈ expire time limit (l ++ [a])
  | [] => List.mem_singleton.mpr rfl
  | b :: l => by
    obtain ⟨c, m, hm⟩ : ∃ c m, l ++ [a] = c :: m := by
      cases l with
      | nil => exact ⟨a, [], rfl⟩
      | cons c l => exact ⟨c, l ++ [a], rfl⟩
    have hrest : a ∈ expire time limit (c :: m) := hm ▸ mem_expire_concat a l
    rw [List.cons_append, hm]
    by_cases h : limit < time b
    · rw [expire_of_lt h, ← hm]
      simp
    · rw [expire_of_le (not_lt.mp h)]
      exact hrest

theorem Aged.expire (h : Aged time l) : Aged time (expire time limit l) :=
  List.Pairwise.sublist (expire_suffix l).sublist h

/-- An entry that comes last is the youngest. -/
theorem Aged.concat {a : α} (h : Aged time l) (ha : ∀ b ∈ l, time b ≤ time a) :
    Aged time (l ++ [a]) := by
  refine List.pairwise_append.mpr ⟨h, List.pairwise_singleton _ a, fun b hb c hc => ?_⟩
  rw [List.mem_singleton.mp hc]
  exact ha b hb

/-- **An entry stays, or is old and no younger than anything that stays.** -/
theorem mem_expire_or {a : α} : ∀ {l : List α}, Aged time l → a ∈ l →
    a ∈ expire time limit l ∨ (time a ≤ limit ∧ ∀ b ∈ expire time limit l, time a ≤ time b)
  | [_], _, ha => Or.inl ha
  | b :: c :: l, hl, ha => by
    by_cases h : limit < time b
    · rw [expire_of_lt h]
      exact Or.inl ha
    · rw [expire_of_le (not_lt.mp h)]
      rcases List.mem_cons.mp ha with rfl | ha
      · refine Or.inr ⟨not_lt.mp h, fun d hd => ?_⟩
        exact List.rel_of_pairwise_cons hl ((expire_suffix (c :: l)).subset hd)
      · exact mem_expire_or hl.of_cons ha

/-- **What stays**: the young entries, and the last one. -/
theorem mem_expire_iff {x : α} : ∀ {l : List α}, Aged time l → l.Nodup →
    (x ∈ expire time limit l ↔ x ∈ l ∧ (limit < time x ∨ l.getLast? = some x))
  | [], _, _ => by simp [Lib.expire]
  | [a], _, _ => by
    show x ∈ [a] ↔ _
    rw [List.mem_singleton, List.getLast?_singleton]
    exact ⟨fun h => ⟨h, .inr (congrArg some h.symm)⟩, And.left⟩
  | a :: b :: l, hl, hnodup => by
    by_cases h : limit < time a
    · rw [expire_of_lt h]
      refine ⟨fun hx => ⟨hx, .inl ?_⟩, fun hx => hx.1⟩
      rcases List.mem_cons.mp hx with rfl | hx
      · exact h
      · exact h.trans_le (List.rel_of_pairwise_cons hl hx)
    · obtain ⟨ha, hrest⟩ := List.nodup_cons.mp hnodup
      rw [expire_of_le (not_lt.mp h), mem_expire_iff hl.of_cons hrest, List.getLast?_cons_cons]
      refine ⟨fun ⟨hx, hkept⟩ => ⟨List.mem_cons_of_mem a hx, hkept⟩, fun ⟨hx, hkept⟩ => ?_⟩
      rcases List.mem_cons.mp hx with rfl | hx
      · exact absurd (List.mem_of_getLast? (hkept.resolve_left h)) ha
      · exact ⟨hx, hkept⟩

end Lib
end Teleproto3
