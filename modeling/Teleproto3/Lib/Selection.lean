/-
# Selecting the greatest

Picking, again and again, a greatest of the candidates that are left, at most so many times
(`pickLoop`).  `TopOf key P cands k picks` says what comes out: as many picks as there are, no more
than `k`, each a different candidate with `P`, in an order in which the keys do not increase, and
none of the candidates that are left out has a greater key than any that is picked.

`Best` is what the search for the next pick has to find, `found_foldl` the rule for such a search,
and `topOf_pickLoop` that for the loop.
-/

import Mathlib.Data.List.Induction
import Mathlib.Data.List.Nodup
import Mathlib.Data.List.Perm.Subperm
import Mathlib.Order.Defs.PartialOrder

namespace Teleproto3
namespace Lib

variable {ι α : Type*} [Preorder α]

/-- **A search through a list.**  If each turn keeps what has been found true of those that have
been seen, it is true of all in the end. -/
theorem found_foldl {β : Type*} {turn : β → ι → β} {Found : List ι → β → Prop}
    (hturn : ∀ {seen b}, Found seen b → ∀ i, Found (seen ++ [i]) (turn b i)) {seen : List ι}
    {b : β} (h : Found seen b) (l : List ι) : Found (seen ++ l) (l.foldl turn b) := by
  induction l using List.reverseRecOn with
  | nil =>
    rw [List.append_nil]
    exact h
  | append_singleton l i ih =>
    rw [List.foldl_append, ← List.append_assoc]
    exact hturn ih i

/-- What is found among the candidates that are left: a greatest one, or nothing where there is
none. -/
inductive Best (key : ι → α) (P : ι → Prop) (cands picked : List ι) : Option ι → Prop
  | none (h : ∀ i ∈ cands, P i → i ∈ picked) : Best key P cands picked none
  | some {i : ι} (hi : i ∈ cands) (hP : P i) (hnew : i ∉ picked)
      (hmax : ∀ j ∈ cands, P j → j ∉ picked → key j ≤ key i) : Best key P cands picked (some i)

/-- At most `k` picks behind those there are. -/
def pickLoop (best : List ι → Option ι) : ℕ → List ι → List ι
  | 0, picked => picked
  | k + 1, picked =>
    match best picked with
    | none => picked
    | some i => pickLoop best k (picked ++ [i])

/-- Some of the greatest candidates with `P`, greatest first. -/
structure TopSoFar (key : ι → α) (P : ι → Prop) (cands picks : List ι) : Prop where
  nodup : picks.Nodup
  candidates : ∀ i ∈ picks, i ∈ cands ∧ P i
  sorted : picks.Pairwise fun i j => key j ≤ key i
  greatest : ∀ i ∈ picks, ∀ j ∈ cands, P j → j ∉ picks → key j ≤ key i

/-- **The `k` greatest of the candidates with `P`**, greatest first, or all of them if there are
fewer. -/
structure TopOf (key : ι → α) (P : ι → Prop) [DecidablePred P] (cands : List ι) (k : ℕ)
    (picks : List ι) : Prop extends TopSoFar key P cands picks where
  length_eq : picks.length = min k (cands.filter P).length

variable {key : ι → α} {P : ι → Prop} {cands : List ι}

theorem topSoFar_nil (key : ι → α) (P : ι → Prop) (cands : List ι) :
    TopSoFar key P cands [] := by
  constructor <;> simp

/-- One pick more. -/
theorem TopSoFar.pick {picks : List ι} {i : ι} (h : TopSoFar key P cands picks)
    (hbest : Best key P cands picks (some i)) : TopSoFar key P cands (picks ++ [i]) := by
  cases hbest with
  | some hi hP hnew hmax =>
    constructor
    · rw [List.nodup_append]
      refine ⟨h.nodup, List.nodup_singleton i, fun j hj k hk heq => ?_⟩
      rw [List.mem_singleton] at hk
      exact hnew (hk ▸ heq ▸ hj)
    · intro j hj
      rw [List.mem_append, List.mem_singleton] at hj
      rcases hj with hj | rfl
      · exact h.candidates j hj
      · exact ⟨hi, hP⟩
    · rw [List.pairwise_append]
      refine ⟨h.sorted, List.pairwise_singleton _ _, fun j hj k hk => ?_⟩
      rw [List.mem_singleton] at hk
      exact hk ▸ h.greatest j hj i hi hP hnew
    · intro j hj k hk hPk hout
      rw [List.mem_append, not_or] at hout
      rw [List.mem_append, List.mem_singleton] at hj
      rcases hj with hj | rfl
      · exact h.greatest j hj k hk hPk hout.1
      · exact hmax k hk hPk hout.1

variable [DecidablePred P]

/-- There are no more picks than candidates. -/
theorem TopSoFar.length_le {picks : List ι} (h : TopSoFar key P cands picks) :
    picks.length ≤ (cands.filter P).length := by
  refine (List.subperm_of_subset h.nodup fun i hi => ?_).length_le
  exact List.mem_filter.mpr ⟨(h.candidates i hi).1, by simpa using (h.candidates i hi).2⟩

/-- Where nothing is left, all candidates are picked. -/
theorem TopSoFar.length_eq {picks : List ι} (h : TopSoFar key P cands picks)
    (hcands : cands.Nodup) (hall : ∀ i ∈ cands, P i → i ∈ picks) :
    picks.length = (cands.filter P).length := by
  refine Nat.le_antisymm h.length_le ?_
  refine (List.subperm_of_subset (hcands.filter _) fun i hi => ?_).length_le
  obtain ⟨hmem, hP⟩ := List.mem_filter.mp hi
  exact hall i hmem (by simpa using hP)

/-- **The rule for the loop**: where each search finds a greatest candidate that is left, the loop
picks the greatest ones. -/
theorem topOf_pickLoop {best : List ι → Option ι} (hcands : cands.Nodup)
    (hbest : ∀ picked, Best key P cands picked (best picked)) (k : ℕ) :
    TopOf key P cands k (pickLoop best k []) := by
  have hloop : ∀ (k : ℕ) (picked : List ι), TopSoFar key P cands picked →
      TopSoFar key P cands (pickLoop best k picked) ∧
        (pickLoop best k picked).length = min (picked.length + k) (cands.filter P).length := by
    intro k
    induction k with
    | zero =>
      intro picked h
      have hle := h.length_le
      exact ⟨h, by unfold pickLoop; omega⟩
    | succ k ih =>
      intro picked h
      have hnext := hbest picked
      unfold pickLoop
      cases hfound : best picked with
      | none =>
        rw [hfound] at hnext
        cases hnext with
        | none hall =>
          have hlength := h.length_eq hcands hall
          exact ⟨h, by dsimp only; omega⟩
      | some i =>
        rw [hfound] at hnext
        obtain ⟨htop, hlength⟩ := ih _ (h.pick hnext)
        refine ⟨htop, ?_⟩
        rw [List.length_append, List.length_singleton] at hlength
        rw [hlength]
        congr 1
        omega
  obtain ⟨htop, hlength⟩ := hloop k [] (topSoFar_nil key P cands)
  rw [List.length_nil, Nat.zero_add] at hlength
  exact ⟨htop, hlength⟩

end Lib
end Teleproto3
