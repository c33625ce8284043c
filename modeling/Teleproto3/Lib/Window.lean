/-
# What is recent among a history

A history is a list of entries, the newest in front.  `Fading p` says of it that what `p` picks
out stands in front of what it does not: it is recent where `p` asks for recent entries.

A component that keeps only the newest `n` entries, and of these only the recent ones, has kept
enough to tell whether `k` entries are recent, for every `k ≤ n` (`le_length_recent_take`).
-/

import Mathlib.Data.List.Basic

namespace Teleproto3
namespace Lib

variable {α : Type*} {p q : α → Prop} [DecidablePred p] [DecidablePred q] {l : List α}

/-- Nothing that `p` picks out stands behind something it does not. -/
def Fading (p : α → Prop) (l : List α) : Prop := l.Pairwise fun a b => p b → p a

theorem filter_eq_nil_of_fading {a : α} (h : Fading p (a :: l)) (ha : ¬ p a) :
    l.filter p = [] := by
  refine List.filter_eq_nil_iff.mpr fun b hb hp => ?_
  exact ha (List.rel_of_pairwise_cons h hb (of_decide_eq_true hp))

/-- **The recent ones among the newest are the newest among the recent ones.** -/
theorem filter_take_of_fading (h : Fading p l) (n : ℕ) :
    (l.take n).filter p = (l.filter p).take n := by
  induction l generalizing n with
  | nil => simp
  | cons a l ih =>
    cases n with
    | zero => simp
    | succ n =>
      by_cases ha : p a
      · simp [ha, ih h.of_cons n]
      · have hnone : l.filter p = [] := filter_eq_nil_of_fading h ha
        have htake : (l.take n).filter p = [] := by rw [ih h.of_cons n, hnone, List.take_nil]
        simp [ha, hnone, htake]

/-- What was not recent before is not asked for again. -/
theorem filter_filter_of_imp (h : ∀ a ∈ l, q a → p a) : (l.filter p).filter q = l.filter q := by
  rw [List.filter_filter]
  refine List.filter_congr fun a ha => ?_
  by_cases hq : q a
  · simp [hq, h a ha hq]
  · simp [hq]

/-- The newest `n` tell whether there are `k`. -/
theorem le_length_take_iff {k n : ℕ} (hk : k ≤ n) : k ≤ (l.take n).length ↔ k ≤ l.length := by
  rw [List.length_take]
  omega

/-- **The newest `n` tell whether `k` are recent.** -/
theorem le_length_recent_take (h : Fading p l) {k n : ℕ} (hk : k ≤ n) :
    k ≤ ((l.take n).filter p).length ↔ k ≤ (l.filter p).length := by
  rw [filter_take_of_fading h, le_length_take_iff hk]

end Lib
end Teleproto3
