/-
# Spending at a rate

Spenders share a budget that is refilled at a rate, up to one second's worth of it.  A spender may
overdraw it, and then pauses until the debt is paid back, but for no longer than `cap`.

`Paced` is what a record of such spending is like, each spending with what it left.  In any interval
the sum is at most what the budget can hold and is refilled with, but for spendings that are `cap`
apart for each spender (`Paced.bound`): those that left a debt which is not paid back within the
interval.
-/

import Mathlib.Algebra.Order.BigOperators.Group.List
import Mathlib.Algebra.Order.Field.Rat
import Mathlib.Algebra.Order.Floor.Semiring
import Mathlib.Data.List.Induction
import Mathlib.Data.Rat.Floor
import Mathlib.Tactic.FieldSimp
import Mathlib.Tactic.Linarith

namespace Teleproto3
namespace Lib

variable {ι : Type*}

/-- What was spent, when and by whom, and what it left of the budget. -/
structure Spending (ι : Type*) where
  time : ℚ
  spender : ι
  amount : ℚ
  left : ℚ
  deriving DecidableEq

/-- How long a spender pauses that has left so much. -/
def pauseAfter (rate cap left : ℚ) : ℚ := min (-left / rate) cap

/-- **One spending follows another.** -/
structure Follows (rate cap : ℚ) (a b : Spending ι) : Prop where
  time : a.time ≤ b.time
  budget : b.left + b.amount ≤ a.left + rate * (b.time - a.time)
  pause : a.spender = b.spender → a.left < 0 → a.time + pauseAfter rate cap a.left ≤ b.time

/-- **A record of spendings.** -/
structure Paced (rate cap : ℚ) (l : List (Spending ι)) : Prop where
  follows : l.Pairwise (Follows rate cap)
  budget : ∀ a ∈ l, a.left + a.amount ≤ rate

/-- What has been spent. -/
def spent (l : List (Spending ι)) : ℚ := (l.map Spending.amount).sum

@[simp] theorem spent_nil : spent ([] : List (Spending ι)) = 0 := rfl

@[simp] theorem spent_append (l r : List (Spending ι)) : spent (l ++ r) = spent l + spent r := by
  rw [spent, List.map_append, List.sum_append]
  rfl

@[simp] theorem spent_singleton (a : Spending ι) : spent [a] = a.amount := by
  simp [spent]

/-- The debt is paid back at `t`. -/
def Spending.Settled (rate t : ℚ) (a : Spending ι) : Prop := 0 ≤ a.left + rate * (t - a.time)

namespace Paced

variable {rate cap : ℚ} {l r : List (Spending ι)} {a : Spending ι}

theorem sublist (h : Paced rate cap l) (hsub : r.Sublist l) : Paced rate cap r :=
  ⟨h.follows.sublist hsub, fun a ha => h.budget a (hsub.subset ha)⟩

/-- **Another spending.** -/
theorem concat (h : Paced rate cap l) (hfollows : ∀ b ∈ l, Follows rate cap b a)
    (hbudget : a.left + a.amount ≤ rate) : Paced rate cap (l ++ [a]) := by
  refine ⟨List.pairwise_append.mpr ⟨h.follows, List.pairwise_singleton _ _, ?_⟩, ?_⟩
  · intro b hb c hc
    rw [List.mem_singleton.mp hc]
    exact hfollows b hb
  · intro b hb
    rcases List.mem_append.mp hb with hb | hb
    · exact h.budget b hb
    · rw [List.mem_singleton.mp hb]
      exact hbudget

/-- What has been spent up to a spending, and what that left, comes from the budget. -/
theorem spent_concat_le (h : Paced rate cap (l ++ [a])) {t : ℚ} (hrate : 0 ≤ rate)
    (ht : ∀ b ∈ l ++ [a], t ≤ b.time) :
    spent (l ++ [a]) + a.left ≤ rate + rate * (a.time - t) := by
  induction l using List.reverseRecOn generalizing a with
  | nil =>
    have hbudget := h.budget a (List.mem_singleton_self a)
    have hpos : 0 ≤ rate * (a.time - t) :=
      mul_nonneg hrate (sub_nonneg.mpr (ht a (List.mem_singleton_self a)))
    rw [List.nil_append, spent_singleton]
    linarith
  | append_singleton l b ih =>
    have hbefore := ih (h.sublist (List.sublist_append_left _ _))
      fun c hc => ht c (List.mem_append_left _ hc)
    have hfollows : Follows rate cap b a :=
      (List.pairwise_append.mp h.follows).2.2 b (List.mem_append_right l (List.mem_singleton_self b))
        a (List.mem_singleton_self a)
    have hbudget := hfollows.budget
    rw [spent_append, spent_singleton]
    linarith

/-- **Up to the last settled spending** the budget covers everything. -/
theorem exists_split (h : Paced rate cap l) (hrate : 0 ≤ rate) {t T : ℚ} (hT : 0 ≤ T)
    (hwindow : ∀ a ∈ l, t ≤ a.time ∧ a.time ≤ t + T) :
    ∃ covered rest, l = covered ++ rest ∧ spent covered ≤ rate + rate * T ∧
      ∀ a ∈ rest, ¬ a.Settled rate (t + T) := by
  induction l using List.reverseRecOn with
  | nil =>
    have hpos : 0 ≤ rate * T := mul_nonneg hrate hT
    refine ⟨[], [], rfl, ?_, nofun⟩
    rw [spent_nil]
    linarith
  | append_singleton l a ih =>
    by_cases hsettled : a.Settled rate (t + T)
    · refine ⟨l ++ [a], [], (List.append_nil _).symm, ?_, nofun⟩
      have hle := h.spent_concat_le hrate fun b hb => (hwindow b hb).1
      unfold Spending.Settled at hsettled
      linarith
    · obtain ⟨covered, rest, rfl, hcovered, hrest⟩ := ih (h.sublist (List.sublist_append_left _ _))
        fun b hb => hwindow b (List.mem_append_left _ hb)
      refine ⟨covered, rest ++ [a], List.append_assoc .., hcovered, fun b hb => ?_⟩
      rcases List.mem_append.mp hb with hb | hb
      · exact hrest b hb
      · rw [List.mem_singleton.mp hb]
        exact hsettled

/-- A spender whose debt is not paid back pauses for all of `cap`. -/
theorem apart (hrate : 0 < rate) {a b : Spending ι} (hfollows : Follows rate cap a b) {t : ℚ}
    (hb : b.time ≤ t) (ha : ¬ a.Settled rate t) (hsame : a.spender = b.spender) :
    a.time + cap ≤ b.time := by
  unfold Spending.Settled at ha
  have htime := hfollows.time
  have hpos : 0 ≤ rate * (t - a.time) := mul_nonneg hrate.le (by linarith)
  have hpause := hfollows.pause hsame (by linarith)
  have hdebt : t - a.time < -a.left / rate := by
    rw [lt_div_iff₀ hrate]
    linarith
  rcases min_cases (-a.left / rate) cap with ⟨heq, -⟩ | ⟨heq, -⟩
  · rw [pauseAfter, heq] at hpause
    linarith
  · rw [pauseAfter, heq] at hpause
    exact hpause

end Paced

/-- Times that are `cap` apart within an interval. -/
theorem length_le_of_apart {cap : ℚ} {l : List (Spending ι)} {t T : ℚ}
    (hT : -cap ≤ T) (hapart : l.Pairwise fun a b => a.time + cap ≤ b.time)
    (hwindow : ∀ a ∈ l, t ≤ a.time ∧ a.time ≤ t + T) : l.length * cap ≤ T + cap := by
  induction l generalizing t T with
  | nil =>
    rw [List.length_nil, Nat.cast_zero, zero_mul]
    linarith
  | cons a l ih =>
    obtain ⟨ha, hl⟩ := List.pairwise_cons.mp hapart
    obtain ⟨hfrom, hto⟩ := hwindow a List.mem_cons_self
    have hrest : (l.length : ℚ) * cap ≤ T - cap + cap := by
      refine ih (t := t + cap) (by linarith) hl fun b hb => ⟨?_, ?_⟩
      · have hab := ha b hb
        linarith
      · have hb' := (hwindow b (List.mem_cons_of_mem a hb)).2
        linarith
    rw [List.length_cons, Nat.cast_add, Nat.cast_one, add_mul, one_mul]
    linarith

variable [DecidableEq ι]

/-- **What can be spent in an interval**: what the budget can hold and is refilled with, and for
each spender one spending for every `cap` begun. -/
theorem Paced.bound {rate cap : ℚ} {l : List (Spending ι)} (h : Paced rate cap l)
    (hrate : 0 < rate) (hcap : 0 < cap) {t T : ℚ} (hT : 0 ≤ T)
    (hwindow : ∀ a ∈ l, t ≤ a.time ∧ a.time ≤ t + T) :
    ∃ rest, rest.Sublist l ∧ spent l ≤ rate + rate * T + spent rest ∧
      ∀ i, (rest.countP fun a => a.spender = i) ≤ 1 + ⌊T / cap⌋₊ := by
  obtain ⟨covered, rest, rfl, hcovered, hrest⟩ := h.exists_split hrate.le hT hwindow
  have hsub : rest.Sublist (covered ++ rest) := List.sublist_append_right _ _
  refine ⟨rest, hsub, ?_, fun i => ?_⟩
  · rw [spent_append]
    linarith
  · have hfilter : (rest.filter fun a => a.spender = i).Sublist rest := List.filter_sublist
    have hmem {a : Spending ι} (ha : a ∈ rest.filter fun a => a.spender = i) :
        a ∈ rest ∧ a.spender = i := by
      obtain ⟨hin, hi⟩ := List.mem_filter.mp ha
      exact ⟨hin, of_decide_eq_true hi⟩
    have hapart : (rest.filter fun a => a.spender = i).Pairwise
        fun a b => a.time + cap ≤ b.time := by
      refine ((h.sublist (hfilter.trans hsub)).follows).imp_of_mem fun ha hb hfollows => ?_
      obtain ⟨hain, hai⟩ := hmem ha
      obtain ⟨hbin, hbi⟩ := hmem hb
      exact Paced.apart hrate hfollows (hwindow _ (hsub.subset hbin)).2 (hrest _ hain)
        (hai.trans hbi.symm)
    have hlength := length_le_of_apart (by linarith) hapart
      fun a ha => hwindow a (hsub.subset (hmem ha).1)
    rw [List.countP_eq_length_filter]
    have hdiv : ((rest.filter fun a => a.spender = i).length : ℚ) ≤ T / cap + 1 := by
      rw [← mul_le_mul_iff_left₀ hcap, add_mul, one_mul, div_mul_cancel₀ _ hcap.ne']
      exact hlength
    rcases Nat.eq_zero_or_pos (rest.filter fun a => a.spender = i).length with hzero | hpos
    · omega
    · have hpred : ((rest.filter fun a => a.spender = i).length - 1 : ℕ) ≤ ⌊T / cap⌋₊ := by
        refine Nat.le_floor ?_
        rw [Nat.cast_sub hpos, Nat.cast_one]
        linarith
      omega

end Lib
end Teleproto3
