/-
# Cutting a length into parts

A length is cut into at most `slots` parts of `m` to `M` each, from the front: as long as what is
left is too long for one part, or may be cut further, the next part is any length from `cutLow` to
`cutHigh`, which leaves enough for another part and no more than the slots behind it can take.

The bounds look at one part ahead and do not see the gaps between the multiples of `m` and of `M`.
`Safe` says that no choice of parts leads into such a gap, and `safe_iff` where that is so.
-/

import Mathlib.Tactic.Ring
import Mathlib.Order.Lattice

namespace Teleproto3
namespace Lib

/-- The least part, with so many slots behind it. -/
def cutLow (m M slots rem : ℕ) : ℕ := max m (rem - slots * M)

/-- The greatest part. -/
def cutHigh (m M rem : ℕ) : ℕ := min M (rem - m)

/-- **No choice of parts comes to a dead end.**  What fits one part and cannot be cut further is
the last part; anything else is cut, wherever between the bounds. -/
def Safe (m M : ℕ) : ℕ → ℕ → Prop
  | 0, _ => False
  | slots + 1, rem =>
    rem ≤ M ∧ (slots = 0 ∨ rem < 2 * m) ∨
      cutLow m M slots rem ≤ cutHigh m M rem ∧
        ∀ c, cutLow m M slots rem ≤ c → c ≤ cutHigh m M rem → Safe m M slots (rem - c)

/-- Where a length is safe: no length lies between one part and two; or one part is enough; or two
parts always are; or the first of three leaves what two parts always are; or the slots are so few
that only long parts are cut; or all parts are the same. -/
def IsSafe (m M slots rem : ℕ) : Prop :=
  2 * m ≤ M + 1 ∨ rem ≤ M ∨ 2 * m ≤ rem ∧ rem ≤ m + M ∨ rem = 2 * m + M ∨
    2 * m + (slots - 2) * M ≤ rem ∨ m = M ∧ m ∣ rem

instance (m M slots rem : ℕ) : Decidable (IsSafe m M slots rem) := by
  unfold IsSafe
  infer_instance

/-- What the bounds leave: enough for a part, and no more than the slots can take. -/
theorem cut_bounds {m M slots rem c : ℕ} (hrem : m ≤ rem)
    (hlow : cutLow m M slots rem ≤ c) (hhigh : c ≤ cutHigh m M rem) :
    m ≤ c ∧ c ≤ M ∧ c + m ≤ rem ∧ rem - c ≤ slots * M := by
  unfold cutLow at hlow
  unfold cutHigh at hhigh
  omega

/-- **The next part can be cut** exactly where what is left is no shorter than two. -/
theorem cutLow_le_cutHigh {m M slots rem : ℕ} (hM : m ≤ M) (hslots : 1 ≤ slots)
    (hle : rem ≤ (slots + 1) * M) : cutLow m M slots rem ≤ cutHigh m M rem ↔ 2 * m ≤ rem := by
  have hone : M ≤ slots * M := Nat.le_mul_of_pos_left M hslots
  have hmore : (slots + 1) * M = slots * M + M := Nat.succ_mul slots M
  unfold cutLow cutHigh
  omega

/-- How far apart the bounds are. -/
def cutSlack (m M slots rem : ℕ) : ℕ := min (M - m) (min (slots * M - rem) (rem - 2 * m))

theorem cutHigh_sub_cutLow {m M slots rem : ℕ} (hM : m ≤ M) (hslots : 1 ≤ slots)
    (hle : rem ≤ (slots + 1) * M) (hrem : 2 * m ≤ rem) :
    cutHigh m M rem - cutLow m M slots rem = cutSlack m M (slots + 1) rem := by
  have hone : M ≤ slots * M := Nat.le_mul_of_pos_left M hslots
  have hmore : (slots + 1) * M = slots * M + M := Nat.succ_mul slots M
  unfold cutLow cutHigh cutSlack
  omega

/-- **The bounds come no further apart.** -/
theorem cutSlack_cut {m M slots rem c : ℕ} (hc : c ≤ M) (hrem : c ≤ rem) :
    cutSlack m M slots (rem - c) ≤ cutSlack m M (slots + 1) rem := by
  have hmore : (slots + 1) * M = slots * M + M := Nat.succ_mul slots M
  unfold cutSlack
  omega

/-- A length that is no shorter than two parts is safe exactly where all it may leave is. -/
theorem safe_succ_iff {m M slots rem : ℕ} (hM : m ≤ M) (hslots : 1 ≤ slots)
    (hle : rem ≤ (slots + 1) * M) (hrem : 2 * m ≤ rem) :
    Safe m M (slots + 1) rem ↔
      ∀ r, m ≤ r → rem ≤ r + M → r + m ≤ rem → r ≤ slots * M → Safe m M slots r := by
  have hmore : (slots + 1) * M = slots * M + M := Nat.succ_mul slots M
  have hcut := (cutLow_le_cutHigh hM hslots hle).mpr hrem
  have hno : ¬ (rem ≤ M ∧ (slots = 0 ∨ rem < 2 * m)) := by omega
  rw [Safe]
  simp only [hno, hcut, true_and, false_or]
  constructor
  · intro h r hm hM' hlast hslot
    have hsafe := h (rem - r) (by unfold cutLow; omega) (by unfold cutHigh; omega)
    rwa [Nat.sub_sub_self (by omega)] at hsafe
  · intro h c hlow hhigh
    unfold cutLow at hlow
    unfold cutHigh at hhigh
    exact h (rem - c) (by omega) (by omega) (by omega) (by omega)

/-- With one slot the length is the part. -/
theorem safe_one {m M rem : ℕ} (hle : rem ≤ M) : Safe m M 1 rem :=
  Or.inl ⟨hle, Or.inl rfl⟩

/-- A length below two parts is safe where it is one. -/
theorem isSafe_short {m M slots rem : ℕ} (hrem : m ≤ rem) (hshort : rem < 2 * m) :
    IsSafe m M slots rem ↔ rem ≤ M := by
  unfold IsSafe
  constructor
  · rintro (h | h | h | h | h | ⟨rfl, k, rfl⟩)
    · omega
    · exact h
    · omega
    · omega
    · omega
    · have hk : k < 2 := by
        rw [Nat.mul_comm] at hshort
        exact Nat.lt_of_mul_lt_mul_right hshort
      calc m * k ≤ m * 1 := Nat.mul_le_mul_left m (by omega)
        _ = m := Nat.mul_one m
  · exact fun h => Or.inr (Or.inl h)

/-- What a safe length may leave is safe. -/
theorem isSafe_cut {m M slots rem r : ℕ} (hslots : 1 ≤ slots) (hsafe : IsSafe m M (slots + 1) rem)
    (hrem : 2 * m ≤ rem) (hlow : rem ≤ r + M) (hhigh : r + m ≤ rem) (hslot : r ≤ slots * M) :
    IsSafe m M slots r := by
  unfold IsSafe at hsafe ⊢
  rcases hsafe with h | h | h | h | h | ⟨rfl, hdvd⟩
  · exact Or.inl h
  · omega
  · omega
  · omega
  · -- The slots are few: one of them, or two more than a number of them.
    obtain ⟨j, rfl⟩ := Nat.exists_eq_add_of_le' hslots
    cases j with
    | zero => omega
    | succ j =>
      have hmore : (j + 1) * M = j * M + M := Nat.succ_mul j M
      simp only [Nat.reduceSubDiff] at h ⊢
      omega
  · obtain rfl : rem = r + m := by omega
    have hr : m ∣ r := (Nat.dvd_add_left (Nat.dvd_refl m)).mp hdvd
    exact Or.inr (Or.inr (Or.inr (Or.inr (Or.inr ⟨rfl, hr⟩))))

/-- Where all parts are the same, what is not safe leaves what is not safe. -/
theorem not_isSafe_same {m slots rem : ℕ} (hslots : 1 ≤ slots) (hrem : 2 * m ≤ rem)
    (hno : ¬ IsSafe m m (slots + 1) rem) : ¬ IsSafe m m slots (rem - m) := by
  have hdvd : ¬ m ∣ rem := fun h => hno (Or.inr (Or.inr (Or.inr (Or.inr (Or.inr ⟨rfl, h⟩)))))
  have hrest : ¬ m ∣ rem - m := fun h => hdvd ((Nat.dvd_sub_iff_left (by omega) dvd_rfl).mp h)
  have hmul (k : ℕ) : rem - m ≠ k * m := fun h => hrest ⟨k, by rw [h, Nat.mul_comm]⟩
  have hone := hmul 1
  have htwo := hmul 2
  have hthree := hmul 3
  unfold IsSafe at hno ⊢
  obtain ⟨j, rfl⟩ := Nat.exists_eq_add_of_le' hslots
  cases j with
  | zero => omega
  | succ j =>
    have hmore : (j + 1) * m = j * m + m := Nat.succ_mul j m
    simp only [Nat.reduceSubDiff] at hno ⊢
    omega

/-- Where a gap lies between one part and two and the slots are many, what is not safe may leave
what is not safe: the first length in the gap, the longest rest that two parts never are, or the
least of the rests. -/
theorem exists_not_isSafe {m M j rem : ℕ} (hM : m < M) (hrem : 2 * m ≤ rem)
    (hle : rem ≤ (j + 3) * M) (hno : ¬ IsSafe m M (j + 3) rem) :
    ∃ r, m ≤ r ∧ rem ≤ r + M ∧ r + m ≤ rem ∧ r ≤ (j + 2) * M ∧ ¬ IsSafe m M (j + 2) r := by
  have hmore : (j + 1) * M = j * M + M := Nat.succ_mul j M
  have hmore2 : (j + 2) * M = j * M + M + M := by ring
  have hmore3 : (j + 3) * M = j * M + M + M + M := by ring
  have hslots : j = 0 ∧ j * M = 0 ∨ j = 1 ∧ j * M = M ∨ 2 * M ≤ j * M := by
    rcases j with _ | _ | j
    · exact Or.inl ⟨rfl, Nat.zero_mul M⟩
    · exact Or.inr (Or.inl ⟨rfl, Nat.one_mul M⟩)
    · exact Or.inr (Or.inr (Nat.mul_le_mul_right M (by omega)))
  have hne : m ≠ M := hM.ne
  unfold IsSafe at hno ⊢
  simp only [Nat.reduceSubDiff, Nat.add_sub_cancel, hne, false_and, or_false] at hno ⊢
  by_cases hgap : rem < 2 * m + M
  · by_cases hshort : rem ≤ 2 * M
    · exact ⟨M + 1, by omega, by omega, by omega, by omega, by omega⟩
    · exact ⟨rem - M, by omega, by omega, by omega, by omega, by omega⟩
  · by_cases htwo : rem ≤ m + 2 * M
    · exact ⟨m + M + 1, by omega, by omega, by omega, by omega, by omega⟩
    · by_cases hthree : rem = 2 * m + 2 * M
      · exact ⟨rem - M + 1, by omega, by omega, by omega, by omega, by omega⟩
      · exact ⟨rem - M, by omega, by omega, by omega, by omega, by omega⟩

/-- **A length all of whose rests are safe is safe itself.** -/
theorem isSafe_of_cuts {m M slots rem : ℕ} (hM : m ≤ M) (hslots : 1 ≤ slots)
    (hrem : 2 * m ≤ rem) (hle : rem ≤ (slots + 1) * M)
    (hall : ∀ r, m ≤ r → rem ≤ r + M → r + m ≤ rem → r ≤ slots * M → IsSafe m M slots r) :
    IsSafe m M (slots + 1) rem := by
  by_contra hno
  have hmore : (slots + 1) * M = slots * M + M := Nat.succ_mul slots M
  rcases Nat.eq_or_lt_of_le hM with rfl | hlt
  · exact not_isSafe_same hslots hrem hno
      (hall (rem - m) (by omega) (by omega) (by omega) (by omega))
  · obtain ⟨j, rfl⟩ := Nat.exists_eq_add_of_le' hslots
    cases j with
    | zero => exact hno (by unfold IsSafe; omega)
    | succ j =>
      obtain ⟨r, hr, hlow, hhigh, hslot, hbad⟩ := exists_not_isSafe hlt hrem hle hno
      exact hbad (hall r hr hlow hhigh hslot)

/-- **Where a length is safe.** -/
theorem safe_iff {m M slots rem : ℕ} (hm : 1 ≤ m) (hM : m ≤ M) (hrem : m ≤ rem)
    (hle : rem ≤ slots * M) : Safe m M slots rem ↔ IsSafe m M slots rem := by
  induction slots generalizing rem with
  | zero => omega
  | succ slots ih =>
    rcases Nat.eq_zero_or_pos slots with rfl | hslots
    · have hone : rem ≤ M := by omega
      exact iff_of_true (safe_one hone) (Or.inr (Or.inl hone))
    by_cases htwo : 2 * m ≤ rem
    · rw [safe_succ_iff hM hslots hle htwo]
      constructor
      · intro h
        exact isSafe_of_cuts hM hslots htwo hle fun r hr hlow hhigh hslot =>
          (ih hr hslot).mp (h r hr hlow hhigh hslot)
      · intro h r hr hlow hhigh hslot
        exact (ih hr hslot).mpr (isSafe_cut hslots h htwo hlow hhigh hslot)
    · -- One part is enough, or the length lies between one part and two.
      have hno := mt (cutLow_le_cutHigh hM hslots hle).mp htwo
      rw [isSafe_short hrem (not_le.mp htwo), Safe]
      simp only [hno, false_and, or_false]
      omega

end Lib
end Teleproto3
