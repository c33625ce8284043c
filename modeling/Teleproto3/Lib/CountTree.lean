/-
# Trees of counts

A complete binary tree stands in an array: the root at `1`, the children of `i` at `2 * i` and
`2 * i + 1`, and `n` leaves from `n` on.  Each inner node carries the sum of what its two children
carry (`IsSum`).

`Above i x` says that `i` is on the way from `x` up to the root, and `Stepped f x c c'` that `c'`
is `c` with `f` applied along that way and nowhere else.  A leaf that gains or loses one, with
every node above it, leaves a tree of sums (`Stepped.isSum_succ`, `Stepped.isSum_pred`).

`Level n i h l r` says that the node `i` stands `h` levels above the leaves, and over those from
`l` up to `r`; `IsSum.level_sum` is what it carries in terms of them.
-/

import Mathlib.Algebra.BigOperators.Intervals
import Mathlib.Algebra.Order.BigOperators.Group.Finset
import Mathlib.Data.Nat.Log
import Mathlib.Tactic.Ring

namespace Teleproto3
namespace Lib

/-- Every inner node carries the sum of its children. -/
def IsSum (n : ℕ) (c : ℕ → ℕ) : Prop :=
  ∀ i, 0 < i → i < n → c i = c (2 * i) + c (2 * i + 1)

/-- The node is `x` or one on the way from `x` to the root. -/
def Above (i x : ℕ) : Prop := 0 < i ∧ ∃ s, x / 2 ^ s = i

/-- A function is applied along the way from `x` to the root. -/
structure Stepped (f : ℕ → ℕ) (x : ℕ) (c c' : ℕ → ℕ) : Prop where
  on : ∀ i, Above i x → c' i = f (c i)
  off : ∀ i, ¬ Above i x → c' i = c i

/-- A function is applied along the way from `x` to below `y`. -/
structure SteppedBelow (f : ℕ → ℕ) (x y : ℕ) (c c' : ℕ → ℕ) : Prop where
  on : ∀ i, Above i x ∧ ¬ Above i y → c' i = f (c i)
  off : ∀ i, ¬ (Above i x ∧ ¬ Above i y) → c' i = c i

variable {n i j x h : ℕ} {c c' c'' : ℕ → ℕ} {f : ℕ → ℕ}

theorem above_self (hx : 0 < x) : Above x x := ⟨hx, 0, by rw [pow_zero, Nat.div_one]⟩

theorem not_above_zero : ¬ Above i 0 := by
  rintro ⟨hi, s, hs⟩
  rw [Nat.zero_div] at hs
  omega

theorem Above.le (ha : Above i x) : i ≤ x := by
  obtain ⟨-, s, rfl⟩ := ha
  exact Nat.div_le_self x (2 ^ s)

theorem Above.trans (ha : Above i j) (hb : Above j x) : Above i x := by
  obtain ⟨hi, s, hs⟩ := ha
  obtain ⟨-, t, rfl⟩ := hb
  refine ⟨hi, t + s, ?_⟩
  rw [pow_add, ← Nat.div_div_eq_div_mul, hs]

/-- The way up begins with `x` and goes on from half of it. -/
theorem above_iff_half : Above i x ↔ (i = x ∧ 0 < x) ∨ Above i (x / 2) := by
  constructor
  · rintro ⟨hi, s, hs⟩
    cases s with
    | zero =>
      rw [pow_zero, Nat.div_one] at hs
      exact .inl ⟨hs.symm, hs ▸ hi⟩
    | succ s =>
      refine .inr ⟨hi, s, ?_⟩
      rw [Nat.div_div_eq_div_mul, ← pow_succ', hs]
  · rintro (⟨rfl, hx⟩ | ⟨hi, s, hs⟩)
    · exact above_self hx
    · refine ⟨hi, s + 1, ?_⟩
      rw [pow_succ', ← Nat.div_div_eq_div_mul, hs]

theorem above_left (hi : 0 < i) : Above i (2 * i) :=
  above_iff_half.mpr (.inr (by rw [Nat.mul_div_cancel_left i Nat.two_pos]; exact above_self hi))

theorem above_right (hi : 0 < i) : Above i (2 * i + 1) := by
  refine above_iff_half.mpr (.inr ?_)
  have hhalf : (2 * i + 1) / 2 = i := by omega
  rw [hhalf]
  exact above_self hi

/-- A node above `x` is `x`, or one of its children is above `x`. -/
theorem above_iff_child (hi : 0 < i) :
    Above i x ↔ i = x ∨ Above (2 * i) x ∨ Above (2 * i + 1) x := by
  constructor
  · rintro ⟨-, s, hs⟩
    cases s with
    | zero => exact .inl (by rw [← hs, pow_zero, Nat.div_one])
    | succ s =>
      rw [pow_succ, ← Nat.div_div_eq_div_mul] at hs
      rcases Nat.mod_two_eq_zero_or_one (x / 2 ^ s) with hm | hm
      · exact .inr (.inl ⟨by omega, s, by omega⟩)
      · exact .inr (.inr ⟨by omega, s, by omega⟩)
  · rintro (rfl | h | h)
    · exact above_self hi
    · exact (above_left hi).trans h
    · exact (above_right hi).trans h

/-- The two children are not both above `x`. -/
theorem not_above_both (hi : 0 < i) (hl : Above (2 * i) x) : ¬ Above (2 * i + 1) x := by
  rintro ⟨-, t, ht⟩
  obtain ⟨-, s, hs⟩ := hl
  rcases Nat.lt_trichotomy s t with hst | rfl | hst
  · obtain ⟨d, rfl⟩ := Nat.exists_eq_add_of_lt hst
    rw [add_assoc, pow_add, ← Nat.div_div_eq_div_mul, hs] at ht
    have hle : 2 * i / 2 ^ (d + 1) ≤ 2 * i := Nat.div_le_self _ _
    omega
  · omega
  · obtain ⟨d, rfl⟩ := Nat.exists_eq_add_of_lt hst
    rw [add_assoc, pow_add, ← Nat.div_div_eq_div_mul, ht, pow_succ', ← Nat.div_div_eq_div_mul] at hs
    have hle : (2 * i + 1) / 2 / 2 ^ d ≤ (2 * i + 1) / 2 := Nat.div_le_self _ _
    omega

/-- Where the leaves below a node are. -/
theorem exists_level {k : ℕ} (hi : 0 < i) (hik : i < 2 * 2 ^ k) :
    ∃ h, 2 ^ k ≤ i * 2 ^ h ∧ (i + 1) * 2 ^ h ≤ 2 * 2 ^ k := by
  have hlow := Nat.pow_log_le_self 2 hi.ne'
  have hhigh := Nat.lt_pow_succ_log_self (b := 2) (by omega) i
  have hle : Nat.log 2 i ≤ k := by
    by_contra hlt
    have hpow : 2 ^ (k + 1) ≤ 2 ^ Nat.log 2 i := Nat.pow_le_pow_right (by omega) (by omega)
    rw [pow_succ] at hpow
    omega
  obtain ⟨h, rfl⟩ := Nat.exists_eq_add_of_le hle
  refine ⟨h, ?_, ?_⟩
  · rw [pow_add]
    exact Nat.mul_le_mul_right _ hlow
  · calc (i + 1) * 2 ^ h ≤ 2 ^ (Nat.log 2 i + 1) * 2 ^ h := Nat.mul_le_mul_right _ hhigh
      _ = 2 * 2 ^ (Nat.log 2 i + h) := by ring

/-- A node `h` levels above the leaves, over those from `l` up to `r`. -/
structure Level (n i h l r : ℕ) : Prop where
  start : n + l = i * 2 ^ h
  stop : n + r = (i + 1) * 2 ^ h
  le : r ≤ n

namespace Level

variable {l r : ℕ}

theorem root (k : ℕ) : Level (2 ^ k) 1 k 0 (2 ^ k) := ⟨by ring, by ring, le_rfl⟩

theorem lt (hl : Level n i h l r) : l < r := by
  have hstart := hl.start
  have hstop := hl.stop
  rw [add_mul, one_mul] at hstop
  have hpos := Nat.two_pow_pos h
  omega

theorem leaf (hl : Level n i 0 l r) : i = n + l ∧ r = l + 1 := by
  have hstart := hl.start
  have hstop := hl.stop
  rw [pow_zero, mul_one] at hstart hstop
  omega

theorem inner (hl : Level n i (h + 1) l r) : i < n := by
  have hstop := hl.stop
  have hle := hl.le
  have hmul : i + 1 ≤ (i + 1) * 2 ^ h := Nat.le_mul_of_pos_right _ (Nat.two_pow_pos h)
  rw [pow_succ, ← mul_assoc] at hstop
  omega

theorem middle (hl : Level n i (h + 1) l r) : n + (l + r) / 2 = (2 * i + 1) * 2 ^ h := by
  have hstart := hl.start
  have hstop := hl.stop
  have h1 : i * 2 ^ (h + 1) = 2 * (i * 2 ^ h) := by ring
  have h2 : (i + 1) * 2 ^ (h + 1) = 2 * (i * 2 ^ h) + 2 * 2 ^ h := by ring
  have h3 : (2 * i + 1) * 2 ^ h = 2 * (i * 2 ^ h) + 2 ^ h := by ring
  omega

theorem left (hl : Level n i (h + 1) l r) : Level n (2 * i) h l ((l + r) / 2) := by
  refine ⟨?_, hl.middle, ?_⟩
  · rw [hl.start]
    ring
  · have hlt := hl.lt
    have hle := hl.le
    omega

theorem right (hl : Level n i (h + 1) l r) : Level n (2 * i + 1) h ((l + r) / 2) r := by
  refine ⟨hl.middle, ?_, hl.le⟩
  rw [hl.stop]
  ring

end Level

/-- **Sums that are kept modulo a number are plain sums** when the leaves come to less. -/
theorem IsSum.of_mod {k b : ℕ}
    (hmod : ∀ i, 0 < i → i < 2 ^ k → c i = (c (2 * i) + c (2 * i + 1)) % b)
    (htot : ∑ x ∈ Finset.Ico (2 ^ k) (2 * 2 ^ k), c x < b) : IsSum (2 ^ k) c := by
  have hsum (h i : ℕ) (hi : 0 < i) (hlow : 2 ^ k ≤ i * 2 ^ h) (hh : (i + 1) * 2 ^ h ≤ 2 * 2 ^ k) :
      c i = ∑ x ∈ Finset.Ico (i * 2 ^ h) ((i + 1) * 2 ^ h), c x ∧
        (0 < h → c i = c (2 * i) + c (2 * i + 1)) := by
    induction h generalizing i with
    | zero =>
      refine ⟨?_, fun h0 => absurd h0 (lt_irrefl 0)⟩
      rw [pow_zero, mul_one, mul_one, Nat.Ico_succ_singleton, Finset.sum_singleton]
    | succ h ih =>
      have hstart : i * 2 ^ (h + 1) = 2 * i * 2 ^ h := by ring
      have hmid : (2 * i + 1) * 2 ^ h = 2 * i * 2 ^ h + 2 ^ h := by ring
      have hend : (i + 1) * 2 ^ (h + 1) = (2 * i + 1 + 1) * 2 ^ h := by ring
      have hend' : (2 * i + 1 + 1) * 2 ^ h = 2 * i * 2 ^ h + 2 * 2 ^ h := by ring
      have hnode : i ≤ i * 2 ^ h := Nat.le_mul_of_pos_right i (Nat.two_pow_pos h)
      have hassoc : 2 * i * 2 ^ h = 2 * (i * 2 ^ h) := mul_assoc _ _ _
      have hpos := Nat.two_pow_pos h
      have hleft := (ih (2 * i) (by omega) (by omega) (by omega)).1
      have hright := (ih (2 * i + 1) (by omega) (by omega) (by omega)).1
      have hboth : c (2 * i) + c (2 * i + 1) =
          ∑ x ∈ Finset.Ico (i * 2 ^ (h + 1)) ((i + 1) * 2 ^ (h + 1)), c x := by
        rw [hleft, hright, hstart, hend]
        exact Finset.sum_Ico_consecutive _ (Nat.mul_le_mul_right _ (by omega))
          (Nat.mul_le_mul_right _ (by omega))
      have hle : c (2 * i) + c (2 * i + 1) ≤ ∑ x ∈ Finset.Ico (2 ^ k) (2 * 2 ^ k), c x := by
        rw [hboth]
        exact Finset.sum_le_sum_of_subset (Finset.Ico_subset_Ico (by omega) (by omega))
      have hplain : c i = c (2 * i) + c (2 * i + 1) := by
        rw [hmod i hi (by omega), Nat.mod_eq_of_lt (by omega)]
      exact ⟨hplain.trans hboth, fun _ => hplain⟩
  intro i hi hik
  obtain ⟨h, hlow, hhigh⟩ := exists_level (k := k) hi (by omega)
  refine (hsum h i hi hlow hhigh).2 ?_
  by_contra h0
  obtain rfl : h = 0 := by omega
  rw [pow_zero, mul_one] at hlow
  omega

namespace IsSum

/-- **A node carries what the leaves below it carry.**  The leaves below a node `h` levels above
them are the `2 ^ h` from `i * 2 ^ h` on. -/
theorem eq_sum (hc : IsSum n c) (hi : 0 < i) (hh : (i + 1) * 2 ^ h ≤ 2 * n) :
    c i = ∑ x ∈ Finset.Ico (i * 2 ^ h) ((i + 1) * 2 ^ h), c x := by
  induction h generalizing i with
  | zero =>
    rw [pow_zero, mul_one, mul_one, Nat.Ico_succ_singleton, Finset.sum_singleton]
  | succ h ih =>
    have hlow : i * 2 ^ (h + 1) = 2 * i * 2 ^ h := by ring
    have hmid : (2 * i + 1) * 2 ^ h = 2 * i * 2 ^ h + 2 ^ h := by ring
    have hhigh : (i + 1) * 2 ^ (h + 1) = (2 * i + 1 + 1) * 2 ^ h := by ring
    have hend : (2 * i + 1 + 1) * 2 ^ h = 2 * i * 2 ^ h + 2 * 2 ^ h := by ring
    have hnode : i ≤ i * 2 ^ h := Nat.le_mul_of_pos_right i (Nat.two_pow_pos h)
    have hassoc : 2 * i * 2 ^ h = 2 * (i * 2 ^ h) := mul_assoc _ _ _
    have hpos := Nat.two_pow_pos h
    have hleft := ih (i := 2 * i) (by omega) (by omega)
    have hright := ih (i := 2 * i + 1) (by omega) (by omega)
    rw [hc i hi (by omega), hleft, hright, hlow, hhigh]
    exact Finset.sum_Ico_consecutive _ (Nat.mul_le_mul_right _ (by omega))
      (Nat.mul_le_mul_right _ (by omega))

/-- What a node carries, in terms of the leaves it stands over. -/
theorem level_sum {l r : ℕ} (hc : IsSum n c) (hi : 0 < i) (hl : Level n i h l r) :
    c i = ∑ y ∈ Finset.Ico l r, c (n + y) := by
  have hstop := hl.stop
  have hle := hl.le
  rw [hc.eq_sum hi (h := h) (by omega), ← hl.start, ← hl.stop, Finset.sum_Ico_add, add_comm l,
    add_comm r]

/-- A node carries nothing exactly when the leaves it stands over carry nothing. -/
theorem level_eq_zero_iff {l r : ℕ} (hc : IsSum n c) (hi : 0 < i) (hl : Level n i h l r) :
    c i = 0 ↔ ∀ y, l ≤ y → y < r → c (n + y) = 0 := by
  rw [hc.level_sum hi hl, Finset.sum_eq_zero_iff]
  simp only [Finset.mem_Ico, and_imp]

/-- What is above a node carries at least as much. -/
theorem le_of_above (hc : IsSum n c) (hx : x < 2 * n) (ha : Above i x) : c x ≤ c i := by
  obtain ⟨hi, s, hs⟩ := ha
  induction s generalizing i with
  | zero => rw [← hs, pow_zero, Nat.div_one]
  | succ s ih =>
    rw [pow_succ, ← Nat.div_div_eq_div_mul] at hs
    have hle : x / 2 ^ s ≤ x := Nat.div_le_self _ _
    have hrec := ih (i := x / 2 ^ s) (by omega) rfl
    have hsum := hc i hi (by omega)
    rcases Nat.mod_two_eq_zero_or_one (x / 2 ^ s) with hm | hm
    · have heq : x / 2 ^ s = 2 * i := by omega
      rw [heq] at hrec
      omega
    · have heq : x / 2 ^ s = 2 * i + 1 := by omega
      rw [heq] at hrec
      omega

/-- The root carries the most. -/
theorem le_root (hc : IsSum n c) (hi : 0 < i) (hin : i < 2 * n) : c i ≤ c 1 := by
  refine hc.le_of_above hin ⟨Nat.one_pos, Nat.log 2 i, ?_⟩
  have hlow := Nat.pow_log_le_self 2 (Nat.pos_iff_ne_zero.mp hi)
  have hhigh := Nat.lt_pow_succ_log_self (b := 2) (by omega) i
  rw [pow_succ] at hhigh
  exact (Nat.div_eq_iff (Nat.two_pow_pos _)).mpr ⟨by omega, by omega⟩

end IsSum

namespace SteppedBelow

theorem refl : SteppedBelow f x x c c :=
  ⟨fun _ hi => absurd hi.1 hi.2, fun _ _ => rfl⟩

/-- Nothing is above `0`. -/
theorem stepped (hs : SteppedBelow f x 0 c c') : Stepped f x c c' :=
  ⟨fun i hi => hs.on i ⟨hi, not_above_zero⟩, fun i hi => hs.off i fun hn => hi hn.1⟩

/-- One more node at the upper end. -/
theorem of_node {y : ℕ} (hy : 0 < y) (ha : Above y x)
    (hs : SteppedBelow f x y (Function.update c y (f (c y))) c') :
    SteppedBelow f x (y / 2) c c' := by
  have hnot : ¬ Above y (y / 2) := fun hb => by
    have := hb.le
    omega
  refine ⟨fun i hi => ?_, fun i hi => ?_⟩
  · by_cases hiy : i = y
    · subst hiy
      rw [hs.off i fun hn => hn.2 (above_self hy), Function.update_self]
    · have hni : ¬ Above i y := fun hb => by
        rcases above_iff_half.mp hb with ⟨heq, -⟩ | hb
        · exact hiy heq
        · exact hi.2 hb
      rw [hs.on i ⟨hi.1, hni⟩, Function.update_of_ne hiy]
  · have hiy : i ≠ y := by
      rintro rfl
      exact hi ⟨ha, hnot⟩
    rw [hs.off i fun hn => hi ⟨hn.1, fun hb => hn.2 (above_iff_half.mpr (.inr hb))⟩,
      Function.update_of_ne hiy]

/-- One more node at the lower end, which stands below `y`. -/
theorem of_child {y z : ℕ} (hz : 0 < z) (hzy : z / 2 = y) (ha : Above z x)
    (hs : SteppedBelow f x z (Function.update c z (f (c z))) c') : SteppedBelow f x y c c' := by
  rw [← hzy]
  exact of_node hz ha hs

end SteppedBelow

namespace Stepped

theorem refl_of_none (hx : ∀ i, ¬ Above i x) : Stepped f x c c :=
  ⟨fun i hi => absurd hi (hx i), fun _ _ => rfl⟩

/-- One more node and the way up from half of it. -/
theorem of_half (hx : 0 < x) (hup : Stepped f (x / 2) (Function.update c x (f (c x))) c') :
    Stepped f x c c' := by
  have hnot : ¬ Above x (x / 2) := fun ha => by
    have := ha.le
    omega
  refine ⟨fun i hi => ?_, fun i hi => ?_⟩
  · rcases above_iff_half.mp hi with ⟨rfl, -⟩ | hi
    · rw [hup.off i hnot, Function.update_self]
    · have hne : i ≠ x := fun heq => hnot (heq ▸ hi)
      rw [hup.on i hi, Function.update_of_ne hne]
  · have hne : i ≠ x := by
      rintro rfl
      exact hi (above_self hx)
    rw [hup.off i fun ha => hi (above_iff_half.mpr (.inr ha)), Function.update_of_ne hne]

/-- A leaf that gains one. -/
theorem isSum_succ (hs : Stepped (· + 1) x c c') (hc : IsSum n c) (hx : n ≤ x) :
    IsSum n c' := by
  intro i hi hin
  have hsum := hc i hi hin
  have hne : i ≠ x := by omega
  by_cases ha : Above i x
  · rcases (above_iff_child hi).mp ha with rfl | hl | hr
    · exact absurd rfl hne
    · rw [hs.on i ha, hs.on _ hl, hs.off _ (not_above_both hi hl)]
      omega
    · have hl : ¬ Above (2 * i) x := fun hl => not_above_both hi hl hr
      rw [hs.on i ha, hs.on _ hr, hs.off _ hl]
      omega
  · have hl : ¬ Above (2 * i) x := fun hl => ha ((above_iff_child hi).mpr (.inr (.inl hl)))
    have hr : ¬ Above (2 * i + 1) x := fun hr => ha ((above_iff_child hi).mpr (.inr (.inr hr)))
    rw [hs.off i ha, hs.off _ hl, hs.off _ hr, hsum]

/-- A leaf that loses one. -/
theorem isSum_pred (hs : Stepped (· - 1) x c c') (hc : IsSum n c) (hx : n ≤ x) (hx2 : x < 2 * n)
    (hpos : 0 < c x) : IsSum n c' := by
  intro i hi hin
  have hsum := hc i hi hin
  have hne : i ≠ x := by omega
  by_cases ha : Above i x
  · rcases (above_iff_child hi).mp ha with rfl | hl | hr
    · exact absurd rfl hne
    · have := hc.le_of_above hx2 hl
      rw [hs.on i ha, hs.on _ hl, hs.off _ (not_above_both hi hl)]
      omega
    · have hl : ¬ Above (2 * i) x := fun hl => not_above_both hi hl hr
      have := hc.le_of_above hx2 hr
      rw [hs.on i ha, hs.on _ hr, hs.off _ hl]
      omega
  · have hl : ¬ Above (2 * i) x := fun hl => ha ((above_iff_child hi).mpr (.inr (.inl hl)))
    have hr : ¬ Above (2 * i + 1) x := fun hr => ha ((above_iff_child hi).mpr (.inr (.inr hr)))
    rw [hs.off i ha, hs.off _ hl, hs.off _ hr, hsum]

/-- A function applied from `x` up to below `y`, and then from `y` up. -/
theorem of_below {y : ℕ} (hb : SteppedBelow f x y c c') (hs : Stepped f y c' c'')
    (ha : Above y x) : Stepped f x c c'' := by
  refine ⟨fun i hi => ?_, fun i hi => ?_⟩
  · by_cases hy : Above i y
    · rw [hs.on i hy, hb.off i fun hn => hn.2 hy]
    · rw [hs.off i hy, hb.on i ⟨hi, hy⟩]
  · rw [hs.off i fun hy => hi (hy.trans ha), hb.off i fun hn => hi hn.1]

/-- Another leaf keeps what it has. -/
theorem leaf_other (hs : Stepped f x c c') (hx : x < 2 * n) (hi : n ≤ i) (hne : i ≠ x) :
    c' i = c i := by
  refine hs.off i fun ha => ?_
  rcases above_iff_half.mp ha with ⟨heq, -⟩ | ha
  · exact hne heq
  · have := ha.le
    omega

/-- A function that agrees on what is met along the way. -/
theorem congr {g : ℕ → ℕ} (hs : Stepped f x c c') (hfg : ∀ i, Above i x → f (c i) = g (c i)) :
    Stepped g x c c' :=
  ⟨fun i hi => (hs.on i hi).trans (hfg i hi), hs.off⟩

end Stepped

end Lib
end Teleproto3
