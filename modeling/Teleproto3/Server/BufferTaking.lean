/-
# Taking a buffer and giving it back

What the walks through `free_cnt` find.  A buffer taken by rank is the free one with as many free
ones before it as were drawn (`BufferChunk.takeRank_spec`).  A buffer taken near another is the
next free one behind it, and from the first one again where none is behind
(`BufferChunk.takeNeighbor_spec`): the loop goes down towards the neighbour and keeps the last
subtree it left on its right that had a free buffer, to fall back to.

Either way the counts are lowered by one along the way from the leaf up to the root, each once,
so that they stay right; and giving a buffer back raises them (`BufferChunk.freeStdMsgBuffer_spec`).
-/

import Teleproto3.Server.BufferCutting

namespace Teleproto3
namespace Server

open Lib

/-- `--` of an `unsigned short`. -/
def decr16 (c : ℕ) : ℕ := (c + 65535) % 2 ^ 16

/-- `++` of an `unsigned short`. -/
def incr16 (c : ℕ) : ℕ := (c + 1) % 2 ^ 16

/-- `y` is the first free buffer from `l` up to `r`. -/
structure FirstFree (c : ℕ → ℕ) (n l r y : ℕ) : Prop where
  le : l ≤ y
  lt : y < r
  free : c (n + y) ≠ 0
  first : ∀ z, l ≤ z → z < y → c (n + z) = 0

/-- `y` is the next free buffer behind `x`, among `n`, and from the first one again where none
is behind. -/
def NextFree (c : ℕ → ℕ) (n x y : ℕ) : Prop :=
  FirstFree c n (x + 1) n y ∨
    (∀ z, x < z → z < n → c (n + z) = 0) ∧ FirstFree c n 0 n y

/-- `y` is the free buffer with `j` others before it. -/
structure RankedFree (c : ℕ → ℕ) (n l r j y : ℕ) : Prop where
  le : l ≤ y
  lt : y < r
  free : c (n + y) ≠ 0
  rank : ∑ z ∈ Finset.Ico l y, c (n + z) = j

namespace BufferChunk

variable {C : BufferChunk} {c : ℕ → ℕ} {f h i j k l r x : ℕ}

/-- `C` with other counts. -/
def withCounts (C : BufferChunk) (c : ℕ → ℕ) : BufferChunk := { C with freeCnt := c }

@[simp] theorem withCounts_freeCnt : (C.withCounts c).freeCnt = c := rfl

@[simp] theorem withCounts_twoPower : (C.withCounts c).twoPower = C.twoPower := rfl

@[simp] theorem withCounts_totBuffers : (C.withCounts c).totBuffers = C.totBuffers := rfl

@[simp] theorem withCounts_bufferSize : (C.withCounts c).bufferSize = C.bufferSize := rfl

@[simp] theorem withCounts_bufferAt : (C.withCounts c).bufferAt i = C.bufferAt i := rfl

theorem decr_eq : C.decr i = C.withCounts (Function.update C.freeCnt i (decr16 (C.freeCnt i))) := rfl

/-- What was cut stays. -/
theorem Cut.withCounts (hC : C.Cut) : (C.withCounts c).Cut :=
  ⟨hC.leaves, hC.fits, hC.within, hC.inverse⟩

/-! ### The counts -/

/-- The root carries what the leaves of the buffers come to. -/
theorem Counts.root_eq (hC : C.Cut) (hc : C.Counts) :
    C.freeCnt 1 = ∑ y ∈ Finset.Ico 0 C.totBuffers, C.freeCnt (C.twoPower + y) := by
  obtain ⟨k, hk⟩ := hC.leaves
  have hlevel : Level C.twoPower 1 k 0 C.twoPower := hk ▸ Level.root k
  have hle := hC.fits.2.1
  have hbeyond : ∑ y ∈ Finset.Ico C.totBuffers C.twoPower, C.freeCnt (C.twoPower + y) = 0 :=
    Finset.sum_eq_zero fun y hy =>
      hc.beyond y (Finset.mem_Ico.mp hy).1 (Finset.mem_Ico.mp hy).2
  rw [hc.sums.level_sum Nat.one_pos hlevel, ← Finset.sum_Ico_consecutive _ (Nat.zero_le _) hle,
    hbeyond, Nat.add_zero]

/-- That is at most the number of buffers. -/
theorem Counts.root_le (hC : C.Cut) (hc : C.Counts) : C.freeCnt 1 ≤ C.totBuffers := by
  have hsum : ∑ y ∈ Finset.Ico 0 C.totBuffers, C.freeCnt (C.twoPower + y) ≤
      ∑ _y ∈ Finset.Ico 0 C.totBuffers, 1 := Finset.sum_le_sum fun y _ => hc.leaf y
  rw [Finset.sum_const, Nat.card_Ico, smul_eq_mul, mul_one] at hsum
  exact (hc.root_eq hC).trans_le hsum

/-- It is less while a buffer is taken. -/
theorem Counts.root_lt (hC : C.Cut) (hc : C.Counts) (hx : x < C.totBuffers)
    (hused : C.freeCnt (C.twoPower + x) = 0) : C.freeCnt 1 < C.totBuffers := by
  have hsum : ∑ y ∈ Finset.Ico 0 C.totBuffers, C.freeCnt (C.twoPower + y) <
      ∑ _y ∈ Finset.Ico 0 C.totBuffers, 1 :=
    Finset.sum_lt_sum (fun y _ => hc.leaf y)
      ⟨x, Finset.mem_Ico.mpr ⟨Nat.zero_le x, hx⟩, by rw [hused]; exact Nat.one_pos⟩
  rw [Finset.sum_const, Nat.card_Ico, smul_eq_mul, mul_one] at hsum
  exact (hc.root_eq hC).trans_lt hsum

theorem Counts.lt (hC : C.Cut) (hc : C.Counts) (hi : 0 < i) (hin : i < 2 * C.twoPower) :
    C.freeCnt i < 65536 := by
  have hroot := hc.root_le hC
  have hle := hc.sums.le_root hi hin
  have hfits := hC.fits
  omega

/-- Lowering along a way from a free leaf is subtracting one. -/
theorem Counts.stepped_pred (hC : C.Cut) (hc : C.Counts) (hx : x < 2 * C.twoPower)
    (hpos : 0 < C.freeCnt x) (hs : Stepped decr16 x C.freeCnt c) :
    Stepped (· - 1) x C.freeCnt c := by
  refine hs.congr fun i hi => ?_
  have hle := hi.le
  have hlt := hc.lt hC hi.1 (by omega)
  have hge := hc.sums.le_of_above hx hi
  unfold decr16
  omega

/-- The counts when the leaf of one buffer changed. -/
theorem Counts.of_leaf {y : ℕ} (hc : C.Counts) (hsums : IsSum C.twoPower c)
    (hself : c (C.twoPower + y) ≤ 1) (hbeyond : C.totBuffers ≤ y → c (C.twoPower + y) = 0)
    (hother : ∀ z, z ≠ y → c (C.twoPower + z) = C.freeCnt (C.twoPower + z)) :
    (C.withCounts c).Counts := by
  refine ⟨hsums, fun z => ?_, fun z hz hzn => ?_⟩
  · by_cases hzy : z = y
    · exact hzy ▸ hself
    · exact (hother z hzy).trans_le (hc.leaf z)
  · by_cases hzy : z = y
    · exact hzy ▸ hbeyond (hzy ▸ hz)
    · exact (hother z hzy).trans (hc.beyond z hz hzn)

/-- **The counts are right when a free buffer was taken.** -/
theorem Counts.take {y : ℕ} (hC : C.Cut) (hc : C.Counts) (hy : y < C.twoPower)
    (hfree : C.freeCnt (C.twoPower + y) ≠ 0) (hs : Stepped decr16 (C.twoPower + y) C.freeCnt c) :
    (C.withCounts c).Counts ∧ c (C.twoPower + y) = 0 ∧
      ∀ z, z ≠ y → z < C.twoPower → c (C.twoPower + z) = C.freeCnt (C.twoPower + z) := by
  have hpos := Nat.pos_of_ne_zero hfree
  have hs' := hc.stepped_pred hC (x := C.twoPower + y) (by omega) hpos hs
  have hself : c (C.twoPower + y) = 0 := by
    have hone := hc.leaf y
    rw [hs'.on _ (above_self (by omega))]
    omega
  have hother (z : ℕ) (hzy : z ≠ y) :
      c (C.twoPower + z) = C.freeCnt (C.twoPower + z) :=
    hs'.leaf_other (n := C.twoPower) (by omega) (by omega) (by omega)
  have hsums : IsSum C.twoPower c := hs'.isSum_pred hc.sums (by omega) (by omega) hpos
  exact ⟨hc.of_leaf hsums (by omega) (fun _ => hself) hother, hself, fun z hzy _ => hother z hzy⟩

/-- **The counts are right when a buffer was given back.** -/
theorem Counts.give {y : ℕ} (hC : C.Cut) (hc : C.Counts) (hy : y < C.totBuffers)
    (hused : C.freeCnt (C.twoPower + y) = 0)
    (hs : Stepped (· + 1) (C.twoPower + y) C.freeCnt c) :
    (C.withCounts c).Counts ∧ c (C.twoPower + y) = 1 ∧
      ∀ z, z ≠ y → z < C.twoPower → c (C.twoPower + z) = C.freeCnt (C.twoPower + z) := by
  have hfits := hC.fits
  have hself : c (C.twoPower + y) = 1 := by
    rw [hs.on _ (above_self (by omega)), hused]
  have hother (z : ℕ) (hzy : z ≠ y) :
      c (C.twoPower + z) = C.freeCnt (C.twoPower + z) :=
    hs.leaf_other (n := C.twoPower) (by omega) (by omega) (by omega)
  have hsums : IsSum C.twoPower c := hs.isSum_succ hc.sums (by omega)
  exact ⟨hc.of_leaf hsums hself.le (fun hle => absurd hle (by omega)) hother, hself,
    fun z hzy _ => hother z hzy⟩

/-! ### The walks -/

theorem climb_spec (hf : k < f) :
    ∃ c, climb f C k = .ok (C.withCounts c) ∧ Stepped decr16 k C.freeCnt c := by
  induction f generalizing C k with
  | zero => omega
  | succ f ih =>
    rw [climb]
    by_cases hk : 0 < k
    · rw [if_pos hk]
      obtain ⟨c, hc, hs⟩ := ih (C := C.decr k) (k := k / 2) (by omega)
      exact ⟨c, hc, .of_half hk hs⟩
    · rw [if_neg hk]
      obtain rfl : k = 0 := by omega
      exact ⟨C.freeCnt, rfl, .refl_of_none fun _ => not_above_zero⟩

theorem climbBack_spec (hk : 0 < k) (hf : k ≤ f)
    (hlt : ∀ i, Above i k → C.freeCnt i < 65535) :
    ∃ c, climbBack f C k = .ok (C.withCounts c) ∧ Stepped incr16 k C.freeCnt c := by
  induction f generalizing C k with
  | zero => omega
  | succ f ih =>
    have hself := hlt k (above_self hk)
    have hassert : assertBuffer (0 < (C.incr k).freeCnt k) = .ok () := by
      refine if_pos ?_
      simp only [incr, Function.update_self]
      omega
    by_cases hhalf : k / 2 = 0
    · refine ⟨(C.incr k).freeCnt, ?_, .of_half hk ?_⟩
      · simp only [climbBack, hassert, hhalf, if_true]
        rfl
      · rw [hhalf]
        exact .refl_of_none fun _ => not_above_zero
    · obtain ⟨c, hc, hs⟩ := ih (C := C.incr k) (k := k / 2) (by omega) (by omega) fun i hi => by
        have hle := hi.le
        have hne : i ≠ k := by omega
        rw [show (C.incr k).freeCnt i = C.freeCnt i from Function.update_of_ne hne ..]
        exact hlt i (above_iff_half.mpr (.inr hi))
      refine ⟨c, ?_, .of_half hk hs⟩
      simp only [climbBack, hassert, hhalf, if_false]
      exact hc

/-- **Down to the first free buffer below a node.** -/
theorem descendFirst_spec (hc : IsSum C.twoPower c) (hi : 0 < i)
    (hl : Level C.twoPower i h l r) (hpos : c i ≠ 0) (hsame : ∀ m, i < m → C.freeCnt m = c m)
    (hf : h < f) :
    ∃ c' y, descendFirst f C i = .ok (C.withCounts c', C.twoPower + y) ∧
      FirstFree c C.twoPower l r y ∧ Above i (C.twoPower + y) ∧
      SteppedBelow decr16 (C.twoPower + y) i C.freeCnt c' := by
  induction h generalizing C i l r f with
  | zero =>
    obtain ⟨f, rfl⟩ := Nat.exists_eq_succ_of_ne_zero (by omega : f ≠ 0)
    obtain ⟨rfl, rfl⟩ := hl.leaf
    refine ⟨C.freeCnt, l, ?_, ⟨le_rfl, by omega, hpos, fun z hz hzl => by omega⟩, above_self hi,
      .refl⟩
    rw [descendFirst, if_neg (by omega)]
    rfl
  | succ h ih =>
    obtain ⟨f, rfl⟩ := Nat.exists_eq_succ_of_ne_zero (by omega : f ≠ 0)
    have hin := hl.inner
    have hsum := hc i hi hin
    rw [descendFirst, if_pos hin, hsame (2 * i) (by omega)]
    by_cases hleft : c (2 * i) = 0
    · simp only [hleft, if_true]
      obtain ⟨c', y, hrun, hfirst, habove, hs⟩ := ih (C := C.decr (2 * i + 1)) hc (by omega)
        hl.right (by omega) (fun m hm => by
          rw [← hsame m (by omega)]
          exact Function.update_of_ne (by omega) ..) (f := f) (by omega)
      refine ⟨c', y, hrun, ⟨?_, hfirst.lt, hfirst.free, fun z hz hzy => ?_⟩,
        (above_right hi).trans habove, hs.of_child (by omega) (by omega) habove⟩
      · have h1 := hfirst.le
        have h2 := hl.lt
        omega
      · by_cases hzm : z < (l + r) / 2
        · exact (hc.level_eq_zero_iff (by omega) hl.left).mp hleft z hz hzm
        · exact hfirst.first z (by omega) hzy
    · simp only [hleft, if_false]
      obtain ⟨c', y, hrun, hfirst, habove, hs⟩ := ih (C := C.decr (2 * i)) hc (by omega)
        hl.left hleft (fun m hm => by
          rw [← hsame m (by omega)]
          exact Function.update_of_ne (by omega) ..) (f := f) (by omega)
      refine ⟨c', y, hrun, ⟨hfirst.le, ?_, hfirst.free, hfirst.first⟩,
        (above_left hi).trans habove, hs.of_child (by omega) (by omega) habove⟩
      have h1 := hfirst.lt
      have h2 := hl.lt
      omega

/-- **Down to the free buffer with `j` others before it.** -/
theorem rankLoop_spec (hc : IsSum C.twoPower c) (hleaf : ∀ y, c (C.twoPower + y) ≤ 1)
    (hi : 0 < i) (hl : Level C.twoPower i h l r) (hj : j < c i)
    (hsame : ∀ m, i ≤ m → C.freeCnt m = c m) (hf : h < f) :
    ∃ c' y, rankLoop f C i j = .ok (C.withCounts c', C.twoPower + y) ∧
      RankedFree c C.twoPower l r j y ∧ Above i (C.twoPower + y) ∧
      SteppedBelow decr16 (C.twoPower + y) (i / 2) C.freeCnt c' := by
  induction h generalizing C i j l r f with
  | zero =>
    obtain ⟨f, rfl⟩ := Nat.exists_eq_succ_of_ne_zero (by omega : f ≠ 0)
    obtain ⟨rfl, rfl⟩ := hl.leaf
    have hone := hleaf l
    have hcnt : C.freeCnt (C.twoPower + l) = 1 := by
      rw [hsame _ le_rfl]
      omega
    have hassert : assertBuffer ((C.decr (C.twoPower + l)).freeCnt (C.twoPower + l) = 0) = .ok () := by
      refine if_pos ?_
      simp only [decr, Function.update_self, hcnt]
      rfl
    refine ⟨(C.decr (C.twoPower + l)).freeCnt, l, ?_, ⟨le_rfl, by omega, by omega, ?_⟩,
      above_self hi, .of_node hi (above_self hi) .refl⟩
    · simp only [rankLoop, hassert, show ¬ C.twoPower + l < C.twoPower by omega, if_false]
      rfl
    · rw [Finset.Ico_self, Finset.sum_empty]
      omega
  | succ h ih =>
    obtain ⟨f, rfl⟩ := Nat.exists_eq_succ_of_ne_zero (by omega : f ≠ 0)
    have hin := hl.inner
    have hsum := hc i hi hin
    have hmid := hl.lt
    have hsame' (m : ℕ) (hm : i < m) : (C.decr i).freeCnt m = c m := by
      rw [← hsame m hm.le]
      exact Function.update_of_ne hm.ne' ..
    rw [rankLoop, if_pos hin]
    simp only [hsame' (2 * i) (by omega)]
    by_cases hle : c (2 * i) ≤ j
    · rw [if_pos hle]
      obtain ⟨c', y, hrun, hranked, habove, hs⟩ := ih (C := C.decr i) hc hleaf (by omega)
        hl.right (j := j - c (2 * i)) (by omega) (fun m hm => hsame' m (by omega)) (f := f)
        (by omega)
      have hhalf : (2 * i + 1) / 2 = i := by omega
      rw [hhalf] at hs
      refine ⟨c', y, hrun, ⟨?_, hranked.lt, hranked.free, ?_⟩, (above_right hi).trans habove,
        .of_node hi ((above_right hi).trans habove) hs⟩
      · have := hranked.le
        omega
      · have hrank : ∑ z ∈ Finset.Ico ((l + r) / 2) y, c (C.twoPower + z) = j - c (2 * i) :=
          hranked.rank
        rw [← Finset.sum_Ico_consecutive _ (by omega : l ≤ (l + r) / 2) hranked.le, hrank, ← hc.level_sum (by omega) hl.left]
        omega
    · rw [if_neg hle]
      obtain ⟨c', y, hrun, hranked, habove, hs⟩ := ih (C := C.decr i) hc hleaf (by omega)
        hl.left (j := j) (by omega) (fun m hm => hsame' m (by omega)) (f := f) (by omega)
      have hhalf : 2 * i / 2 = i := by omega
      rw [hhalf] at hs
      refine ⟨c', y, hrun, ⟨hranked.le, ?_, hranked.free, hranked.rank⟩,
        (above_left hi).trans habove, .of_node hi ((above_left hi).trans habove) hs⟩
      have := hranked.lt
      omega

/-! ### Behind a neighbour -/

/-- Once the neighbour is to the left, the loop goes down to the first free buffer. -/
theorem nearLoop_passed (hc : IsSum C.twoPower C.freeCnt) (hi : 0 < i)
    (hl : Level C.twoPower i h l r) (hpos : C.freeCnt i ≠ 0) (hx : x < l) (hf : h < f) :
    ∃ y, nearLoop x f C i j l r = .ok (C, C.twoPower + y, 0) ∧
      FirstFree C.freeCnt C.twoPower l r y := by
  induction h generalizing i j l r f with
  | zero =>
    obtain ⟨f, rfl⟩ := Nat.exists_eq_succ_of_ne_zero (by omega : f ≠ 0)
    obtain ⟨rfl, rfl⟩ := hl.leaf
    refine ⟨l, ?_, ⟨le_rfl, by omega, hpos, fun z hz hzl => by omega⟩⟩
    rw [nearLoop, if_neg (by omega)]
  | succ h ih =>
    obtain ⟨f, rfl⟩ := Nat.exists_eq_succ_of_ne_zero (by omega : f ≠ 0)
    have hin := hl.inner
    have hsum := hc i hi hin
    have hlt := hl.lt
    rw [nearLoop, if_pos hin]
    simp only [show x < (l + r) / 2 by omega, if_true]
    by_cases hleft : 0 < C.freeCnt (2 * i)
    · rw [if_pos hleft]
      obtain ⟨y, hrun, hfirst⟩ := ih (by omega) hl.left (by omega) hx (f := f) (by omega)
        (j := if 0 < C.freeCnt (2 * i + 1) then 2 * i + 1 else j)
      have := hfirst.lt
      exact ⟨y, hrun, hfirst.le, by omega, hfirst.free, hfirst.first⟩
    · rw [if_neg hleft]
      obtain ⟨y, hrun, hfirst⟩ := ih (by omega) hl.right (by omega) (by omega : x < (l + r) / 2)
        (f := f) (by omega) (j := j)
      have := hfirst.le
      refine ⟨y, hrun, by omega, hfirst.lt, hfirst.free, fun z hz hzy => ?_⟩
      by_cases hzm : z < (l + r) / 2
      · exact (hc.level_eq_zero_iff (by omega) hl.left).mp (by omega) z hz hzm
      · exact hfirst.first z (by omega) hzy

/-- What the node `j` is good for, from `r` on: it stands over the first free buffers there, or
nothing is free there and it is the root. -/
def FallsBack (c : ℕ → ℕ) (n j r : ℕ) : Prop :=
  0 < j ∧ c j ≠ 0 ∧ ∃ hj lj rj, Level n j hj lj rj ∧ hj ≤ n ∧
    ((r ≤ lj ∧ ∀ z, r ≤ z → z < lj → c (n + z) = 0) ∨
      (lj = 0 ∧ rj = n ∧ ∀ z, r ≤ z → z < n → c (n + z) = 0))

/-- **The loop ends at the next free buffer behind the neighbour.**  Where it falls back, the
counts below the node it falls back to are lowered. -/
theorem nearLoop_towards (hc : IsSum C.twoPower C.freeCnt) (hi : 0 < i)
    (hl : Level C.twoPower i h l r) (hpos : C.freeCnt i ≠ 0) (hlx : l ≤ x) (hxr : x < r)
    (hused : C.freeCnt (C.twoPower + x) = 0) (hj : FallsBack C.freeCnt C.twoPower j r)
    (hf : h < f) :
    ∃ c k y, nearLoop x f C i j l r = .ok (C.withCounts c, C.twoPower + y, k) ∧
      NextFree C.freeCnt C.twoPower x y ∧ y < C.twoPower ∧
      Above (if k = 0 then C.twoPower + y else k) (C.twoPower + y) ∧
      SteppedBelow decr16 (C.twoPower + y) (if k = 0 then C.twoPower + y else k) C.freeCnt c := by
  induction h generalizing i j l r f with
  | zero =>
    obtain ⟨rfl, rfl⟩ := hl.leaf
    obtain rfl : x = l := by omega
    exact absurd hused hpos
  | succ h ih =>
    obtain ⟨f, rfl⟩ := Nat.exists_eq_succ_of_ne_zero (by omega : f ≠ 0)
    have hin := hl.inner
    have hsum := hc i hi hin
    have hlt := hl.lt
    have hle := hl.le
    rw [nearLoop, if_pos hin]
    simp only
    by_cases hxm : x < (l + r) / 2
    · rw [if_pos hxm]
      by_cases hleft : 0 < C.freeCnt (2 * i)
      · -- to the left; the right child is what to fall back to if it has a free buffer
        rw [if_pos hleft]
        refine ih (by omega) hl.left (by omega) hlx hxm ?_ (by omega)
        by_cases hright : 0 < C.freeCnt (2 * i + 1)
        · rw [if_pos hright]
          refine ⟨by omega, by omega, h, _, _, hl.right, ?_, .inl ⟨le_rfl, fun z hz hzl => by omega⟩⟩
          have hlog : h < 2 ^ h := Nat.lt_two_pow_self
          have hstop := hl.right.stop
          have hmul : 2 ^ h ≤ (2 * i + 1 + 1) * 2 ^ h := Nat.le_mul_of_pos_left _ (by omega)
          have hmul2 : 2 * 2 ^ h ≤ (2 * i + 1 + 1) * 2 ^ h := Nat.mul_le_mul_right _ (by omega)
          omega
        · rw [if_neg hright]
          have hnone := (hc.level_eq_zero_iff (by omega) hl.right).mp (by omega)
          obtain ⟨hj0, hcj, hh, lj, rj, hlj, hhj, hcase⟩ := hj
          refine ⟨hj0, hcj, hh, lj, rj, hlj, hhj, ?_⟩
          rcases hcase with ⟨hrl, hbetween⟩ | ⟨hlj0, hrj, hbehind⟩
          · refine .inl ⟨by omega, fun z hz hzl => ?_⟩
            by_cases hzr : z < r
            · exact hnone z hz hzr
            · exact hbetween z (by omega) hzl
          · refine .inr ⟨hlj0, hrj, fun z hz hzn => ?_⟩
            by_cases hzr : z < r
            · exact hnone z hz hzr
            · exact hbehind z (by omega) hzn
      · -- nothing is free on the left: the neighbour is passed
        rw [if_neg hleft]
        obtain ⟨y, hrun, hfirst⟩ := nearLoop_passed (j := j) (f := f) hc (by omega) hl.right
          (by omega) hxm (by omega)
        have hnone := (hc.level_eq_zero_iff (by omega) hl.left).mp (by omega)
        have h1 := hfirst.le
        have h2 := hfirst.lt
        refine ⟨C.freeCnt, 0, y, hrun, .inl ⟨by omega, by omega, hfirst.free, fun z hz hzy => ?_⟩,
          by omega, ?_, ?_⟩
        · by_cases hzm : z < (l + r) / 2
          · exact hnone z (by omega) hzm
          · exact hfirst.first z (by omega) hzy
        · rw [if_pos rfl]
          exact above_self (by omega)
        · rw [if_pos rfl]
          exact .refl
    · rw [if_neg hxm]
      by_cases hright : 0 < C.freeCnt (2 * i + 1)
      · rw [if_pos hright]
        exact ih (by omega) hl.right (by omega) (by omega) hxr hj (by omega)
      · -- nothing is free on the right: back to `j`
        rw [if_neg hright]
        have hnone := (hc.level_eq_zero_iff (by omega) hl.right).mp (by omega)
        obtain ⟨hj0, hcj, hh, lj, rj, hlj, hhj, hcase⟩ := hj
        obtain ⟨c, y, hrun, hfirst, habove, hs⟩ := descendFirst_spec (f := C.twoPower + 1) hc hj0
          hlj hcj (fun _ _ => rfl) (by omega)
        have h1 := hfirst.le
        have h2 := hfirst.lt
        have h3 := hlj.le
        refine ⟨c, j, y, ?_, ?_, by omega, ?_, ?_⟩
        · rw [hrun]
          rfl
        · rcases hcase with ⟨hrl, hbetween⟩ | ⟨hlj0, hrj, hbehind⟩
          · refine .inl ⟨by omega, by omega, hfirst.free, fun z hz hzy => ?_⟩
            by_cases hzr : z < r
            · exact hnone z (by omega) hzr
            · by_cases hzl : z < lj
              · exact hbetween z (by omega) hzl
              · exact hfirst.first z (by omega) hzy
          · refine .inr ⟨fun z hz hzn => ?_, hlj0 ▸ hrj ▸ hfirst⟩
            by_cases hzr : z < r
            · exact hnone z (by omega) hzr
            · exact hbehind z (by omega) hzn
        · rw [if_neg hj0.ne']
          exact habove
        · rw [if_neg hj0.ne']
          exact hs

/-! ### The calls -/

/-- **A buffer near another is the next free one behind it**, and the counts are lowered. -/
theorem takeNeighbor_spec (hC : C.Cut) (hc : C.Counts) (hx : x < C.totBuffers)
    (hused : C.freeCnt (C.twoPower + x) = 0) (hpos : C.freeCnt 1 ≠ 0) :
    ∃ c y, C.takeNeighbor x = .ok (C.withCounts c, C.twoPower + y) ∧ y < C.twoPower ∧
      NextFree C.freeCnt C.twoPower x y ∧ Stepped decr16 (C.twoPower + y) C.freeCnt c := by
  obtain ⟨k, hk⟩ := hC.leaves
  have hlevel : Level C.twoPower 1 k 0 C.twoPower := hk ▸ Level.root k
  have hkn : k < C.twoPower := hk ▸ Nat.lt_two_pow_self
  have hfits := hC.fits
  by_cases hnext : x < C.twoPower - 1 ∧ C.freeCnt (C.twoPower + x + 1) ≠ 0
  · obtain ⟨c, hclimb, hs⟩ := climb_spec (C := C) (k := C.twoPower + x + 1)
      (f := 2 * C.twoPower + 1) (by omega)
    refine ⟨c, x + 1, ?_, by omega, .inl ⟨le_rfl, by omega, hnext.2, fun z hz hzy => by omega⟩, hs⟩
    have hcall : C.takeNeighbor x = (climb (2 * C.twoPower + 1) C (C.twoPower + x + 1)).bind
        fun C' => .ok (C', C.twoPower + x + 1) := by
      rw [takeNeighbor, if_pos hnext]
      rfl
    rw [hcall, hclimb]
    rfl
  · obtain ⟨c, kk, y, hrun, hfree, hy, habove, hbelow⟩ := nearLoop_towards
      (f := C.twoPower + 1) (j := 1) hc.sums Nat.one_pos hlevel hpos (Nat.zero_le x) (by omega)
      hused ⟨Nat.one_pos, hpos, k, 0, C.twoPower, hlevel, hkn.le,
        .inr ⟨rfl, rfl, fun z hz hzn => by omega⟩⟩ (by omega)
    have hle := habove.le
    obtain ⟨c', hclimb, hs⟩ := climb_spec (C := C.withCounts c)
      (k := if kk = 0 then C.twoPower + y else kk) (f := 2 * C.twoPower + 1) (by omega)
    refine ⟨c', y, ?_, hy, hfree, .of_below hbelow hs habove⟩
    have hcall : C.takeNeighbor x =
        (climb (2 * C.twoPower + 1) (C.withCounts c) (if kk = 0 then C.twoPower + y else kk)).bind
          fun C' => .ok (C', C.twoPower + y) := by
      rw [takeNeighbor, if_neg hnext, hrun]
      rfl
    rw [hcall, hclimb]
    rfl

/-- **A buffer taken by a draw is the free one with that many before it.** -/
theorem takeRank_spec (hC : C.Cut) (hc : C.Counts) {draw : ℕ} (hdraw : draw < 2 ^ 31)
    (hpos : C.freeCnt 1 ≠ 0) :
    ∃ c y, C.takeRank draw = .ok (C.withCounts c, C.twoPower + y) ∧ y < C.twoPower ∧
      RankedFree C.freeCnt C.twoPower 0 C.twoPower (draw * min (C.freeCnt 1) 16 / 2 ^ 31) y ∧
      Stepped decr16 (C.twoPower + y) C.freeCnt c := by
  obtain ⟨k, hk⟩ := hC.leaves
  have hlevel : Level C.twoPower 1 k 0 C.twoPower := hk ▸ Level.root k
  have hkn : k < C.twoPower := hk ▸ Nat.lt_two_pow_self
  have hmin : (if C.freeCnt 1 < 16 then C.freeCnt 1 else 16) = min (C.freeCnt 1) 16 := by
    split_ifs <;> omega
  have hj : draw * min (C.freeCnt 1) 16 / 2 ^ 31 < C.freeCnt 1 := by
    refine (Nat.div_lt_iff_lt_mul (by omega)).mpr ?_
    calc draw * min (C.freeCnt 1) 16 ≤ draw * C.freeCnt 1 :=
          Nat.mul_le_mul_left _ (Nat.min_le_left _ _)
      _ < 2 ^ 31 * C.freeCnt 1 := Nat.mul_lt_mul_of_pos_right hdraw (Nat.pos_of_ne_zero hpos)
      _ = C.freeCnt 1 * 2 ^ 31 := Nat.mul_comm _ _
  obtain ⟨c, y, hrun, hranked, -, hs⟩ := rankLoop_spec (f := C.twoPower + 1) hc.sums hc.leaf
    Nat.one_pos hlevel hj (fun _ _ => rfl) (by omega)
  refine ⟨c, y, ?_, hranked.lt, hranked, ?_⟩
  · have hassert : assertBuffer (draw * min (C.freeCnt 1) 16 / 2 ^ 31 < C.freeCnt 1) = .ok () :=
      if_pos hj
    simp only [takeRank, hmin, hassert]
    exact hrun
  · exact SteppedBelow.stepped hs

/-- **`free_std_msg_buffer` gives a buffer back** that was taken. -/
theorem freeStdMsgBuffer_spec (hC : C.Cut) (hc : C.Counts) (hx : x < C.totBuffers)
    (hused : C.freeCnt (C.twoPower + x) = 0) :
    ∃ c, C.freeStdMsgBuffer (C.bufferAt x) = .ok (C.withCounts c) ∧
      Stepped (· + 1) (C.twoPower + x) C.freeCnt c := by
  have hfits := hC.fits
  have hlt (i : ℕ) (hi : Above i (C.twoPower + x)) : C.freeCnt i < 65535 := by
    have hle := hi.le
    have hroot := hc.root_lt hC hx hused
    have := hc.sums.le_root (n := C.twoPower) hi.1 (by omega)
    omega
  obtain ⟨c, hrun, hs⟩ := climbBack_spec (C := C) (k := C.twoPower + x) (f := 2 * C.twoPower)
    (by omega) (by omega) hlt
  refine ⟨c, ?_, hs.congr fun i hi => ?_⟩
  · have hassert : assertBuffer (C.freeCnt (C.twoPower + x) = 0) = .ok () := if_pos hused
    have hcall : C.freeStdMsgBuffer (C.bufferAt x) =
        (assertBuffer (C.freeCnt (C.twoPower + x) = 0)).bind
          fun _ => climbBack (2 * C.twoPower) C (C.twoPower + x) := by
      rw [freeStdMsgBuffer, hC.getBufferNo_bufferAt hx.le, Nat.add_comm C.twoPower]
      rfl
    rw [hcall, hassert]
    exact hrun
  · have := hlt i hi
    unfold incr16
    omega

end BufferChunk

end Server
end Teleproto3
