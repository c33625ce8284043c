/-
# How a chunk is cut

`BufferChunk.Cut address C` is what `alloc_new_msg_buffers_chunk` makes of a block of memory: a
power of two of leaves, no fewer than there are buffers, and behind the counts the buffers, which
end before the block does (`allocNewMsgBuffersChunk_cut`).

A pointer is turned back into the number of its buffer by a shift and a product with the inverse
of the odd part of the size, modulo `2 ^ 32`, which is exact (`BufferChunk.Cut.getBufferNo_bufferAt`).
-/

import Mathlib.Algebra.Order.Ring.Int
import Mathlib.Data.BitVec
import Mathlib.Data.Nat.Factorization.Basic
import Mathlib.Tactic.Linarith
import Mathlib.Tactic.Ring
import Teleproto3.Lib.CountTree
import Teleproto3.Lib.Stage
import Teleproto3.Server.BufferChunks

namespace Teleproto3
namespace Server

open Lib

/-! ### The shift and the inverse -/

/-- `ctz` finds the lowest bit. -/
theorem ctz_spec {x : ℕ} (h0 : 0 < x) (hx : x < 2 ^ 32) :
    ∃ q, x = 2 ^ ctz x * (2 * q + 1) := by
  obtain ⟨k, o, ho, rfl⟩ := Nat.exists_eq_two_pow_mul_odd h0.ne'
  obtain ⟨q, rfl⟩ := ho
  have hle : 2 ^ k ≤ 2 ^ k * (2 * q + 1) := Nat.le_mul_of_pos_right _ (by omega)
  have hk : k < 32 := (Nat.pow_lt_pow_iff_right (by omega)).mp (lt_of_le_of_lt hle hx)
  have hbit (j : ℕ) : (2 ^ k * (2 * q + 1)).testBit j =
      (decide (k ≤ j) && (2 * q + 1).testBit (j - k)) := Nat.testBit_two_pow_mul ..
  have hctz : ctz (2 ^ k * (2 * q + 1)) = k := by
    have hfind : (List.range 32).find? ((2 ^ k * (2 * q + 1)).testBit ·) = some k := by
      refine List.find?_range_eq_some.mpr ⟨?_, List.mem_range.mpr hk, fun j hj => ?_⟩
      · rw [hbit, Nat.sub_self, Nat.testBit_zero]
        simp
      · rw [hbit]
        simp [hj]
    rw [ctz, hfind, Option.getD_some]
  rw [hctz]
  exact ⟨q, rfl⟩

/-- The product the loop builds up inverts `1 - x`, as `x` is even. -/
theorem bsInverseLoop_spec {m k f : ℕ} {x y w : BitVec 32} (hx : x = 2 ^ k * w)
    (hk : 32 ≤ k * 2 ^ m) (hf : m < f) :
    ∃ z, bsInverseLoop f x y = .ok (y * z) ∧ (1 - x) * z = 1 := by
  induction m generalizing k f x y w with
  | zero =>
    obtain ⟨f, rfl⟩ := Nat.exists_eq_add_of_lt hf
    rw [pow_zero, mul_one] at hk
    have hzero : x = 0 := by
      obtain ⟨d, rfl⟩ := Nat.exists_eq_add_of_le hk
      have h32 : (2 : BitVec 32) ^ 32 = 0 := by decide
      rw [hx, pow_add, h32, zero_mul, zero_mul]
    refine ⟨1, ?_, ?_⟩
    · rw [bsInverseLoop, if_pos hzero, mul_one]
    · rw [hzero, sub_zero, mul_one]
  | succ m ih =>
    obtain ⟨f, rfl⟩ := Nat.exists_eq_succ_of_ne_zero (by omega : f ≠ 0)
    by_cases hzero : x = 0
    · refine ⟨1, ?_, ?_⟩
      · rw [bsInverseLoop, if_pos hzero, mul_one]
      · rw [hzero, sub_zero, mul_one]
    · have hsq : x * x = 2 ^ (2 * k) * (w * w) := by
        rw [hx]
        ring
      have hk' : 32 ≤ 2 * k * 2 ^ m := by
        rw [pow_succ] at hk
        linarith
      obtain ⟨z, hz, hinv⟩ := ih (f := f) (y := y * (1 + x)) hsq hk' (by omega)
      refine ⟨(1 + x) * z, ?_, ?_⟩
      · rw [bsInverseLoop, if_neg hzero, hz, mul_assoc]
      · calc (1 - x) * ((1 + x) * z) = (1 - x * x) * z := by ring
          _ = 1 := hinv

/-- **`prepare_bs_inv` inverts the odd part of the size.** -/
theorem prepareBsInv_spec {size : ℕ} (hsize : size + 16 < 2 ^ 31) :
    ∃ q inv, size + 16 = 2 ^ ctz (size + 16) * (2 * q + 1) ∧
      prepareBsInv size = .ok (inv, ctz (size + 16)) ∧
      BitVec.ofNat 32 (2 * q + 1) * inv = 1 := by
  obtain ⟨q, hq⟩ := ctz_spec (x := size + 16) (by omega) (by omega)
  set c := ctz (size + 16) with hc
  have hnat : (BitVec.ofNat 32 (size + 16)).toNat = size + 16 := by
    rw [BitVec.toNat_ofNat]
    omega
  have hshift : (BitVec.ofNat 32 (size + 16)).sshiftRight c = BitVec.ofNat 32 (2 * q + 1) := by
    have hmsb : (BitVec.ofNat 32 (size + 16)).msb = false := by
      rw [BitVec.msb_eq_false_iff_two_mul_lt, hnat]
      omega
    rw [BitVec.sshiftRight_eq_of_msb_false hmsb]
    refine BitVec.eq_of_toNat_eq ?_
    have hdiv : (size + 16) / 2 ^ c = 2 * q + 1 := by
      conv_lhs => rw [hq]
      exact Nat.mul_div_cancel_left _ (Nat.two_pow_pos c)
    have hle : (size + 16) / 2 ^ c ≤ size + 16 := Nat.div_le_self _ _
    rw [BitVec.toNat_ushiftRight, hnat, Nat.shiftRight_eq_div_pow, hdiv, BitVec.toNat_ofNat]
    omega
  have heven : 1 - BitVec.ofNat 32 (2 * q + 1) = 2 ^ 1 * -BitVec.ofNat 32 q := by
    have hodd : BitVec.ofNat 32 (2 * q + 1) = 2 * BitVec.ofNat 32 q + 1 := by
      refine BitVec.eq_of_toNat_eq ?_
      simp [BitVec.toNat_add, BitVec.toNat_mul]
    rw [hodd]
    ring
  obtain ⟨z, hz, hinv⟩ := bsInverseLoop_spec (m := 5) (k := 1) (f := 32) (y := 1) heven
    (by omega) (by omega)
  refine ⟨q, z, hq, ?_, ?_⟩
  · rw [one_mul] at hz
    simp only [prepareBsInv, hnat, ← hc, hshift, hz]
    rfl
  · rw [sub_sub_cancel] at hinv
    exact hinv

/-! ### The block of memory -/

/-- `two_power` is a power of two above `t`. -/
theorem twoPowerLoop_spec {t f k : ℕ} (h : t < 2 ^ (k + f)) :
    ∃ m, twoPowerLoop t f (2 ^ k) = 2 ^ m ∧ t < 2 ^ m ∧ (m = k ∨ 2 ^ m ≤ 2 * t) := by
  induction f generalizing k with
  | zero => exact ⟨k, rfl, h, .inl rfl⟩
  | succ f ih =>
    rw [twoPowerLoop]
    by_cases hle : 2 ^ k ≤ t
    · rw [if_pos hle, ← pow_succ']
      obtain ⟨m, hm, hlt, hbound⟩ := ih (k := k + 1) (by rwa [add_assoc, add_comm 1])
      refine ⟨m, hm, hlt, .inr ?_⟩
      rcases hbound with rfl | hbound
      · rw [pow_succ]
        omega
      · exact hbound
    · rw [if_neg hle]
      exact ⟨k, rfl, by omega, .inl rfl⟩

/-- The lowest bit of a number, taken by `x & -x`. -/
theorem and_neg_eq {k q w : ℕ} (h : 2 ^ k * (2 * q + 1) < 2 ^ w) :
    (2 ^ k * (2 * q + 1)) &&& (2 ^ w - 2 ^ k * (2 * q + 1)) = 2 ^ k := by
  have hle : 2 ^ k ≤ 2 ^ k * (2 * q + 1) := Nat.le_mul_of_pos_right _ (by omega)
  have hkw : k < w := (Nat.pow_lt_pow_iff_right (by omega)).mp (lt_of_le_of_lt hle h)
  obtain ⟨d, rfl⟩ := Nat.exists_eq_add_of_lt hkw
  rw [add_assoc, pow_add, ← Nat.mul_sub] at *
  have hq : 2 * q + 1 < 2 ^ (d + 1) := Nat.lt_of_mul_lt_mul_left h
  refine Nat.eq_of_testBit_eq fun j => ?_
  rw [Nat.testBit_and, Nat.testBit_two_pow_mul, Nat.testBit_two_pow_mul, Nat.testBit_two_pow,
    Nat.testBit_two_pow_sub_succ (by omega : 2 * q < 2 ^ (d + 1))]
  rcases Nat.lt_trichotomy j k with hjk | rfl | hjk
  · simp [Nat.not_le.mpr hjk, hjk.ne']
  · simp
  · obtain ⟨i, rfl⟩ := Nat.exists_eq_add_of_lt hjk
    have hsub : k + i + 1 - k = i + 1 := by omega
    have hodd : (2 * q + 1).testBit (i + 1) = (2 * q).testBit (i + 1) := by
      rw [Nat.testBit_succ, Nat.testBit_succ]
      congr 1
      omega
    rw [hsub, hodd]
    simp only [show ¬ k = k + i + 1 by omega, decide_false]
    cases (2 * q).testBit (i + 1) <;> simp

/-- `align` is 8, 16, 32 or 64. -/
theorem bufferAlign_spec {hd : ℕ} (h0 : 0 < hd) (h : hd < 2 ^ 32) :
    ∃ a, bufferAlign hd = 2 ^ a ∧ 3 ≤ a ∧ a ≤ 6 := by
  obtain ⟨q, hq⟩ := ctz_spec h0 h
  have hlow : hd &&& (2 ^ 32 - hd) = 2 ^ ctz hd := by
    conv_lhs => rw [hq]
    exact and_neg_eq (hq ▸ h)
  simp only [bufferAlign, hlow]
  by_cases hlt : ctz hd < 3
  · have hpow : 2 ^ ctz hd < 2 ^ 3 := Nat.pow_lt_pow_right (by omega) hlt
    rw [if_pos (by omega : 2 ^ ctz hd < 8), if_neg (by omega)]
    exact ⟨3, rfl, by omega, by omega⟩
  · have hpow : 2 ^ 3 ≤ 2 ^ ctz hd := Nat.pow_le_pow_right (by omega) (by omega)
    rw [if_neg (by omega : ¬ 2 ^ ctz hd < 8)]
    by_cases hle : ctz hd ≤ 6
    · have hpow' : 2 ^ ctz hd ≤ 2 ^ 6 := Nat.pow_le_pow_right (by omega) hle
      rw [if_neg (by omega)]
      exact ⟨ctz hd, rfl, by omega, hle⟩
    · have hpow' : 2 ^ 7 ≤ 2 ^ ctz hd := Nat.pow_le_pow_right (by omega) (by omega)
      rw [if_pos (by omega)]
      exact ⟨6, rfl, by omega, by omega⟩

/-- `& -align` rounds down to a multiple. -/
theorem and_neg_two_pow {y a : ℕ} (hy : y < 2 ^ 64) (ha : a ≤ 64) :
    y &&& (2 ^ 64 - 2 ^ a) = y / 2 ^ a * 2 ^ a := by
  obtain ⟨d, hd⟩ := Nat.exists_eq_add_of_le ha
  have hsub : 2 ^ 64 - 2 ^ a = 2 ^ a * (2 ^ d - 1) := by
    rw [Nat.mul_sub, ← pow_add, ← hd, mul_one]
  refine Nat.eq_of_testBit_eq fun j => ?_
  rw [hsub, mul_comm (y / 2 ^ a), Nat.testBit_and, Nat.testBit_two_pow_mul,
    Nat.testBit_two_pow_mul, Nat.testBit_two_pow_sub_one, Nat.testBit_div_two_pow]
  by_cases hja : a ≤ j
  · have hj : j - a + a = j := Nat.sub_add_cancel hja
    by_cases hjd : j - a < d
    · simp [hja, hjd, hj]
    · have hbit : y.testBit j = false := by
        refine Nat.testBit_lt_two_pow (lt_of_lt_of_le hy ?_)
        exact Nat.pow_le_pow_right (by omega) (by omega)
      simp [hjd, hj, hbit]
  · simp [hja]

/-! ### The counts -/

/-- The sums are right from `i` down, once those above are. -/
theorem sumCounts_spec {n i : ℕ} {c : ℕ → ℕ} (hi : i < n)
    (hsum : ∀ j, i < j → j < n → c j = (c (2 * j) + c (2 * j + 1)) % 2 ^ 16) :
    (∀ j, 0 < j → j < n → sumCounts i c j =
      (sumCounts i c (2 * j) + sumCounts i c (2 * j + 1)) % 2 ^ 16) ∧
      ∀ j, n ≤ j → sumCounts i c j = c j := by
  induction i generalizing c with
  | zero => exact ⟨fun j hj => hsum j hj, fun _ _ => rfl⟩
  | succ i ih =>
    rw [sumCounts]
    have hstep := ih (c := Function.update c (i + 1)
      ((c (2 * (i + 1)) + c (2 * (i + 1) + 1)) % 2 ^ 16)) (by omega) ?_
    · refine ⟨hstep.1, fun j hj => ?_⟩
      rw [hstep.2 j hj, Function.update_of_ne (by omega)]
    · intro j hij hjn
      have h2 : 2 * j ≠ i + 1 := by omega
      have h3 : 2 * j + 1 ≠ i + 1 := by omega
      rw [Function.update_of_ne h2, Function.update_of_ne h3]
      by_cases hj : j = i + 1
      · rw [hj, Function.update_self]
      · rw [Function.update_of_ne hj]
        exact hsum j (by omega) hjn

/-- The part of a chunk that stays as it was cut. -/
structure BufferChunk.Cut (C : BufferChunk) : Prop where
  leaves : ∃ k, C.twoPower = 2 ^ k
  fits : 0 < C.totBuffers ∧ C.totBuffers ≤ C.twoPower ∧ C.totBuffers < 65536
  within : (C.totBuffers + 1) * (C.bufferSize + 16) < 2 ^ 32
  inverse : ∃ q, C.bufferSize + 16 = 2 ^ C.bsShift * (2 * q + 1) ∧
    BitVec.ofNat 32 (2 * q + 1) * C.bsInverse = 1

/-- **The counts of a chunk are right**: the leaf of each buffer carries 0 or 1, the others
nothing, and every other node the sum of its children. -/
structure BufferChunk.Counts (C : BufferChunk) : Prop where
  sums : IsSum C.twoPower C.freeCnt
  leaf : ∀ i, C.freeCnt (C.twoPower + i) ≤ 1
  beyond : ∀ i, C.totBuffers ≤ i → i < C.twoPower → C.freeCnt (C.twoPower + i) = 0

/-- The chunk lies in the block at an address: first its header and the counts, and behind them
the buffers. -/
structure BufferChunk.Within (C : BufferChunk) (address : ℕ) : Prop where
  counts : address + FREE_CNT_OFFSET + 4 * C.twoPower ≤ C.firstBuffer
  buffers : C.bufferAt C.totBuffers ≤ address + MSG_BUFFERS_CHUNK_SIZE

/-- What the leaves of a new chunk come to. -/
theorem newLeaves_sum {n t : ℕ} (ht : t ≤ n) :
    ∑ x ∈ Finset.Ico n (2 * n), (if n ≤ x ∧ x < n + t then 1 else 0) = t := by
  rw [← Finset.sum_filter, Finset.sum_const, smul_eq_mul, mul_one]
  have hfilter : (Finset.Ico n (2 * n)).filter (fun x => n ≤ x ∧ x < n + t) =
      Finset.Ico n (n + t) := by
    ext x
    simp only [Finset.mem_filter, Finset.mem_Ico]
    omega
  rw [hfilter, Nat.card_Ico, Nat.add_sub_cancel_left]

/-- The counts of a new chunk. -/
theorem newFreeCnt_spec {k t : ℕ} (ht : t ≤ 2 ^ k) (h16 : t < 2 ^ 16) :
    IsSum (2 ^ k) (newFreeCnt (2 ^ k) t) ∧
      ∀ i, 2 ^ k ≤ i → newFreeCnt (2 ^ k) t i = if i < 2 ^ k + t then 1 else 0 := by
  have hpos := Nat.two_pow_pos k
  obtain ⟨hsum, hleaf⟩ := sumCounts_spec (n := 2 ^ k) (i := 2 ^ k - 1)
    (c := fun i => if 2 ^ k ≤ i ∧ i < 2 ^ k + t then 1 else 0) (by omega)
    (fun j hj hjn => absurd hjn (by omega))
  have hleaves (i : ℕ) (hi : 2 ^ k ≤ i) :
      newFreeCnt (2 ^ k) t i = if i < 2 ^ k + t then 1 else 0 := by
    rw [newFreeCnt, hleaf i hi]
    simp only [hi, true_and]
  have htot : ∑ x ∈ Finset.Ico (2 ^ k) (2 * 2 ^ k), newFreeCnt (2 ^ k) t x = t := by
    conv_rhs => rw [← newLeaves_sum ht]
    exact Finset.sum_congr rfl fun x hx => hleaf x (Finset.mem_Ico.mp hx).1
  exact ⟨IsSum.of_mod hsum (htot.trans_lt h16), hleaves⟩

/-- **A block of memory is cut** into a chunk in which every buffer is free, and the assertions
hold, for every size from 16 to a megabyte. -/
theorem allocNewMsgBuffersChunk_cut {address size : ℕ} (hlow : 16 ≤ size)
    (hhigh : size ≤ 2 ^ 20 - 16) (haddr : address + MSG_BUFFERS_CHUNK_SIZE < 2 ^ 64) :
    ∃ C, allocNewMsgBuffersChunk address size = .ok C ∧ C.bufferSize = size ∧ C.Cut ∧ C.Counts ∧
      C.Within address ∧ ∀ i < C.totBuffers, C.freeCnt (C.twoPower + i) = 1 := by
  have hsize : MSG_BUFFERS_CHUNK_SIZE = 2097088 := rfl
  have hoffset : FREE_CNT_OFFSET = 84 := rfl
  have hheader : BUFF_HD_BYTES = 16 := rfl
  obtain ⟨a, halign, ha3, ha6⟩ := bufferAlign_spec (by omega : 0 < size + 16) (by omega)
  have hpow3 : 2 ^ 3 ≤ 2 ^ a := Nat.pow_le_pow_right (by omega) ha3
  have hpow6 : 2 ^ a ≤ 2 ^ 6 := Nat.pow_le_pow_right (by omega) ha6
  -- the leaves take up less than half of the block
  set t := (MSG_BUFFERS_CHUNK_SIZE - FREE_CNT_OFFSET) / (size + 16 + 4) with ht
  have htle : t ≤ 58250 := by
    calc t ≤ (MSG_BUFFERS_CHUNK_SIZE - FREE_CNT_OFFSET) / 36 :=
          Nat.div_le_div_left (by omega) (by omega)
      _ = 58250 := by rw [hsize, hoffset]
  have hmul : t * (size + 20) ≤ MSG_BUFFERS_CHUNK_SIZE - FREE_CNT_OFFSET := Nat.div_mul_le_self _ _
  have hlt : MSG_BUFFERS_CHUNK_SIZE - FREE_CNT_OFFSET < (t + 1) * (size + 20) :=
    Nat.lt_mul_of_div_lt (Nat.lt_succ_self _) (by omega)
  obtain ⟨k, hk, htk, hbound⟩ := twoPowerLoop_spec (t := t) (f := 32) (k := 0) (by omega)
  rw [pow_zero] at hk
  have hleaves : 2 ^ k ≤ 116500 := by
    rcases hbound with rfl | hbound
    · omega
    · omega
  set n := (MSG_BUFFERS_CHUNK_SIZE - FREE_CNT_OFFSET - 2 ^ k * 4 - 2 ^ a) / (size + 16) with hn
  have hroom : 0 < n := Nat.div_pos (by omega) (by omega)
  have hnmul : n * (size + 16) ≤ MSG_BUFFERS_CHUNK_SIZE - FREE_CNT_OFFSET - 2 ^ k * 4 - 2 ^ a :=
    Nat.div_mul_le_self _ _
  have hnk : n ≤ 2 ^ k := by
    by_contra hgt
    have h1 : (2 ^ k + 1) * (size + 16) ≤ n * (size + 16) := Nat.mul_le_mul_right _ (by omega)
    have h2 : (t + 1) * (size + 20) ≤ 2 ^ k * (size + 20) := Nat.mul_le_mul_right _ (by omega)
    have h3 : (2 ^ k + 1) * (size + 16) = 2 ^ k * (size + 20) - 2 ^ k * 4 + (size + 16) := by
      have h4 : 2 ^ k * (size + 20) = 2 ^ k * (size + 16) + 2 ^ k * 4 := by ring
      rw [h4, add_mul, one_mul]
      omega
    have h5 : 2 ^ k * 4 ≤ 2 ^ k * (size + 20) := Nat.mul_le_mul_left _ (by omega)
    omega
  have hn16 : n < 65536 := by
    by_contra hge
    have h1 : 65536 * 32 ≤ n * (size + 16) := Nat.mul_le_mul (by omega) (by omega)
    omega
  -- the buffers are behind the counts, and rounded up to the alignment
  set y := address + FREE_CNT_OFFSET + 2 ^ k * 4 + 2 ^ a - 1 with hy
  have hfirst : y &&& (2 ^ 64 - 2 ^ a) = y / 2 ^ a * 2 ^ a := and_neg_two_pow (by omega) (by omega)
  have hround : y / 2 ^ a * 2 ^ a ≤ y := Nat.div_mul_le_self _ _
  have hround' : y < y / 2 ^ a * 2 ^ a + 2 ^ a := by
    have h1 := Nat.div_add_mod y (2 ^ a)
    have h2 := Nat.mod_lt y (Nat.two_pow_pos a)
    rw [mul_comm] at h1
    omega
  obtain ⟨q, inv, hq, hprep, hinv⟩ := prepareBsInv_spec (by omega : size + 16 < 2 ^ 31)
  obtain ⟨hsums, hcnt⟩ := newFreeCnt_spec hnk (by omega)
  refine ⟨⟨size, y / 2 ^ a * 2 ^ a, 2 ^ k, n, inv, ctz (size + 16), newFreeCnt (2 ^ k) n⟩, ?_, rfl,
    ⟨⟨k, rfl⟩, ⟨hroom, hnk, hn16⟩, ?_, q, hq, hinv⟩, ⟨hsums, ?_, ?_⟩, ⟨?_, ?_⟩, ?_⟩
  · have hassert : assertBuffer (0 < n ∧ n < 65536 ∧ n ≤ 2 ^ k) = .ok () :=
      if_pos ⟨hroom, hn16, hnk⟩
    have hassert' : assertBuffer
        (y / 2 ^ a * 2 ^ a + n * (size + 16) ≤ address + MSG_BUFFERS_CHUNK_SIZE) = .ok () :=
      if_pos (by omega)
    simp only [allocNewMsgBuffersChunk, hheader, halign, ← ht, hk, ← hn, ← hy, hfirst, hassert,
      hassert', hprep]
    rfl
  · show (n + 1) * (size + 16) < 2 ^ 32
    rw [add_mul, one_mul]
    omega
  · intro i
    show newFreeCnt (2 ^ k) n (2 ^ k + i) ≤ 1
    rw [hcnt _ (Nat.le_add_right _ _)]
    split_ifs <;> omega
  · intro i hi _
    show newFreeCnt (2 ^ k) n (2 ^ k + i) = 0
    have hi' : n ≤ i := hi
    rw [hcnt _ (Nat.le_add_right _ _), if_neg (by omega)]
  · show address + FREE_CNT_OFFSET + 4 * 2 ^ k ≤ y / 2 ^ a * 2 ^ a
    omega
  · show y / 2 ^ a * 2 ^ a + n * (size + 16) ≤ address + MSG_BUFFERS_CHUNK_SIZE
    omega
  · intro i hi
    show newFreeCnt (2 ^ k) n (2 ^ k + i) = 1
    have hi' : i < n := hi
    rw [hcnt _ (Nat.le_add_right _ _), if_pos (by omega)]

/-! ### From a pointer to a number -/

namespace BufferChunk.Cut

variable {C : BufferChunk}

/-- **The number of a buffer is found again.** -/
theorem getBufferNo_bufferAt (h : C.Cut) {i : ℕ} (hi : i ≤ C.totBuffers) :
    C.getBufferNo (C.bufferAt i) = .ok i := by
  obtain ⟨q, hq, hinv⟩ := h.inverse
  have hwithin := h.within
  have hmul : i * (C.bufferSize + 16) ≤ C.totBuffers * (C.bufferSize + 16) :=
    Nat.mul_le_mul_right _ hi
  rw [add_mul, one_mul] at hwithin
  have hfits := h.fits
  have hdiff : ((C.bufferAt i : ℕ) : ℤ) - C.firstBuffer = (i * (C.bufferSize + 16) : ℕ) := by
    rw [bufferAt, Nat.cast_add, add_sub_cancel_left]
  have hshift : BitVec.ofNat 32 (i * (C.bufferSize + 16)) >>> C.bsShift =
      BitVec.ofNat 32 (2 * q + 1) * BitVec.ofNat 32 i := by
    refine BitVec.eq_of_toNat_eq ?_
    have hdiv : i * (C.bufferSize + 16) / 2 ^ C.bsShift = i * (2 * q + 1) := by
      rw [hq, mul_left_comm]
      exact Nat.mul_div_cancel_left _ (Nat.two_pow_pos _)
    rw [BitVec.toNat_ushiftRight, BitVec.toNat_ofNat, Nat.mod_eq_of_lt (by omega),
      Nat.shiftRight_eq_div_pow, hdiv, BitVec.toNat_mul, BitVec.toNat_ofNat, BitVec.toNat_ofNat,
      ← Nat.mul_mod, mul_comm (2 * q + 1), Nat.mod_eq_of_lt]
    rw [← hdiv]
    exact lt_of_le_of_lt (Nat.div_le_self _ _) (by omega)
  have hno : BitVec.ofNat 32 (2 * q + 1) * BitVec.ofNat 32 i * C.bsInverse = BitVec.ofNat 32 i := by
    rw [mul_right_comm, hinv, one_mul]
  have hnat : (BitVec.ofNat 32 i).toNat = i := by
    rw [BitVec.toNat_ofNat]
    omega
  have hback : (BitVec.ofNat 32 (C.bufferSize + 16) * BitVec.ofNat 32 i).toNat =
      i * (C.bufferSize + 16) := by
    rw [BitVec.toNat_mul, BitVec.toNat_ofNat, BitVec.toNat_ofNat, ← Nat.mul_mod, mul_comm]
    exact Nat.mod_eq_of_lt (by omega)
  have hassert : assertBuffer (i ≤ C.totBuffers ∧
      C.bufferAt i = C.firstBuffer + i * (C.bufferSize + 16)) = .ok () := if_pos ⟨hi, rfl⟩
  simp only [getBufferNo, hdiff, BitVec.ofInt_natCast, hshift, hno, hnat, hback, hassert]
  rfl

end BufferChunk.Cut

end Server
end Teleproto3
