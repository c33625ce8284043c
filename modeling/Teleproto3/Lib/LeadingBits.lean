/-
# Strings of bits with the same beginning

An address is read from its most significant bit on, and a block of addresses is those that agree
with one of them on the first so many bits.  `AgreeTo` is that agreement, for bits given as a
function of their position; `BitVec.getMsbD` is such a function for a machine word, and `bitAt`
for a string of bytes.

A mask keeps the first bits of a word: two words agree on them exactly if they are equal under the
mask (`agreeTo_iff_and`), and a string of bytes can be compared byte by byte
(`agreeTo_iff_bytes`).
-/

import Teleproto3.Lib.Memory

namespace Teleproto3
namespace Lib

/-- The first `n` bits are the same. -/
def AgreeTo (n : ℕ) (f g : ℕ → Bool) : Prop := ∀ i < n, f i = g i

section Agree

variable {n : ℕ} {f g h : ℕ → Bool}

theorem AgreeTo.symm (hfg : AgreeTo n f g) : AgreeTo n g f := fun i hi => (hfg i hi).symm

theorem AgreeTo.trans (hfg : AgreeTo n f g) (hgh : AgreeTo n g h) : AgreeTo n f h :=
  fun i hi => (hfg i hi).trans (hgh i hi)

/-- What agrees with one of two strings that agree agrees with the other. -/
theorem AgreeTo.congr_right (hgh : AgreeTo n g h) : AgreeTo n f g ↔ AgreeTo n f h :=
  ⟨fun hfg => hfg.trans hgh, fun hfh => hfh.trans hgh.symm⟩

end Agree

/-! ### Words -/

section Words

variable {w : ℕ}

/-- The word whose first `n` bits are set. -/
def leadingMask (w n : ℕ) : BitVec w := BitVec.allOnes w <<< (w - n)

theorem getMsbD_leadingMask {n : ℕ} (hn : n ≤ w) (i : ℕ) :
    (leadingMask w n).getMsbD i = decide (i < n) := by
  unfold leadingMask
  by_cases hi : i < n
  · simp [hi]
    omega
  · simp [hi]
    omega

/-- What a mask leaves. -/
theorem getMsbD_and_leadingMask {n : ℕ} (hn : n ≤ w) (x : BitVec w) (i : ℕ) :
    (x &&& leadingMask w n).getMsbD i = (x.getMsbD i && decide (i < n)) := by
  rw [BitVec.getMsbD_and, getMsbD_leadingMask hn]

/-- **Words agree on their first bits if they are equal under the mask.** -/
theorem agreeTo_iff_and {n : ℕ} (hn : n ≤ w) (x y : BitVec w) :
    AgreeTo n x.getMsbD y.getMsbD ↔ x &&& leadingMask w n = y &&& leadingMask w n := by
  constructor
  · intro h
    refine BitVec.eq_of_getMsbD_eq fun i _ => ?_
    rw [getMsbD_and_leadingMask hn, getMsbD_and_leadingMask hn]
    by_cases hlt : i < n
    · rw [h i hlt]
    · simp [hlt]
  · intro h i hi
    have hbit := congrArg (fun z => BitVec.getMsbD z i) h
    simpa [getMsbD_and_leadingMask hn, hi] using hbit

/-- A word agrees with what the mask leaves of it. -/
theorem agreeTo_and {n : ℕ} (hn : n ≤ w) (x : BitVec w) :
    AgreeTo n (x &&& leadingMask w n).getMsbD x.getMsbD := by
  intro i hi
  rw [getMsbD_and_leadingMask hn]
  simp [hi]

@[simp] theorem leadingMask_zero : leadingMask w 0 = 0#w := by
  refine BitVec.eq_of_getMsbD_eq fun i _ => ?_
  rw [getMsbD_leadingMask (Nat.zero_le w)]
  simp

@[simp] theorem leadingMask_self : leadingMask w w = BitVec.allOnes w := by
  unfold leadingMask
  simp

end Words

/-! ### Strings of bytes -/

/-- The bit at a position of a string of bytes. -/
def bitAt (bs : Bytes) (i : ℕ) : Bool := (bs.getD (i / 8) 0).toBitVec.getMsbD (i % 8)

/-- **Strings of bytes agree on their first bits if each byte does** on those of them that are in
it. -/
theorem agreeTo_iff_bytes {n : ℕ} (xs ys : Bytes) :
    AgreeTo n (bitAt xs) (bitAt ys) ↔ ∀ k, AgreeTo (min 8 (n - k * 8))
      (xs.getD k 0).toBitVec.getMsbD (ys.getD k 0).toBitVec.getMsbD := by
  constructor
  · intro h k j hj
    have hbit := h (k * 8 + j) (by omega)
    have hdiv : (k * 8 + j) / 8 = k := by omega
    have hmod : (k * 8 + j) % 8 = j := by omega
    unfold bitAt at hbit
    rw [hdiv, hmod] at hbit
    exact hbit
  · intro h i hi
    exact h (i / 8) (i % 8) (by omega)

end Lib
end Teleproto3
