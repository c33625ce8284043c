/-
# Buffers that are not left

Code that reads a buffer whose length is an `int`, and writes cells of an array.  A read or a write
is a stage (`Lib.Stage`) that leaves the function where the place is outside, so that what a chain
of stages comes to says as well whether it kept to its buffers: `InBounds P x` is that, and that `x`
passes on what has `P`.

`Turn.ofStage` makes a turn of a loop of a stage, and `ends_loop` is the rule for such a loop.
`walkMeasure` is the measure of a loop that walks through a buffer until it is outside of it or its
position has become negative.
-/

import Teleproto3.Lib.Loop
import Teleproto3.Lib.Memory
import Teleproto3.Lib.Stage

namespace Teleproto3
namespace Lib

variable {ε α σ ρ : Type*}

/-! ### Buffers -/

/-- A buffer whose length is an `int`. -/
structure Buffer where
  bytes : Bytes
  length_lt : bytes.length < 2 ^ 31

/-- The length of a buffer. -/
def Buffer.len (b : Buffer) : ℤ := b.bytes.length

theorem Buffer.len_nonneg (b : Buffer) : 0 ≤ b.len := Int.natCast_nonneg _

theorem Buffer.len_lt (b : Buffer) : b.len < 2 ^ 31 := by
  have hlt := b.length_lt
  unfold Buffer.len
  omega

/-- The byte at a position. -/
def Buffer.byteAt (b : Buffer) (i : ℤ) : UInt8 := b.bytes.getD i.toNat 0

/-- The `n` bytes from a position on. -/
def Buffer.span (b : Buffer) (i : ℤ) (n : ℕ) : Bytes := (b.bytes.drop i.toNat).take n

/-! ### Accesses -/

/-- How a function is left early: with a result, or by an access outside of its buffers. -/
inductive Exit (ε : Type*)
  | returned (e : ε)
  | readOutside
  | writeOutside

/-- The function is left with a result. -/
def Exit.Clean : Exit ε → Prop
  | .returned _ => True
  | .readOutside => False
  | .writeOutside => False

@[simp] theorem Exit.clean_returned {e : ε} : (Exit.returned e).Clean := trivial

@[simp] theorem Exit.not_clean_readOutside : ¬ (Exit.readOutside : Exit ε).Clean := id

/-- What is passed on has `P`, and no access is outside of the buffers. -/
def InBounds (P : α → Prop) (x : Except (Exit ε) α) : Prop := Ends P Exit.Clean x

@[simp] theorem inBounds_ok {P : α → Prop} {a : α} :
    InBounds P (.ok a : Except (Exit ε) α) ↔ P a := Iff.rfl

@[simp] theorem inBounds_error {P : α → Prop} {e : Exit ε} :
    InBounds P (.error e : Except (Exit ε) α) ↔ e.Clean := Iff.rfl

/-- Stages one after the other. -/
theorem InBounds.bind {β : Type*} {P : α → Prop} {R : β → Prop} {x : Except (Exit ε) α}
    {f : α → Except (Exit ε) β} (h : InBounds P x) (hf : ∀ a, P a → InBounds R (f a)) :
    InBounds R (x.bind f) := Ends.bind h hf

/-- A check that returns. -/
theorem InBounds.unless {P : α → Prop} {x : Except (Exit ε) α} {p : Prop} [Decidable p] {e : ε}
    (h : ¬ p → InBounds P x) : InBounds P (if p then .error (.returned e) else x) :=
  Ends.ite (fun _ => trivial) h

theorem inBounds_unless_iff {P : α → Prop} {x : Except (Exit ε) α} {p : Prop} [Decidable p]
    {e : ε} : InBounds P (if p then .error (.returned e) else x) ↔ (¬ p → InBounds P x) := by
  constructor
  · intro h hp
    rw [if_neg hp] at h
    exact h
  · exact .unless

/-- Reading a byte. -/
def readByte (b : Buffer) (i : ℤ) : Except (Exit ε) UInt8 :=
  if 0 ≤ i ∧ i < b.len then .ok (b.byteAt i) else .error .readOutside

/-- Reading `n` bytes, as `memcmp` and `memcpy` do. -/
def readSpan (b : Buffer) (i : ℤ) (n : ℕ) : Except (Exit ε) Bytes :=
  if 0 ≤ i ∧ i + n ≤ b.len then .ok (b.span i n) else .error .readOutside

/-- Writing a cell of an array. -/
def writeCell (cells : List α) (i : ℕ) (a : α) : Except (Exit ε) (List α) :=
  if i < cells.length then .ok (cells.set i a) else .error .writeOutside

/-- Writing cells from the start of an array on. -/
def writeCells (cells : List α) (as : List α) : Except (Exit ε) (List α) :=
  if as.length ≤ cells.length then .ok (as ++ cells.drop as.length) else .error .writeOutside

section Reads

variable {b : Buffer} {i : ℤ}

theorem readByte_inside (h0 : 0 ≤ i) (h : i < b.len) :
    (readByte b i : Except (Exit ε) UInt8) = .ok (b.byteAt i) := if_pos ⟨h0, h⟩

theorem readByte_outside (h : ¬ (0 ≤ i ∧ i < b.len)) :
    (readByte b i : Except (Exit ε) UInt8) = .error .readOutside := if_neg h

theorem readSpan_inside {n : ℕ} (h0 : 0 ≤ i) (h : i + n ≤ b.len) :
    (readSpan b i n : Except (Exit ε) Bytes) = .ok (b.span i n) := if_pos ⟨h0, h⟩

theorem readSpan_outside {n : ℕ} (h : ¬ (0 ≤ i ∧ i + n ≤ b.len)) :
    (readSpan b i n : Except (Exit ε) Bytes) = .error .readOutside := if_neg h

end Reads

theorem Buffer.span_length {b : Buffer} {i : ℤ} {n : ℕ} (h0 : 0 ≤ i) (h : i + n ≤ b.len) :
    (b.span i n).length = n := by
  unfold Buffer.len at h
  unfold Buffer.span
  rw [List.length_take, List.length_drop]
  omega

/-- Bytes of a buffer one by one. -/
theorem Buffer.span_eq_map {b : Buffer} {i : ℤ} {n : ℕ} (h0 : 0 ≤ i) (h : i + n ≤ b.len) :
    b.span i n = (List.range n).map fun j => b.byteAt (i + (j : ℕ)) := by
  refine List.ext_getElem (by rw [Buffer.span_length h0 h]; simp) fun j hj hj' => ?_
  have hindex : (i + (j : ℕ)).toNat = i.toNat + j := by omega
  rw [Buffer.span_length h0 h] at hj
  unfold Buffer.len at h
  simp only [Buffer.span, Buffer.byteAt, List.getElem_take, List.getElem_drop, List.getElem_map,
    List.getElem_range, hindex]
  rw [List.getD_eq_getElem _ _ (by omega)]

/-- A byte of a buffer that begins with `p`. -/
theorem Buffer.byteAt_append {b : Buffer} {p t : Bytes} (hb : b.bytes = p ++ t) {i : ℤ}
    (h : i.toNat < p.length) : b.byteAt i = p.getD i.toNat 0 := by
  unfold Buffer.byteAt
  rw [hb, List.getD_append _ _ _ _ h]

/-- A byte of a buffer behind `p`. -/
theorem Buffer.byteAt_append_right {b : Buffer} {p t : Bytes} (hb : b.bytes = p ++ t) (j : ℕ) :
    b.byteAt (p.length + (j : ℕ)) = t.getD j 0 := by
  have hindex : ((p.length : ℤ) + (j : ℕ)).toNat = p.length + j := by omega
  unfold Buffer.byteAt
  rw [hindex, hb, List.getD_append_right _ _ _ _ (by omega), Nat.add_sub_cancel_left]

/-- Bytes of a buffer that begins with `p`. -/
theorem Buffer.span_append {b : Buffer} {p t : Bytes} (hb : b.bytes = p ++ t) {i : ℤ} {n : ℕ}
    (h : i.toNat + n ≤ p.length) : b.span i n = (p.drop i.toNat).take n := by
  unfold Buffer.span
  rw [hb, List.drop_append_of_le_length (by omega), List.take_append_of_le_length]
  rw [List.length_drop]
  omega

theorem inBounds_writeCells {cells as : List α} (h : as.length ≤ cells.length) :
    InBounds (fun _ => True) (writeCells cells as : Except (Exit ε) (List α)) := by
  unfold writeCells
  rw [if_pos h]
  trivial

/-! ### Loops of stages -/

/-- A turn of a loop as a stage: to leave the function is to leave the loop. -/
def Turn.ofStage : Except ε (Turn σ ρ) → Turn σ (Except ε ρ)
  | .error e => .done (.error e)
  | .ok (.again s) => .again s
  | .ok (.done r) => .done (.ok r)

theorem Turn.ofStage_eq_again {x : Except ε (Turn σ ρ)} {s : σ} :
    Turn.ofStage x = .again s ↔ x = .ok (.again s) := by
  cases x with
  | error e => simp [Turn.ofStage]
  | ok t => cases t <;> simp [Turn.ofStage]

/-- A turn that is taken meets `I`, a result meets `P`. -/
def Turn.Meets (I : σ → Prop) (P : ρ → Prop) : Turn σ ρ → Prop
  | .again s => I s
  | .done r => P r

@[simp] theorem Turn.meets_again {I : σ → Prop} {P : ρ → Prop} {s : σ} :
    (Turn.again s : Turn σ ρ).Meets I P ↔ I s := Iff.rfl

@[simp] theorem Turn.meets_done {I : σ → Prop} {P : ρ → Prop} {r : ρ} :
    (Turn.done r : Turn σ ρ).Meets I P ↔ P r := Iff.rfl

/-- **The rule for a loop of stages**: what each stage keeps, the loop comes to. -/
theorem ends_loop {stage : σ → Except ε (Turn σ ρ)} {μ : σ → ℕ}
    (hμ : Shrinks (fun s => .ofStage (stage s)) μ) {I : σ → Prop} {P : ρ → Prop} {Q : ε → Prop}
    (hstage : ∀ s, I s → Ends (Turn.Meets I P) Q (stage s)) {s : σ} (h0 : I s) :
    Ends P Q (loop _ μ hμ s) := by
  refine loop_inv (I := I) (Q := Ends P Q) hμ (fun s s' hs hb => ?_) (fun s r hs hb => ?_) h0
  · have hends := hstage s hs
    rw [Turn.ofStage_eq_again.mp hb] at hends
    exact hends
  · have hends := hstage s hs
    cases hx : stage s with
    | error e =>
      rw [hx] at hb hends
      rw [← Turn.done.inj hb]
      exact hends
    | ok t =>
      rw [hx] at hb hends
      cases t with
      | again s' => simp [Turn.ofStage] at hb
      | done r' =>
        rw [← Turn.done.inj hb]
        exact hends

/-! ### Walking through a buffer -/

/-- How far it is from a position to the end of a buffer; a negative position ends the walk. -/
def walkMeasure (len pos : ℤ) : ℕ := if pos < 0 then 0 else (len - pos).toNat + 1

/-- A walk goes on to a later position, or to a negative one. -/
theorem walkMeasure_lt {len pos pos' : ℤ} (h0 : 0 ≤ pos) (hlt : pos < len)
    (h : pos' < 0 ∨ pos < pos') : walkMeasure len pos' < walkMeasure len pos := by
  unfold walkMeasure
  split_ifs <;> omega

end Lib
end Teleproto3
