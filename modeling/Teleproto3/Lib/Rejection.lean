/-
# Rejection sampling

Words are drawn from a source until one lies below a cutoff, and what the word stands for is its
rest modulo the size of the range (`wordValue`).  `ExactOn N lo hi value` is what makes such an
assignment a fair one: every value lies in the range, every value of the range comes from equally
many of the `N` words, and at least half of the words are accepted.

`exactOn_wordValue` is the rule: it is enough that the cutoff is the largest multiple of the size of
the range which the greatest word reaches.  `rejectFor_done` and `rejectFor_ends` are the rules for
the loop that draws.
-/

import Mathlib.Data.Int.CardIntervalMod
import Teleproto3.Lib.Loop

namespace Teleproto3
namespace Lib

/-! ### Words and values -/

/-- What a word stands for, unless it is rejected. -/
def wordValue (lo range cutoff r : ℕ) : Option ℕ :=
  if r ≥ cutoff then none else some (lo + r % range)

/-- How many of `N` words meet a condition. -/
def countWords (N : ℕ) (p : ℕ → Prop) [DecidablePred p] : ℕ := ((Finset.range N).filter p).card

/-- **An assignment that prefers no value.** -/
structure ExactOn (N lo hi : ℕ) (value : ℕ → Option ℕ) : Prop where
  within : ∀ r < N, ∀ v, value r = some v → lo ≤ v ∧ v ≤ hi
  even : ∃ k, 0 < k ∧ ∀ v, lo ≤ v → v ≤ hi → countWords N (fun r => value r = some v) = k
  half : N ≤ 2 * countWords N fun r => (value r).isSome = true

/-- Below a multiple of `m`, every residue has equally many words. -/
theorem card_filter_mod_eq {m k j N : ℕ} (hj : j < m) (hN : k * m ≤ N) :
    ((Finset.range N).filter fun r => r < k * m ∧ r % m = j).card = k := by
  have hwords : ((Finset.range N).filter fun r => r < k * m ∧ r % m = j) =
      (Finset.range (k * m)).filter (· ≡ j [MOD m]) := by
    ext r
    simp only [Finset.mem_filter, Finset.mem_range, Nat.ModEq, Nat.mod_eq_of_lt hj]
    constructor
    · exact fun h => h.2
    · exact fun h => ⟨h.1.trans_le hN, h⟩
  have hm : 0 < m := by omega
  rw [hwords, ← Nat.count_eq_card_filter_range, Nat.count_modEq_card _ hm, Nat.mul_mod_left,
    if_neg (Nat.not_lt_zero _), Nat.mul_div_cancel _ hm, Nat.add_zero]

section Cutoff

variable {lo range cutoff r v : ℕ}

theorem wordValue_eq_some :
    wordValue lo range cutoff r = some v ↔ r < cutoff ∧ lo + r % range = v := by
  unfold wordValue
  by_cases hr : r ≥ cutoff
  · simp [hr]
  · simp [hr, not_le.mp hr]

theorem wordValue_isSome : (wordValue lo range cutoff r).isSome = true ↔ r < cutoff := by
  unfold wordValue
  by_cases hr : r ≥ cutoff
  · simp [hr]
  · simp [hr, not_le.mp hr]

/-- **The largest multiple of the range is above half of the greatest word.** -/
theorem half_le_cutoff {max : ℕ} (hpos : 0 < range) (hle : range ≤ max) :
    max + 1 ≤ 2 * (max / range * range) := by
  have hsplit := Nat.div_add_mod' max range
  have hmod := Nat.mod_lt max hpos
  have hone : 1 ≤ max / range := Nat.div_pos hle hpos
  have hrange : range ≤ max / range * range := Nat.le_mul_of_pos_left range hone
  omega

/-- **A cutoff at a multiple of the range prefers no value.** -/
theorem exactOn_wordValue (lo : ℕ) {max : ℕ} (hpos : 0 < range) (hle : range ≤ max) :
    ExactOn (max + 1) lo (lo + range - 1) (wordValue lo range (max / range * range)) := by
  have hbelow := Nat.div_mul_le_self max range
  refine ⟨fun r _ v hv => ?_, ⟨max / range, Nat.div_pos hle hpos, fun v hlo hhi => ?_⟩, ?_⟩
  · obtain ⟨-, rfl⟩ := wordValue_eq_some.mp hv
    have hmod := Nat.mod_lt r hpos
    omega
  · have hcard := card_filter_mod_eq (j := v - lo) (m := range) (by omega)
      (hbelow.trans (Nat.le_succ max))
    refine Eq.trans (congrArg Finset.card (Finset.filter_congr fun r _ => ?_)) hcard
    rw [wordValue_eq_some]
    exact and_congr_right fun _ => by omega
  · have hcount : countWords (max + 1)
        (fun r => (wordValue lo range (max / range * range) r).isSome = true) =
          max / range * range := by
      have hfilter : ((Finset.range (max + 1)).filter fun r =>
          (wordValue lo range (max / range * range) r).isSome = true) =
            Finset.range (max / range * range) := by
        ext r
        rw [Finset.mem_filter, Finset.mem_range, Finset.mem_range, wordValue_isSome]
        omega
      rw [countWords, hfilter, Finset.card_range]
    rw [hcount]
    exact half_le_cutoff hpos hle

end Cutoff

/-! ### The loop that draws -/

section Drawing

variable {C ε : Type*} (draw : C → Option (ℕ × C)) (value : ℕ → Option ℕ) (failed : ε)

/-- One turn of the loop: a word is drawn, unless the source fails. -/
def rejectTurn (ctx : C) : Turn C (Except ε (ℕ × C)) :=
  match draw ctx with
  | none => .done (.error failed)
  | some (r, ctx) =>
    match value r with
    | none => .again ctx
    | some v => .done (.ok (v, ctx))

/-- Of the words drawn from here on, one is accepted. -/
inductive Yields : C → Prop
  | here {ctx ctx' : C} {r : ℕ} (hdraw : draw ctx = some (r, ctx'))
    (haccepted : (value r).isSome = true) : Yields ctx
  | later {ctx ctx' : C} {r : ℕ} (hdraw : draw ctx = some (r, ctx')) (hrest : Yields ctx') :
      Yields ctx

variable {draw value failed}

theorem rejectTurn_failed {ctx : C} (hdraw : draw ctx = none) :
    rejectTurn draw value failed ctx = .done (.error failed) := by
  simp only [rejectTurn, hdraw]

theorem rejectTurn_rejected {ctx ctx' : C} {r : ℕ} (hdraw : draw ctx = some (r, ctx'))
    (hvalue : value r = none) : rejectTurn draw value failed ctx = .again ctx' := by
  simp only [rejectTurn, hdraw, hvalue]

theorem rejectTurn_accepted {ctx ctx' : C} {r v : ℕ} (hdraw : draw ctx = some (r, ctx'))
    (hvalue : value r = some v) : rejectTurn draw value failed ctx = .done (.ok (v, ctx')) := by
  simp only [rejectTurn, hdraw, hvalue]

/-- **What comes out** is what a word that was drawn stands for, or the failure of the source. -/
theorem rejectFor_done {turns : ℕ} {ctx : C} {x : Except ε (ℕ × C)}
    (h : loopFor (rejectTurn draw value failed) turns ctx = .done x) :
    x = .error failed ∨ ∃ v ctx' ctx'' r, x = .ok (v, ctx'') ∧ draw ctx' = some (r, ctx'') ∧
      value r = some v := by
  induction turns generalizing ctx with
  | zero => cases h
  | succ n ih =>
    cases hdraw : draw ctx with
    | none =>
      rw [loopFor_of_done (rejectTurn_failed hdraw)] at h
      exact Or.inl (Turn.done.inj h).symm
    | some q =>
      obtain ⟨r, ctx'⟩ := q
      cases hvalue : value r with
      | none =>
        rw [loopFor_of_again (rejectTurn_rejected hdraw hvalue)] at h
        exact ih h
      | some v =>
        rw [loopFor_of_done (rejectTurn_accepted hdraw hvalue)] at h
        exact Or.inr ⟨v, ctx, ctx', r, (Turn.done.inj h).symm, hdraw, hvalue⟩

/-- **A source that yields an accepted word ends the loop.** -/
theorem rejectFor_ends (failed : ε) {ctx : C} (h : Yields draw value ctx) :
    ∃ turns p, loopFor (rejectTurn draw value failed) turns ctx = .done (.ok p) := by
  induction h with
  | @here ctx ctx' r hdraw haccepted =>
    obtain ⟨v, hv⟩ := Option.isSome_iff_exists.mp haccepted
    exact ⟨1, (v, ctx'), loopFor_of_done (rejectTurn_accepted hdraw hv) 0⟩
  | @later ctx ctx' r hdraw _ ih =>
    cases hvalue : value r with
    | none =>
      obtain ⟨n, p, hn⟩ := ih
      exact ⟨n + 1, p, (loopFor_of_again (rejectTurn_rejected hdraw hvalue) n).trans hn⟩
    | some v => exact ⟨1, (v, ctx'), loopFor_of_done (rejectTurn_accepted hdraw hvalue) 0⟩

end Drawing

end Lib
end Teleproto3
