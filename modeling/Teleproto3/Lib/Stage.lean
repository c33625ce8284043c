/-
# Code in stages

A function that runs stage after stage, any of which may leave with a result of the
whole: a stage is an `Except`, whose error is the result it leaves with.

`bind_ok_iff` and `bind_error_iff` turn what a chain of stages comes to into what its
stages come to.  `Ends P Q x` is the specification of a stage: what is passed on has `P`,
what is left with has `Q`.  `Ends.bind` composes specifications, so that a chain is
specified without looking into its stages.
-/

import Mathlib.Data.List.Basic

namespace Teleproto3
namespace Lib

variable {ε α β : Type*} {x : Except ε α} {f : α → Except ε β}
  {P P' : α → Prop} {Q Q' : ε → Prop} {R : β → Prop}

@[simp] theorem ok_bind (a : α) : (Except.ok a : Except ε α).bind f = f a := rfl

@[simp] theorem error_bind (e : ε) : (Except.error e : Except ε α).bind f = .error e := rfl

/-- Two stages are passed when both are. -/
theorem bind_ok_iff {b : β} : x.bind f = .ok b ↔ ∃ a, x = .ok a ∧ f a = .ok b := by
  cases x with
  | error e => exact ⟨fun h => (nomatch h), fun ⟨_, h, _⟩ => (nomatch h)⟩
  | ok a => exact ⟨fun h => ⟨a, rfl, h⟩, fun ⟨_, h, hf⟩ => Except.ok.inj h ▸ hf⟩

/-- Two stages leave at the first, or at the second after passing the first. -/
theorem bind_error_iff {e : ε} :
    x.bind f = .error e ↔ x = .error e ∨ ∃ a, x = .ok a ∧ f a = .error e := by
  cases x with
  | error e' =>
    constructor
    · intro h
      exact Or.inl (congrArg Except.error (Except.error.inj h))
    · rintro (h | ⟨_, h, _⟩)
      · exact congrArg Except.error (Except.error.inj h)
      · exact nomatch h
  | ok a =>
    refine ⟨fun h => Or.inr ⟨a, rfl, h⟩, ?_⟩
    rintro (h | ⟨_, h, hf⟩)
    · exact nomatch h
    · exact Except.ok.inj h ▸ hf

/-- What is passed on has `P`, and what is left with has `Q`. -/
def Ends (P : α → Prop) (Q : ε → Prop) : Except ε α → Prop
  | .ok a => P a
  | .error e => Q e

@[simp] theorem ends_ok {a : α} : Ends P Q (.ok a) ↔ P a := Iff.rfl

@[simp] theorem ends_error {e : ε} : Ends P Q (.error e) ↔ Q e := Iff.rfl

theorem Ends.ok {a : α} (h : Ends P Q x) (hx : x = .ok a) : P a := by
  rw [hx] at h
  exact h

theorem Ends.error {e : ε} (h : Ends P Q x) (hx : x = .error e) : Q e := by
  rw [hx] at h
  exact h

/-- What a chain is to come to, stage by stage. -/
theorem Ends.bind (h : Ends P Q x) (hf : ∀ a, P a → Ends R Q (f a)) : Ends R Q (x.bind f) := by
  cases x with
  | error e => exact h
  | ok a => exact hf a h

/-- A stage that branches. -/
theorem Ends.ite {p : Prop} [Decidable p] {y : Except ε α} (hx : p → Ends P Q x)
    (hy : ¬ p → Ends P Q y) : Ends P Q (if p then x else y) := by
  by_cases h : p
  · rw [if_pos h]
    exact hx h
  · rw [if_neg h]
    exact hy h

theorem Ends.mono (h : Ends P Q x) (hP : ∀ a, P a → P' a) (hQ : ∀ e, Q e → Q' e) :
    Ends P' Q' x := by
  cases x with
  | error e => exact hQ e h
  | ok a => exact hP a h

end Lib
end Teleproto3
