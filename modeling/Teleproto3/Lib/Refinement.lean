/-
# Machines that answer, and may fail

A machine here takes an event in a state and answers it, or it fails: an assertion, a pointer to
nothing.  `attempt` runs it over a list of events, and `Legal` asks something of every event in the
state it meets.

`Answers` is a run of the machine that says what the first one is for: a relation between a
state, an event, an answer and the next state.  `attempt_refines` is the rule of forward
simulation: where a legal event in related states is answered, as the second machine allows, and
leads to related states, every legal run is answered, and the second machine has a run over the
same events with the same answers.
-/

import Mathlib.Data.List.Basic

namespace Teleproto3
namespace Lib

variable {σ τ ε ω φ : Type*}

/-- A run: the state it ends in and the answers, unless the machine fails. -/
def attempt (act : σ → ε → Except φ (σ × ω)) : σ → List ε → Except φ (σ × List ω)
  | s, [] => .ok (s, [])
  | s, e :: es =>
    match act s e with
    | .error f => .error f
    | .ok (s', o) =>
      match attempt act s' es with
      | .error f => .error f
      | .ok (s'', os) => .ok (s'', o :: os)

/-- Every event meets the condition in the state in which it comes. -/
def Legal (act : σ → ε → Except φ (σ × ω)) (P : σ → ε → Prop) : σ → List ε → Prop
  | _, [] => True
  | s, e :: es => P s e ∧
    match act s e with
    | .error _ => True
    | .ok (s', _) => Legal act P s' es

instance Legal.decidable (act : σ → ε → Except φ (σ × ω)) {P : σ → ε → Prop}
    [∀ s e, Decidable (P s e)] : (s : σ) → (es : List ε) → Decidable (Legal act P s es)
  | _, [] => instDecidableTrue
  | s, e :: es =>
    match h : act s e with
    | .error _ =>
      decidable_of_iff (P s e) (by simp only [Legal, h, and_true])
    | .ok (s', _) =>
      have : Decidable (Legal act P s' es) := Legal.decidable act s' es
      decidable_of_iff (P s e ∧ Legal act P s' es) (by simp only [Legal, h])

/-- A run of a machine that is given as a relation. -/
inductive Answers (spec : τ → ε → ω → τ → Prop) : τ → List ε → List ω → τ → Prop
  | nil (t : τ) : Answers spec t [] [] t
  | cons {t t' t'' : τ} {e : ε} {o : ω} {es : List ε} {os : List ω} (h : spec t e o t')
      (hrest : Answers spec t' es os t'') : Answers spec t (e :: es) (o :: os) t''

variable {act : σ → ε → Except φ (σ × ω)} {spec : τ → ε → ω → τ → Prop} {P : σ → ε → Prop}

/-- **The rule of forward simulation.** -/
theorem attempt_refines {R : σ → τ → Prop}
    (hact : ∀ s t e, R s t → P s e → ∃ s' o t', act s e = .ok (s', o) ∧ spec t e o t' ∧ R s' t')
    {s : σ} {t : τ} {es : List ε} (h0 : R s t) (hlegal : Legal act P s es) :
    ∃ s' os t', attempt act s es = .ok (s', os) ∧ Answers spec t es os t' ∧ R s' t' := by
  induction es generalizing s t with
  | nil => exact ⟨s, [], t, rfl, .nil t, h0⟩
  | cons e es ih =>
    obtain ⟨hP, hrest⟩ := hlegal
    obtain ⟨s', o, t', hs, ht, hR⟩ := hact s t e h0 hP
    simp only [hs] at hrest
    obtain ⟨s'', os, t'', hs', ht', hR'⟩ := ih hR hrest
    refine ⟨s'', o :: os, t'', ?_, .cons ht ht', hR'⟩
    simp only [attempt, hs, hs']

end Lib
end Teleproto3
