/-
# Runs of a machine, and what holds along them

A machine here is a step function: the state before an event and the event give
the state after it.  Two predicates speak about a whole run.  `Along` asks
something of every step, as the pair of the state before it and the event it
takes; `Throughout` asks something of every state the run passes, the first and
the last included.

The rules below trade one for the other.  `throughout_of_along` is the plain
invariant rule, with a condition that every step meets.
`throughout_iff_along` is the rule for a component that is right exactly while
its steps stay clear of one mistake: if a step from a good state leads to a
good state exactly when it meets the condition, then a run is good throughout
exactly when the condition holds along it.
-/

import Mathlib.Data.List.Basic

namespace Teleproto3
namespace Lib

variable {σ ε : Type*}

/-- The state a run of events ends in. -/
def finish (step : σ → ε → σ) (s : σ) (es : List ε) : σ :=
  es.foldl step s

/-- Every step of the run, seen as the state before it and its event, meets `P`. -/
def Along (step : σ → ε → σ) (P : σ → ε → Prop) : σ → List ε → Prop
  | _, [] => True
  | s, e :: es => P s e ∧ Along step P (step s e) es

/-- Every state of the run, the first and the last included, meets `Q`. -/
def Throughout (step : σ → ε → σ) (Q : σ → Prop) : σ → List ε → Prop
  | s, [] => Q s
  | s, e :: es => Q s ∧ Throughout step Q (step s e) es

variable {step : σ → ε → σ} {P R : σ → ε → Prop} {Q I : σ → Prop}

@[simp] theorem finish_nil (s : σ) : finish step s [] = s := rfl

@[simp] theorem finish_cons (s : σ) (e : ε) (es : List ε) :
    finish step s (e :: es) = finish step (step s e) es := rfl

@[simp] theorem along_nil (s : σ) : Along step P s [] := trivial

@[simp] theorem along_cons (s : σ) (e : ε) (es : List ε) :
    Along step P s (e :: es) ↔ P s e ∧ Along step P (step s e) es := Iff.rfl

@[simp] theorem throughout_nil (s : σ) : Throughout step Q s [] ↔ Q s := Iff.rfl

@[simp] theorem throughout_cons (s : σ) (e : ε) (es : List ε) :
    Throughout step Q s (e :: es) ↔ Q s ∧ Throughout step Q (step s e) es := Iff.rfl

instance Along.decidable [∀ s e, Decidable (P s e)] :
    (s : σ) → (es : List ε) → Decidable (Along step P s es)
  | _, [] => instDecidableTrue
  | s, e :: es =>
    have : Decidable (Along step P (step s e) es) := Along.decidable (step s e) es
    inferInstanceAs (Decidable (P s e ∧ Along step P (step s e) es))

/-- A run in two parts. -/
theorem finish_append (s : σ) (es es' : List ε) :
    finish step s (es ++ es') = finish step (finish step s es) es' := List.foldl_append

theorem along_append {s : σ} {es es' : List ε} :
    Along step P s (es ++ es') ↔ Along step P s es ∧ Along step P (finish step s es) es' := by
  induction es generalizing s with
  | nil => exact ⟨fun h => ⟨trivial, h⟩, And.right⟩
  | cons e es ih =>
    show P s e ∧ Along step P (step s e) (es ++ es') ↔ _
    rw [ih, ← and_assoc]
    rfl

/-- A run that is good throughout starts well. -/
theorem Throughout.start {s : σ} {es : List ε} (h : Throughout step Q s es) : Q s := by
  cases es with
  | nil => exact h
  | cons e es => exact h.1

/-- A run that is good throughout ends well. -/
theorem Throughout.finish {s : σ} {es : List ε} (h : Throughout step Q s es) :
    Q (finish step s es) := by
  induction es generalizing s with
  | nil => exact h
  | cons e es ih => exact ih h.2

/-- What every state of a run implies holds of every state of the run. -/
theorem Throughout.imp {Q' : σ → Prop} (himp : ∀ s, Q s → Q' s) {s : σ} {es : List ε}
    (h : Throughout step Q s es) : Throughout step Q' s es := by
  induction es generalizing s with
  | nil => exact himp s h
  | cons e es ih => exact ⟨himp s h.1, ih h.2⟩

/-- What a good state implies of its next step holds along a run that is good throughout. -/
theorem along_of_throughout (himp : ∀ s e, Q s → P s e) {s : σ} {es : List ε}
    (h : Throughout step Q s es) : Along step P s es := by
  induction es generalizing s with
  | nil => trivial
  | cons e es ih => exact ⟨himp s e h.1, ih h.2⟩

/-- Two conditions that hold along a run hold along it together. -/
theorem along_and {s : σ} {es : List ε} (hP : Along step P s es) (hR : Along step R s es) :
    Along step (fun s e => P s e ∧ R s e) s es := by
  induction es generalizing s with
  | nil => trivial
  | cons e es ih => exact ⟨⟨hP.1, hR.1⟩, ih hP.2 hR.2⟩

/-- What every step meets holds along every run. -/
theorem along_of_forall (hP : ∀ s e, P s e) (s : σ) (es : List ε) : Along step P s es := by
  induction es generalizing s with
  | nil => trivial
  | cons e es ih => exact ⟨hP s e, ih _⟩

/-- **The invariant rule.**  An invariant that every step meeting the condition
preserves holds throughout every run whose steps all meet it. -/
theorem throughout_of_along (hstep : ∀ s e, I s → P s e → I (step s e))
    {s : σ} {es : List ε} (h0 : I s) (hP : Along step P s es) : Throughout step I s es := by
  induction es generalizing s with
  | nil => exact h0
  | cons e es ih => exact ⟨h0, ih (hstep s e h0 hP.1) hP.2⟩

/-- What every step preserves holds throughout. -/
theorem throughout_of_step (hstep : ∀ s e, I s → I (step s e)) {s : σ} {es : List ε} (h0 : I s) :
    Throughout step I s es := by
  induction es generalizing s with
  | nil => exact h0
  | cons e es ih => exact ⟨h0, ih (hstep s e h0)⟩

/-- What an invariant and the condition imply of every step holds along the run. -/
theorem along_of_inv (hstep : ∀ s e, I s → P s e → I (step s e))
    (himp : ∀ s e, I s → P s e → R s e) {s : σ} {es : List ε} (h0 : I s)
    (hP : Along step P s es) : Along step R s es := by
  induction es generalizing s with
  | nil => trivial
  | cons e es ih => exact ⟨himp s e h0 hP.1, ih (hstep s e h0 hP.1) hP.2⟩

/-- Two conditions that come to the same at every legal step come to the same along a legal
run. -/
theorem along_congr {P' : σ → ε → Prop} (hI : ∀ s e, I s → R s e → I (step s e))
    (hiff : ∀ s e, I s → R s e → (P s e ↔ P' s e)) {s : σ} {es : List ε} (h0 : I s)
    (hR : Along step R s es) : Along step P s es ↔ Along step P' s es := by
  induction es generalizing s with
  | nil => exact Iff.rfl
  | cons e es ih => exact and_congr (hiff s e h0 hR.1) (ih (hI s e h0 hR.1) hR.2)

/-- So do two conditions of which one keeps the invariant under which they come to the same. -/
theorem along_congr_of_inv {P' : σ → ε → Prop} (hI : ∀ s e, I s → P s e → I (step s e))
    (hiff : ∀ s e, I s → (P' s e ↔ P s e)) {s : σ} {es : List ε} (h0 : I s) :
    Along step P' s es ↔ Along step P s es := by
  induction es generalizing s with
  | nil => exact Iff.rfl
  | cons e es ih =>
    constructor
    · rintro ⟨he, hes⟩
      have hP := (hiff s e h0).mp he
      exact ⟨hP, (ih (hI s e h0 hP)).mp hes⟩
    · rintro ⟨he, hes⟩
      exact ⟨(hiff s e h0).mpr he, (ih (hI s e h0 he)).mpr hes⟩

/-- **The exact condition.**  Where `I` holds of every run whose steps are
legal, and a legal step from a good state ends in a good state exactly when it
meets `P`, a legal run is good throughout exactly when all its steps meet `P`. -/
theorem throughout_iff_along
    (hI : ∀ s e, I s → R s e → I (step s e))
    (hstep : ∀ s e, I s → R s e → Q s → (Q (step s e) ↔ P s e))
    {s : σ} {es : List ε} (h0 : I s) (hQ : Q s) (hR : Along step R s es) :
    Throughout step Q s es ↔ Along step P s es := by
  induction es generalizing s with
  | nil => exact ⟨fun _ => trivial, fun _ => hQ⟩
  | cons e es ih =>
    have hiff := hstep s e h0 hR.1 hQ
    constructor
    · intro h
      have hQ' : Q (step s e) := h.2.start
      exact ⟨hiff.mp hQ', (ih (hI s e h0 hR.1) hQ' hR.2).mp h.2⟩
    · intro h
      have hQ' : Q (step s e) := hiff.mpr h.1
      exact ⟨hQ, (ih (hI s e h0 hR.1) hQ' hR.2).mpr h.2⟩

end Lib
end Teleproto3
