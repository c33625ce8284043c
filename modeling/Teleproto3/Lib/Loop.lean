/-
# Loops that end

A `for (;;)` of a program whose every turn either starts another turn or leaves
the loop with a result.  `Turn` is what one turn does, and `loop` runs turns until
one leaves; a measure that every turn which starts another one makes smaller is
given with the loop, so that `loop` is a total function and has a value for every
start.

`loop_eq` unfolds one turn.  `loop_inv` is the invariant rule: what every turn
preserves, and what a turn that leaves turns into `Q`, holds of the value.
`EachTurn` says of a start that every turn the loop takes from it begins in a
state meeting a condition, and `loop_inv_of_eachTurn` is the invariant rule where
turns preserve the invariant only under that condition.

`loop_map` is the rule for two loops that run in step.

Where nothing makes the loop end, `loopFor` runs a given number of turns and says
how far they got; `loopFor_inv_of_eachTurnFor` is its invariant rule, and
`loopFor_inv_left` that for an invariant which counts the turns that are left.
-/

import Mathlib.Data.List.Basic

namespace Teleproto3
namespace Lib

/-- What one turn of a loop does: start another turn, or leave with a result. -/
inductive Turn (σ : Type*) (ρ : Type*)
  | again (s : σ)
  | done (r : ρ)

variable {σ ρ : Type*}

/-- Every turn that starts another one makes the measure smaller. -/
def Shrinks (body : σ → Turn σ ρ) (μ : σ → ℕ) : Prop :=
  ∀ s s', body s = .again s' → μ s' < μ s

/-- The loop: turns until one leaves. -/
def loop (body : σ → Turn σ ρ) (μ : σ → ℕ) (hμ : Shrinks body μ) (s : σ) : ρ :=
  match _h : body s with
  | .done r => r
  | .again s' => loop body μ hμ s'
termination_by μ s
decreasing_by exact hμ s s' _h

/-- Every turn the loop takes from this start begins in a state that meets `P`. -/
inductive EachTurn (body : σ → Turn σ ρ) (P : σ → Prop) : σ → Prop
  | done {s : σ} {r : ρ} (hP : P s) (h : body s = .done r) : EachTurn body P s
  | again {s s' : σ} (hP : P s) (h : body s = .again s') (hrest : EachTurn body P s') :
      EachTurn body P s

variable {body : σ → Turn σ ρ} {μ : σ → ℕ} {P I : σ → Prop} {Q : ρ → Prop}

theorem loop_of_done (hμ : Shrinks body μ) {s : σ} {r : ρ} (h : body s = .done r) :
    loop body μ hμ s = r := by
  rw [loop]
  split
  · next r' h' =>
    rw [h] at h'
    exact (Turn.done.inj h').symm
  · next s' h' =>
    rw [h] at h'
    exact nomatch h'

theorem loop_of_again (hμ : Shrinks body μ) {s s' : σ} (h : body s = .again s') :
    loop body μ hμ s = loop body μ hμ s' := by
  rw [loop]
  split
  · next r h' =>
    rw [h] at h'
    exact nomatch h'
  · next t h' =>
    rw [h] at h'
    rw [Turn.again.inj h']

/-- A turn begun in a state that meets the condition, wherever it leads. -/
theorem EachTurn.here {s : σ} (h : EachTurn body P s) : P s := by
  cases h with
  | done hP _ => exact hP
  | again hP _ _ => exact hP

/-- The turns after the first meet the condition as well. -/
theorem EachTurn.next {s s' : σ} (h : EachTurn body P s) (hb : body s = .again s') :
    EachTurn body P s' := by
  cases h with
  | done _ h => exact nomatch hb.symm.trans h
  | again _ h hrest =>
    rw [Turn.again.inj (hb.symm.trans h)]
    exact hrest

/-- Two conditions that every turn meets. -/
theorem EachTurn.and {P' : σ → Prop} {s : σ} (h : EachTurn body P s) (h' : EachTurn body P' s) :
    EachTurn body (fun s => P s ∧ P' s) s := by
  induction h with
  | done hP hb => exact .done ⟨hP, h'.here⟩ hb
  | again hP hb _ ih => exact .again ⟨hP, h'.here⟩ hb (ih (h'.next hb))

/-- Each turn meets a condition that follows from an invariant. -/
theorem eachTurn_of_inv (hμ : Shrinks body μ) (hP : ∀ s, I s → P s)
    (hagain : ∀ s s', I s → body s = .again s' → I s') {s : σ} (h0 : I s) :
    EachTurn body P s := by
  induction hn : μ s using Nat.strongRecOn generalizing s with
  | ind n ih =>
    cases hb : body s with
    | done r => exact .done (hP s h0) hb
    | again s' => exact .again (hP s h0) hb (ih (μ s') (hn ▸ hμ s s' hb) (hagain s s' h0 hb) rfl)

/-- Every start has its turns: a condition that holds of every state holds of
every turn. -/
theorem eachTurn_of_forall (hμ : Shrinks body μ) (hP : ∀ s, P s) (s : σ) : EachTurn body P s :=
  eachTurn_of_inv (I := fun _ => True) hμ (fun s _ => hP s) (fun _ _ _ _ => trivial) trivial

/-- **The invariant rule under a condition.**  What a turn preserves wherever the
condition holds, and turns into `Q` on leaving, holds of the value of a loop
each of whose turns meets the condition. -/
theorem loop_inv_of_eachTurn (hμ : Shrinks body μ)
    (hagain : ∀ s s', I s → P s → body s = .again s' → I s')
    (hdone : ∀ s r, I s → P s → body s = .done r → Q r)
    {s : σ} (h0 : I s) (hP : EachTurn body P s) : Q (loop body μ hμ s) := by
  induction hP with
  | done hP h =>
    rw [loop_of_done hμ h]
    exact hdone _ _ h0 hP h
  | again hP h _ ih =>
    rw [loop_of_again hμ h]
    exact ih (hagain _ _ h0 hP h)

/-- **The invariant rule.** -/
theorem loop_inv (hμ : Shrinks body μ)
    (hagain : ∀ s s', I s → body s = .again s' → I s')
    (hdone : ∀ s r, I s → body s = .done r → Q r)
    {s : σ} (h0 : I s) : Q (loop body μ hμ s) :=
  loop_inv_of_eachTurn (P := fun _ => True) hμ (fun s s' h _ => hagain s s' h)
    (fun s r h _ => hdone s r h) h0 (eachTurn_of_forall hμ (fun _ => trivial) s)

/-- **The exact condition for a loop**, where the turn that leaves counts as well.  What is lost
where a turn does not meet `P` stays lost. -/
theorem loop_iff_of_lost {B : σ → Prop} (hμ : Shrinks body μ)
    (hagain : ∀ s s', I s → body s = .again s' → P s ∧ I s' ∨ ¬ P s ∧ B s')
    (hstays : ∀ s s', B s → body s = .again s' → B s')
    (hdone : ∀ s r, I s → body s = .done r → (Q r ↔ P s))
    (hlost : ∀ s r, B s → body s = .done r → ¬ Q r)
    {s : σ} (h0 : I s) : Q (loop body μ hμ s) ↔ EachTurn body P s := by
  induction hn : μ s using Nat.strongRecOn generalizing s with
  | ind n ih =>
    cases hb : body s with
    | done r =>
      rw [loop_of_done hμ hb]
      exact ⟨fun hQ => .done ((hdone s r h0 hb).mp hQ) hb, fun h => (hdone s r h0 hb).mpr h.here⟩
    | again s' =>
      rw [loop_of_again hμ hb]
      rcases hagain s s' h0 hb with ⟨hP, hs'⟩ | ⟨hnot, hs'⟩
      · have hrest := ih _ (hn ▸ hμ s s' hb) hs' rfl
        exact ⟨fun hQ => .again hP hb (hrest.mp hQ), fun h => hrest.mpr (h.next hb)⟩
      · have hbad : ¬ Q (loop body μ hμ s') :=
          loop_inv (I := B) (Q := fun r => ¬ Q r) hμ hstays hlost hs'
        exact ⟨fun hQ => absurd hQ hbad, fun h => absurd h.here hnot⟩

/-- **The exact condition for a loop.**  Where a turn from a good state leads to a good one
exactly when it meets `P`, what is not good stays so, and a turn that leaves meets `P` and hands
out a good result exactly from a good state, the result is good exactly when each turn meets
`P`. -/
theorem loop_iff_eachTurn (hμ : Shrinks body μ)
    (hagain : ∀ s s', I s → body s = .again s' → (I s' ↔ P s))
    (hstays : ∀ s s', ¬ I s → body s = .again s' → ¬ I s')
    (hdone : ∀ s r, body s = .done r → (Q r ↔ I s) ∧ P s)
    {s : σ} (h0 : I s) : Q (loop body μ hμ s) ↔ EachTurn body P s := by
  refine loop_iff_of_lost (B := fun s => ¬ I s) hμ (fun s s' hs hb => ?_) hstays
    (fun s r hs hb => ?_) (fun s r hs hb hQ => hs ((hdone s r hb).1.mp hQ)) h0
  · have hiff := hagain s s' hs hb
    rcases em (P s) with hP | hP
    · exact .inl ⟨hP, hiff.mpr hP⟩
    · exact .inr ⟨hP, fun hs' => hP (hiff.mp hs')⟩
  · obtain ⟨hgood, hP⟩ := hdone s r hb
    exact ⟨fun _ => hP, fun _ => hgood.mpr hs⟩

/-! ### Two loops in step -/

/-- A turn seen through functions on states and results. -/
def Turn.map {τ ρ' : Type*} (f : σ → τ) (g : ρ → ρ') : Turn σ ρ → Turn τ ρ'
  | .again s => .again (f s)
  | .done r => .done (g r)

/-- **Loops in step.**  Where a turn of one loop, seen through `f` and `g`, is the turn of
another, its value seen through `g` is the value of the other. -/
theorem loop_map {τ ρ' : Type*} {body' : τ → Turn τ ρ'} {μ' : τ → ℕ} (hμ : Shrinks body μ)
    (hμ' : Shrinks body' μ') (f : σ → τ) (g : ρ → ρ')
    (hI : ∀ s s', I s → body s = .again s' → I s')
    (hmap : ∀ s, I s → body' (f s) = (body s).map f g) {s : σ} (h0 : I s) :
    loop body' μ' hμ' (f s) = g (loop body μ hμ s) := by
  induction hn : μ s using Nat.strongRecOn generalizing s with
  | ind n ih =>
    have hbody := hmap s h0
    cases hb : body s with
    | done r =>
      rw [hb] at hbody
      rw [loop_of_done hμ hb, loop_of_done hμ' hbody]
    | again s' =>
      rw [hb] at hbody
      rw [loop_of_again hμ hb, loop_of_again hμ' hbody]
      exact ih (μ s') (hn ▸ hμ s s' hb) (hI s s' h0 hb) rfl

/-- In such loops the same turns meet a condition. -/
theorem eachTurn_map {τ ρ' : Type*} {body' : τ → Turn τ ρ'} (f : σ → τ) (g : ρ → ρ')
    (hmap : ∀ s, body' (f s) = (body s).map f g) {P' : τ → Prop} (hμ : Shrinks body μ) {s : σ} :
    EachTurn body' P' (f s) ↔ EachTurn body (fun s => P' (f s)) s := by
  induction hn : μ s using Nat.strongRecOn generalizing s with
  | ind n ih =>
    have hbody := hmap s
    cases hb : body s with
    | done r =>
      rw [hb] at hbody
      exact ⟨fun h => .done h.here hb, fun h => .done h.here hbody⟩
    | again s' =>
      rw [hb] at hbody
      have hrest := ih (μ s') (hn ▸ hμ s s' hb) (s := s') rfl
      exact ⟨fun h => .again h.here hb (hrest.mp (h.next hbody)),
        fun h => .again h.here hbody (hrest.mpr (h.next hb))⟩

/-! ### A given number of turns -/

/-- At most `n` turns, and how far they got: the state the next turn would start in, or
the result. -/
def loopFor (body : σ → Turn σ ρ) : ℕ → σ → Turn σ ρ
  | 0, s => .again s
  | n + 1, s =>
    match body s with
    | .done r => .done r
    | .again s' => loopFor body n s'

@[simp] theorem loopFor_zero (s : σ) : loopFor body 0 s = .again s := rfl

theorem loopFor_of_done {s : σ} {r : ρ} (h : body s = .done r) (n : ℕ) :
    loopFor body (n + 1) s = .done r := by
  simp only [loopFor, h]

theorem loopFor_of_again {s s' : σ} (h : body s = .again s') (n : ℕ) :
    loopFor body (n + 1) s = loopFor body n s' := by
  simp only [loopFor, h]

/-- **Loops in step**, for a given number of turns. -/
theorem loopFor_map {τ ρ' : Type*} {f : σ → Turn σ ρ} {f' : τ → Turn τ ρ'} {g : σ → τ}
    {h : ρ → ρ'} (hmap : ∀ s, f' (g s) = (f s).map g h) (n : ℕ) (s : σ) :
    loopFor f' n (g s) = (loopFor f n s).map g h := by
  induction n generalizing s with
  | zero => rfl
  | succ n ih =>
    have hturn := hmap s
    cases hb : f s with
    | done r =>
      rw [hb] at hturn
      rw [loopFor_of_done hb, loopFor_of_done hturn]
      rfl
    | again s' =>
      rw [hb] at hturn
      rw [loopFor_of_again hb, loopFor_of_again hturn]
      exact ih s'

/-- Each of the turns taken within the given number begins in a state that meets `P`. -/
def EachTurnFor (body : σ → Turn σ ρ) (P : σ → Prop) : ℕ → σ → Prop
  | 0, _ => True
  | n + 1, s => P s ∧ ∀ s', body s = .again s' → EachTurnFor body P n s'

/-- A condition that holds of every state holds of every turn. -/
theorem eachTurnFor_of_forall {f : σ → Turn σ ρ} (hP : ∀ s, P s) (n : ℕ) (s : σ) :
    EachTurnFor f P n s := by
  induction n generalizing s with
  | zero => trivial
  | succ n ih => exact ⟨hP s, fun s' _ => ih s'⟩

/-- **The invariant rule for a given number of turns.**  What a turn preserves wherever
the condition holds is true where the turns have got to, and what a turn that leaves
turns into `Q` is true of the result. -/
theorem loopFor_inv_of_eachTurnFor {f : σ → Turn σ ρ}
    (hagain : ∀ s s', I s → P s → f s = .again s' → I s')
    (hdone : ∀ s r, I s → P s → f s = .done r → Q r)
    {s : σ} {n : ℕ} (h0 : I s) (hP : EachTurnFor f P n s) :
    (∀ s', loopFor f n s = .again s' → I s') ∧ ∀ r, loopFor f n s = .done r → Q r := by
  induction n generalizing s with
  | zero => exact ⟨fun s' h => Turn.again.inj h ▸ h0, fun r h => (nomatch h)⟩
  | succ n ih =>
    cases hb : f s with
    | done r =>
      rw [loopFor_of_done hb]
      exact ⟨fun s' h => (nomatch h), fun r' h => Turn.done.inj h ▸ hdone s r h0 hP.1 hb⟩
    | again s' =>
      rw [loopFor_of_again hb]
      exact ih (hagain s s' h0 hP.1 hb) (hP.2 s' hb)

/-- **The invariant rule that counts**: what may depend on how many turns are left. -/
theorem loopFor_inv_left {f : σ → Turn σ ρ} {J : ℕ → σ → Prop}
    (hagain : ∀ n s s', J (n + 1) s → f s = .again s' → J n s')
    (hdone : ∀ n s r, J (n + 1) s → f s = .done r → Q r) {s : σ} {n : ℕ} (h0 : J n s) :
    (∀ s', loopFor f n s = .again s' → J 0 s') ∧ ∀ r, loopFor f n s = .done r → Q r := by
  induction n generalizing s with
  | zero => exact ⟨fun s' h => Turn.again.inj h ▸ h0, fun r h => by simp at h⟩
  | succ n ih =>
    cases hb : f s with
    | done r =>
      rw [loopFor_of_done hb]
      exact ⟨fun s' h => by simp at h, fun r' h => Turn.done.inj h ▸ hdone n s r h0 hb⟩
    | again s' =>
      rw [loopFor_of_again hb]
      exact ih (hagain n s s' h0 hb)

end Lib
end Teleproto3
