/-
# The chains of `InExtConnectionHash`

The loop of `get_ext_connection_by_in_conn_id` walks down a chain with the pointer that leads to
each cell.  It ends at the cell it looks for with the pointer that must be written to take the
cell out (`chainLoop_found`), or at the end of the chain (`chainLoop_none`).
-/

import Teleproto3.Server.ExtLayout

namespace Teleproto3
namespace Server

open Lib ExtMemory

variable {mem mem' : ExtMemory} {bucket : ℕ → Option ExtRef} {S : ExtLayout} {a : ℕ}
  {m : ExtTable} {inFd : ℕ} {inConnId : UInt64}

/-! ### The walk -/

/-- What the loop looks for. -/
def SameIn (inFd : ℕ) (inConnId : UInt64) (c : ExtConnection) : Prop :=
  c.inFd = inFd ∧ c.inConnId = inConnId

/-- The pointer that leads to what stands behind some cells. -/
def linkBehind : ExtLink → List ℕ → ExtLink
  | prev, [] => prev
  | _, b :: l => linkBehind (.hNext (.cell b)) l

theorem linkBehind_concat (prev : ExtLink) (l : List ℕ) (b : ℕ) :
    linkBehind prev (l ++ [b]) = .hNext (.cell b) := by
  induction l generalizing prev with
  | nil => rfl
  | cons d l ih => exact ih _

/-- One turn of the loop at a cell that is not the one. -/
theorem chainLoop_other {n b : ℕ} {prev : ExtLink} {c : ExtConnection}
    (hprev : m.loadLink prev = .ok (some (.cell b))) (hc : m.mem (.cell b) = some c)
    (hother : ¬ SameIn inFd inConnId c) :
    m.chainLoop inFd inConnId (n + 1) prev =
      m.chainLoop inFd inConnId n (.hNext (.cell b)) := by
  have hother' : ¬ (c.inFd = inFd ∧ c.inConnId = inConnId) := hother
  simp only [ExtTable.chainLoop, hprev, ok_seq, load_eq hc, hother', if_false]

/-- **The walk down a chain without the cell.** -/
theorem chainLoop_none {l : List ℕ} {n : ℕ} {prev : ExtLink} {p : Option ExtRef}
    (hprev : m.loadLink prev = .ok p)
    (h : Segment m.mem ExtConnection.hNext p (cellRefs l) none)
    (hother : ∀ b ∈ l, ∀ c, m.mem (.cell b) = some c → ¬ SameIn inFd inConnId c)
    (hn : l.length < n) : m.chainLoop inFd inConnId n prev = .ok none := by
  induction l generalizing n prev p with
  | nil =>
    obtain ⟨n, rfl⟩ : ∃ k, n = k + 1 := Nat.exists_eq_succ_of_ne_zero (by omega)
    obtain rfl : p = none := h
    simp only [ExtTable.chainLoop, hprev, ok_seq]
    rfl
  | cons b l ih =>
    obtain ⟨n, rfl⟩ : ∃ k, n = k + 1 := Nat.exists_eq_succ_of_ne_zero (by omega)
    obtain ⟨rfl, c, hc, hl⟩ := h
    rw [chainLoop_other hprev hc (hother b List.mem_cons_self c hc)]
    refine ih (p := c.hNext) ?_ hl (fun d hd => hother d (List.mem_cons_of_mem b hd)) ?_
    · simp only [ExtTable.loadLink, load_eq hc, Except.map]
    · rw [List.length_cons] at hn
      omega

/-- **The walk down a chain to the cell.** -/
theorem chainLoop_found {l₁ l₂ : List ℕ} {n : ℕ} {prev : ExtLink} {p : Option ExtRef}
    {c : ExtConnection} (hprev : m.loadLink prev = .ok p)
    (h : Segment m.mem ExtConnection.hNext p (cellRefs (l₁ ++ a :: l₂)) none)
    (hother : ∀ b ∈ l₁, ∀ c, m.mem (.cell b) = some c → ¬ SameIn inFd inConnId c)
    (hc : m.mem (.cell a) = some c) (hsame : SameIn inFd inConnId c) (hn : l₁.length < n) :
    m.chainLoop inFd inConnId n prev = .ok (some (linkBehind prev l₁, .cell a)) := by
  induction l₁ generalizing n prev p with
  | nil =>
    obtain ⟨n, rfl⟩ : ∃ k, n = k + 1 := Nat.exists_eq_succ_of_ne_zero (by omega)
    obtain ⟨rfl, -⟩ := h
    have hsame' : c.inFd = inFd ∧ c.inConnId = inConnId := hsame
    simp only [ExtTable.chainLoop, hprev, ok_seq, load_eq hc, hsame', and_self, if_true]
    rfl
  | cons b l ih =>
    obtain ⟨n, rfl⟩ : ∃ k, n = k + 1 := Nat.exists_eq_succ_of_ne_zero (by omega)
    obtain ⟨rfl, d, hd, hl⟩ := h
    rw [chainLoop_other hprev hd (hother b List.mem_cons_self d hd)]
    refine ih (p := d.hNext) ?_ hl (fun e he => hother e (List.mem_cons_of_mem b he)) ?_
    · simp only [ExtTable.loadLink, load_eq hd, Except.map]
    · rw [List.length_cons] at hn
      omega

/-! ### Entering a chain and leaving it -/

/-- A write to `h_next` makes no difference to the circles. -/
theorem LaidOut.setHNext (h : LaidOut mem bucket S) {bucket' : ℕ → Option ExtRef}
    {chain' : ℕ → List ℕ} {b : ℕ} {p : Option ExtRef}
    (hc : Chained (mem.alter (.cell b) fun c => { c with hNext := p }) bucket' S.cells chain') :
    LaidOut (mem.alter (.cell b) fun c => { c with hNext := p }) bucket'
      { S with chain := chain' } where
  stored := h.stored.of_view fun x => map_alter fun c => rfl
  ringed := h.ringed.of_view fun x k => map_alter fun c => by cases k <;> rfl
  chained := hc

/-- A chain without the cell that is written to. -/
theorem Chained.of_notMem (h : Chained mem bucket S.cells S.chain) {i : ℕ} (ha : a ∉ S.chain i)
    (f : ExtConnection → ExtConnection) :
    Segment (mem.alter (.cell a) f) ExtConnection.hNext (bucket i) (cellRefs (S.chain i)) none := by
  refine (segment_congr fun x hx => ?_).mpr (h.chains i)
  rw [alter_of_ne]
  rintro rfl
  exact ha (mem_cellRefs.mp hx)

/-- **A cell is put at the head of a chain.** -/
theorem LaidOut.chainPush (h : LaidOut mem bucket S) (i : ℕ) (ha : a ∈ cellAddresses S.cells)
    (hno : ∀ i, a ∉ S.chain i) :
    LaidOut (mem.alter (.cell a) fun c => { c with hNext := bucket i })
      (Function.update bucket i (some (.cell a)))
      { S with chain := Function.update S.chain i (a :: S.chain i) } := by
  have hold (j : ℕ) := h.chained.of_notMem (hno j) fun c => { c with hNext := bucket i }
  have hmem {j b : ℕ} (hb : b ∈ Function.update S.chain i (a :: S.chain i) j) :
      b ∈ S.chain j ∨ j = i ∧ b = a := by
    by_cases hj : j = i
    · subst hj
      rw [Function.update_self, List.mem_cons] at hb
      exact hb.symm.imp_right fun he => ⟨rfl, he⟩
    · rw [Function.update_of_ne hj] at hb
      exact .inl hb
  refine h.setHNext ⟨fun j => ?_, fun j b hb => ?_, fun j => ?_, fun j j' b hb hb' => ?_⟩
  · by_cases hj : j = i
    · subst hj
      obtain ⟨c, hc, -⟩ := h.stored.load ha
      rw [Function.update_self, Function.update_self]
      exact ⟨rfl, _, by rw [alter_self, hc]; rfl, hold j⟩
    · rw [Function.update_of_ne hj, Function.update_of_ne hj]
      exact hold j
  · rcases hmem hb with hb | ⟨-, rfl⟩
    · exact h.chained.onChain j b hb
    · exact ha
  · by_cases hj : j = i
    · subst hj
      rw [Function.update_self]
      exact List.nodup_cons.mpr ⟨hno j, h.chained.distinct j⟩
    · rw [Function.update_of_ne hj]
      exact h.chained.distinct j
  · rcases hmem hb with hb | ⟨hj, hba⟩ <;> rcases hmem hb' with hb' | ⟨hj', hba'⟩
    · exact h.chained.apart j j' b hb hb'
    · exact absurd (hba' ▸ hb) (hno j)
    · exact absurd (hba ▸ hb') (hno j')
    · rw [hj, hj']

/-- The chains without a cell. -/
def chainWithout (chain : ℕ → List ℕ) (a : ℕ) : ℕ → List ℕ := fun i => (chain i).erase a

theorem mem_chainWithout {chain : ℕ → List ℕ} {i b : ℕ} (h : b ∈ chainWithout chain a i) :
    b ∈ chain i := List.mem_of_mem_erase h

/-- What the chains are where one has lost a cell. -/
theorem Chained.left (h : Chained mem bucket S.cells S.chain) {i : ℕ} (ha : a ∈ S.chain i)
    {bucket' : ℕ → Option ExtRef}
    (hi : Segment mem' ExtConnection.hNext (bucket' i) (cellRefs ((S.chain i).erase a)) none)
    (hj : ∀ j ≠ i, Segment mem' ExtConnection.hNext (bucket' j) (cellRefs (S.chain j)) none) :
    Chained mem' bucket' S.cells (chainWithout S.chain a) where
  chains j := by
    by_cases hji : j = i
    · rw [hji]
      exact hi
    · rw [chainWithout, List.erase_of_not_mem fun hmem => hji (h.apart j i a hmem ha)]
      exact hj j hji
  onChain j b hb := h.onChain j b (mem_chainWithout hb)
  distinct j := (h.distinct j).erase a
  apart j j' b hb hb' := h.apart j j' b (mem_chainWithout hb) (mem_chainWithout hb')

/-- **A cell is taken out of its chain** through the pointer that the loop has ended with. -/
theorem LaidOut.chainRemove (h : LaidOut m.mem m.inExtConnectionHash S) {i : ℕ} {l₁ l₂ : List ℕ}
    (hi : S.chain i = l₁ ++ a :: l₂) {c : ExtConnection} (hc : m.mem (.cell a) = some c) :
    ∃ mem' bucket', m.storeLink c.hNext (linkBehind (.bucket i) l₁) =
        .ok { m with mem := mem', inExtConnectionHash := bucket' } ∧
      LaidOut mem' bucket' { S with chain := chainWithout S.chain a } ∧
      mem' (.cell a) = some c := by
  have hseg := h.chained.chains i
  have hd := h.chained.distinct i
  have ha : a ∈ S.chain i := by simp [hi]
  have herase : (S.chain i).erase a = l₁ ++ l₂ := by
    rw [hi] at hd ⊢
    exact erase_middle hd
  rcases List.eq_nil_or_concat' l₁ with rfl | ⟨u, p, rfl⟩
  · -- The cell heads the chain, and the bucket is written.
    rw [hi] at hseg
    obtain ⟨-, d, hd', hrest⟩ := hseg
    obtain rfl := Option.some.inj (hc.symm.trans hd')
    refine ⟨m.mem, Function.update m.inExtConnectionHash i c.hNext, rfl,
      ⟨h.stored, h.ringed, h.chained.left ha ?_ fun j hj => ?_⟩, hc⟩
    · rw [Function.update_self, herase]
      exact hrest
    · rw [Function.update_of_ne hj]
      exact h.chained.chains j
  · -- The cell before it is written.
    have hpi : p ∈ S.chain i := by simp [hi]
    have hpa : p ≠ a := by
      rintro rfl
      rw [hi] at hd
      exact (List.nodup_append.mp hd).2.2 p (by simp) p List.mem_cons_self rfl
    have hne : ExtRef.cell p ≠ .cell a := fun he => hpa (ExtRef.cell.inj he)
    obtain ⟨d, hdp, -⟩ := h.stored.load (h.chained.onChain i p hpi)
    refine ⟨m.mem.alter (.cell p) fun e => { e with hNext := c.hNext }, m.inExtConnectionHash,
      ?_, h.setHNext (h.chained.left ha ?_ fun j hj => ?_), (alter_of_ne hne.symm).trans hc⟩
    · rw [linkBehind_concat, ExtTable.storeLink, modify_eq hdp]
      rfl
    · have hd' : (cellRefs (S.chain i)).Nodup := hd.map fun _ _ => ExtRef.cell.inj
      rw [hi] at hseg hd'
      rw [herase]
      have hsplit (l : List ℕ) :
          cellRefs (u ++ [p] ++ l) = cellRefs u ++ .cell p :: cellRefs l := by
        simp [cellRefs]
      rw [hsplit] at hseg hd' ⊢
      refine hseg.unlink (a := .cell a) hd' ?_ fun x _ hxp => by rw [alter_of_ne hxp]
      rw [alter_self, hdp, hc]
      rfl
    · exact h.chained.of_notMem (fun hmem => hj (h.chained.apart j i p hmem hpi)) _

end Server
end Teleproto3
