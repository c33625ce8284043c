/-
# What the table of ext_connections looks like in memory

`LaidOut mem bucket S` says that memory holds the cells of `S`, linked into its circles and
chains and nothing else.  Each function that writes to the links has a lemma here that says
which layout it leads to: a cell leaves a circle (`LaidOut.unlink`, `LaidOut.lruDelete`), is put
on one (`LaidOut.linkLast`, `LaidOut.lruInsert`), is allocated, written and freed.
-/

import Teleproto3.Server.ExtCircles

namespace Teleproto3
namespace Server

open Lib

/-! ### The circles and chains together -/

/-- A circle of the table. -/
inductive ExtRing
  | outbound (fd : ℕ)
  | inbound (fd : ℕ)
  | lru
  deriving DecidableEq, Repr

namespace ExtRing

/-- By which links its cells are linked. -/
def kind : ExtRing → RingKind
  | outbound _ => .outbound
  | inbound _ => .inbound
  | lru => .lru

/-- Where it begins and ends. -/
def head : ExtRing → ExtRef
  | outbound fd => .head fd
  | inbound fd => .head fd
  | lru => .connLru

/-- The head and the kind tell the circle. -/
theorem eq_of_head {R R' : ExtRing} (hk : R.kind = R'.kind) (hH : R.head = R'.head) : R = R' := by
  cases R <;> cases R' <;> simp_all [kind, head]

theorem head_ne_cell (R : ExtRing) (a : ℕ) : R.head ≠ .cell a := by
  cases R <;> simp [head]

end ExtRing

open ExtMemory

variable {mem mem' : ExtMemory} {bucket : ℕ → Option ExtRef}
  {cells : List (ℕ × ExtConnection)} {used : ExtRing → Prop} {ring : ExtRing → List ℕ}
  {chain : ℕ → List ℕ} {S : ExtLayout} {a : ℕ}
  {f : ExtConnection → ExtConnection}

/-- The pointers to cells. -/
def cellRefs (l : List ℕ) : List ExtRef := l.map .cell

/-- The addresses of cells. -/
def cellAddresses (cells : List (ℕ × ExtConnection)) : List ℕ := cells.map Prod.fst

@[simp] theorem mem_cellRefs {l : List ℕ} : ExtRef.cell a ∈ cellRefs l ↔ a ∈ l := by simp [cellRefs]

theorem cellRefs_of_mem {l : List ℕ} {x : ExtRef} (h : x ∈ cellRefs l) : ∃ b ∈ l, x = .cell b := by
  obtain ⟨b, hb, rfl⟩ := List.mem_map.mp h
  exact ⟨b, hb, rfl⟩

theorem head_notMem_cellRefs (R : ExtRing) (l : List ℕ) : R.head ∉ cellRefs l := by
  intro h
  obtain ⟨b, -, hb⟩ := cellRefs_of_mem h
  exact R.head_ne_cell b hb

/-- Memory holds these cells, without their links, and the heads. -/
structure Stored (mem : ExtMemory) (cells : List (ℕ × ExtConnection)) : Prop where
  distinct : (cellAddresses cells).Nodup
  entries : ∀ x ∈ cells, (mem (.cell x.1)).map ExtConnection.unlinked = some x.2
  others : ∀ a, a ∉ cellAddresses cells → mem (.cell a) = none
  heads : ∀ fd, (mem (.head fd)).isSome
  connLru : (mem .connLru).isSome

/-- The cells of a circle.  A head whose circle is not in use has no links. -/
structure Tied (mem : ExtMemory) (R : ExtRing) (used : Prop) (l : List ℕ) : Prop where
  circle : used → Circle mem R.kind.next R.kind.prev R.head (cellRefs l)
  unused : ¬ used → (mem R.head).map R.kind.links = some (none, none) ∧ l = []

/-- The cells are on these circles and on no other. -/
structure Ringed (mem : ExtMemory) (cells : List (ℕ × ExtConnection)) (used : ExtRing → Prop)
    (ring : ExtRing → List ℕ) : Prop where
  tied : ∀ R, Tied mem R (used R) (ring R)
  onRing : ∀ R, ∀ a ∈ ring R, a ∈ cellAddresses cells
  apart : ∀ R R' a, R.kind = R'.kind → a ∈ ring R → a ∈ ring R' → R = R'
  loose : ∀ k, ∀ a ∈ cellAddresses cells, (∀ R, R.kind = k → a ∉ ring R) →
    (mem (.cell a)).map k.links = some (none, none)

/-- The cells are on these chains. -/
structure Chained (mem : ExtMemory) (bucket : ℕ → Option ExtRef)
    (cells : List (ℕ × ExtConnection)) (chain : ℕ → List ℕ) : Prop where
  chains : ∀ h, Segment mem ExtConnection.hNext (bucket h) (cellRefs (chain h)) none
  onChain : ∀ h, ∀ a ∈ chain h, a ∈ cellAddresses cells
  distinct : ∀ h, (chain h).Nodup
  apart : ∀ h h' a, a ∈ chain h → a ∈ chain h' → h = h'

/-- The cells, the circles that are in use, and what is on the circles and on the chains. -/
@[ext]
structure ExtLayout where
  cells : List (ℕ × ExtConnection)
  used : ExtRing → Prop
  ring : ExtRing → List ℕ
  chain : ℕ → List ℕ

/-- **What memory holds.** -/
structure LaidOut (mem : ExtMemory) (bucket : ℕ → Option ExtRef) (S : ExtLayout) : Prop where
  stored : Stored mem S.cells
  ringed : Ringed mem S.cells S.used S.ring
  chained : Chained mem bucket S.cells S.chain

/-! ### What a write leaves -/

theorem Stored.of_view (h : Stored mem cells)
    (hv : ∀ x, (mem' x).map ExtConnection.unlinked = (mem x).map ExtConnection.unlinked) :
    Stored mem' cells where
  distinct := h.distinct
  entries x hx := (hv _).trans (h.entries x hx)
  others a ha := by
    have hnone := hv (.cell a)
    rw [h.others a ha] at hnone
    exact Option.map_eq_none_iff.mp hnone
  heads fd := by
    have hsome := congrArg Option.isSome (hv (.head fd))
    rw [Option.isSome_map, Option.isSome_map] at hsome
    exact hsome.trans (h.heads fd)
  connLru := by
    have hsome := congrArg Option.isSome (hv .connLru)
    rw [Option.isSome_map, Option.isSome_map] at hsome
    exact hsome.trans h.connLru

theorem Chained.of_view (h : Chained mem bucket cells chain)
    (hv : ∀ x, (mem' x).map ExtConnection.hNext = (mem x).map ExtConnection.hNext) :
    Chained mem' bucket cells chain where
  chains i := (segment_congr fun x _ => hv x).mpr (h.chains i)
  onChain := h.onChain
  distinct := h.distinct
  apart := h.apart

/-- A circle reads the links of its own cells. -/
theorem Tied.congr {R : ExtRing} {u : Prop} {l : List ℕ} (h : Tied mem R u l)
    (hv : ∀ x ∈ R.head :: cellRefs l, (mem' x).map R.kind.links = (mem x).map R.kind.links) :
    Tied mem' R u l where
  circle hu := by
    refine (h.circle hu).congr (fun x hx => ?_) fun x hx => ?_
    · have hfst := congrArg (Option.map Prod.fst) (hv x hx)
      rwa [Option.map_map, Option.map_map] at hfst
    · have hsnd := congrArg (Option.map Prod.snd) (hv x hx)
      rwa [Option.map_map, Option.map_map] at hsnd
  unused hu := ⟨(hv _ List.mem_cons_self).trans (h.unused hu).1, (h.unused hu).2⟩

theorem Ringed.of_view (h : Ringed mem cells used ring)
    (hv : ∀ x k, (mem' x).map (RingKind.links k) = (mem x).map (RingKind.links k)) :
    Ringed mem' cells used ring where
  tied R := (h.tied R).congr fun x _ => hv x R.kind
  onRing := h.onRing
  apart := h.apart
  loose k a ha hno := (hv _ k).trans (h.loose k a ha hno)

/-- A circle of another kind, or whose cells are not written to. -/
theorem Tied.relinked {R : ExtRing} {u : Prop} {l : List ℕ} {k : RingKind} {s : List ExtRef}
    (h : Tied mem R u l) (hrel : Relinked k s mem mem')
    (hs : R.kind = k → ∀ x ∈ R.head :: cellRefs l, x ∉ s) : Tied mem' R u l := by
  refine h.congr fun x hx => ?_
  by_cases hk : R.kind = k
  · rw [hrel.others x (hs hk x hx)]
  · exact hrel.view (RingKind.links_clear_of_ne hk) x

theorem Stored.relinked {k : RingKind} {s : List ExtRef} (h : Stored mem cells)
    (hrel : Relinked k s mem mem') : Stored mem' cells :=
  h.of_view fun x => hrel.view k.unlinked_clear x

theorem Chained.relinked {k : RingKind} {s : List ExtRef} (h : Chained mem bucket cells chain)
    (hrel : Relinked k s mem mem') : Chained mem' bucket cells chain :=
  h.of_view fun x => hrel.view k.hNext_clear x

/-! ### Leaving the circles of a kind -/

/-- The circles without a cell, as far as they are of a kind. -/
def ringWithout (ring : ExtRing → List ℕ) (k : RingKind) (a : ℕ) : ExtRing → List ℕ :=
  fun R => if R.kind = k then (ring R).erase a else ring R

theorem mem_ringWithout {k : RingKind} {R : ExtRing} {b : ℕ} (h : b ∈ ringWithout ring k a R) :
    b ∈ ring R := by
  unfold ringWithout at h
  split_ifs at h
  · exact List.mem_of_mem_erase h
  · exact h

/-- A circle that a cell is not on is the same without it. -/
theorem ringWithout_of_notMem {k : RingKind} (h : ∀ R, R.kind = k → a ∉ ring R) :
    ringWithout ring k a = ring := by
  funext R
  unfold ringWithout
  split_ifs with hk
  · exact List.erase_of_not_mem (h R hk)
  · rfl

theorem Ringed.nodup (h : Ringed mem cells used ring) (R : ExtRing) : (ring R).Nodup := by
  by_cases hu : used R
  · have hd := ((h.tied R).circle hu).distinct
    exact (List.nodup_map_iff fun _ _ => ExtRef.cell.inj).mp (List.nodup_cons.mp hd).2
  · rw [((h.tied R).unused hu).2]
    exact List.nodup_nil

/-- A circle with a cell on it is in use. -/
theorem Ringed.used_of_mem (h : Ringed mem cells used ring) {R : ExtRing} (ha : a ∈ ring R) :
    used R := by
  by_contra hu
  rw [((h.tied R).unused hu).2] at ha
  exact List.not_mem_nil ha

theorem Ringed.circle (h : Ringed mem cells used ring) {R : ExtRing} (hu : used R) :
    Circle mem R.kind.next R.kind.prev R.head (cellRefs (ring R)) :=
  (h.tied R).circle hu

/-- **A cell leaves its circle**, and the others stay as they are. -/
theorem Ringed.left (h : Ringed mem cells used ring) {R : ExtRing} {l₁ l₂ : List ℕ}
    (hR : ring R = l₁ ++ a :: l₂)
    (hleft : LeftCircle R.kind R.head (cellRefs l₁) (cellRefs l₂) (.cell a) mem mem') :
    Ringed mem' cells used (ringWithout ring R.kind a) := by
  have haR : a ∈ ring R := by simp [hR]
  have hnodup := h.nodup R
  have herase : (ring R).erase a = l₁ ++ l₂ := by
    rw [hR] at hnodup ⊢
    exact erase_middle hnodup
  have hset : R.head :: (cellRefs l₁ ++ .cell a :: cellRefs l₂) = R.head :: cellRefs (ring R) := by
    rw [hR, cellRefs, cellRefs, cellRefs, List.map_append, List.map_cons]
  have hrel := hleft.relinked
  rw [hset] at hrel
  refine ⟨fun R' => ?_, fun R' b hb => h.onRing R' b (mem_ringWithout hb),
    fun R' R'' b hk hb hb' => h.apart R' R'' b hk (mem_ringWithout hb) (mem_ringWithout hb'),
    fun k b hb hno => ?_⟩
  · by_cases hRR : R' = R
    · subst hRR
      rw [ringWithout, if_pos rfl, herase]
      refine ⟨fun _ => ?_, fun hu => absurd (h.used_of_mem haR) hu⟩
      rw [cellRefs, List.map_append]
      exact hleft.circle
    · have hsame : ringWithout ring R.kind a R' = ring R' := by
        unfold ringWithout
        split_ifs with hk
        · exact List.erase_of_not_mem fun hmem => hRR (h.apart R' R a hk hmem haR)
        · rfl
      rw [hsame]
      refine (h.tied R').relinked hrel fun hk x hx hxs => hRR ?_
      rcases List.mem_cons.mp hx with rfl | hx
      · rcases List.mem_cons.mp hxs with hhead | hmem
        · exact ExtRing.eq_of_head hk hhead
        · exact absurd hmem (head_notMem_cellRefs R' _)
      · obtain ⟨b, hb, rfl⟩ := cellRefs_of_mem hx
        rcases List.mem_cons.mp hxs with hhead | hmem
        · exact absurd hhead.symm (R.head_ne_cell b)
        · exact h.apart R' R b hk hb (mem_cellRefs.mp hmem)
  · by_cases hk : k = R.kind
    · subst hk
      by_cases hba : b = a
      · rw [hba]
        exact hleft.loose
      · have hold (R' : ExtRing) (hk' : R'.kind = R.kind) : b ∉ ring R' := by
          intro hmem
          refine hno R' hk' ?_
          rw [ringWithout, if_pos hk']
          exact (List.mem_erase_of_ne hba).mpr hmem
        rw [hrel.others (.cell b) ?_]
        · exact h.loose R.kind b hb hold
        · intro hmem
          rcases List.mem_cons.mp hmem with hhead | hmem
          · exact R.head_ne_cell b hhead.symm
          · exact hold R rfl (mem_cellRefs.mp hmem)
    · rw [hrel.view (RingKind.links_clear_of_ne hk)]
      refine h.loose k b hb fun R' hk' hmem => hno R' hk' ?_
      rw [ringWithout, if_neg (hk'.trans_ne hk)]
      exact hmem

/-- **A cell leaves the circle of a kind**, where it is on one. -/
theorem LaidOut.unlink (h : LaidOut mem bucket S) (k : RingKind) (ha : a ∈ cellAddresses S.cells) :
    ∃ mem', mem.unlink k (.cell a) = .ok mem' ∧
      LaidOut mem' bucket { S with ring := ringWithout S.ring k a } := by
  by_cases hon : ∃ R, R.kind = k ∧ a ∈ S.ring R
  · obtain ⟨R, rfl, hR⟩ := hon
    obtain ⟨l₁, l₂, hl⟩ := List.append_of_mem hR
    have hcircle := h.ringed.circle (h.ringed.used_of_mem hR)
    rw [hl, cellRefs, List.map_append, List.map_cons] at hcircle
    obtain ⟨mem', hrun, hleft⟩ := unlink_circle hcircle
    exact ⟨mem', hrun, h.stored.relinked hleft.relinked, h.ringed.left hl hleft,
      h.chained.relinked hleft.relinked⟩
  · have hno (R : ExtRing) (hk : R.kind = k) : a ∉ S.ring R := fun hmem => hon ⟨R, hk, hmem⟩
    refine ⟨mem, unlink_loose (h.ringed.loose k a ha hno), ?_⟩
    rw [ringWithout_of_notMem hno]
    exact h

theorem LaidOut.lruDelete (h : LaidOut mem bucket S) (ha : a ∈ cellAddresses S.cells) :
    ∃ mem', mem.lruDeleteExtConn (.cell a) = .ok mem' ∧
      LaidOut mem' bucket { S with ring := ringWithout S.ring .lru a } := by
  by_cases hon : a ∈ S.ring .lru
  · obtain ⟨l₁, l₂, hl⟩ := List.append_of_mem hon
    have hcircle := h.ringed.circle (h.ringed.used_of_mem hon)
    rw [hl, cellRefs, List.map_append, List.map_cons] at hcircle
    obtain ⟨mem', hrun, hleft⟩ := lruDelete_circle hcircle
    exact ⟨mem', hrun, h.stored.relinked hleft.relinked, h.ringed.left (R := .lru) hl hleft,
      h.chained.relinked hleft.relinked⟩
  · have hno (R : ExtRing) (hk : R.kind = .lru) : a ∉ S.ring R := by
      cases R with
      | lru => exact hon
      | outbound fd => exact absurd hk (by simp [ExtRing.kind])
      | inbound fd => exact absurd hk (by simp [ExtRing.kind])
    refine ⟨mem, lruDelete_loose (h.ringed.loose .lru a ha hno), ?_⟩
    rw [ringWithout_of_notMem hno]
    exact h

/-! ### Coming on a circle -/

/-- The circles with one cell more. -/
def ringWith (ring : ExtRing → List ℕ) (R : ExtRing) (a : ℕ) : ExtRing → List ℕ :=
  Function.update ring R (ring R ++ [a])

theorem ringWith_self (R : ExtRing) : ringWith ring R a R = ring R ++ [a] :=
  Function.update_self ..

theorem ringWith_of_ne {R R' : ExtRing} (h : R' ≠ R) : ringWith ring R a R' = ring R' :=
  Function.update_of_ne h ..

/-- **A cell comes on a circle**, and the others stay as they are. -/
theorem Ringed.joined (h : Ringed mem cells used ring) {R : ExtRing} (hu : used R)
    (ha : a ∈ cellAddresses cells)
    (hno : ∀ R', R'.kind = R.kind → a ∉ ring R')
    (hjoin : JoinedCircle R.kind R.head (cellRefs (ring R)) (.cell a) mem mem') :
    Ringed mem' cells used (ringWith ring R a) := by
  have hon (R' : ExtRing) (b : ℕ) (hb : b ∈ ringWith ring R a R') :
      b ∈ ring R' ∨ R' = R ∧ b = a := by
    by_cases hR : R' = R
    · subst hR
      rw [ringWith_self, List.mem_append, List.mem_singleton] at hb
      exact hb.imp_right fun he => ⟨rfl, he⟩
    · rw [ringWith_of_ne hR] at hb
      exact .inl hb
  have hsub (R' : ExtRing) (b : ℕ) (hb : b ∈ ring R') : b ∈ ringWith ring R a R' := by
    by_cases hR : R' = R
    · subst hR
      rw [ringWith_self]
      exact List.mem_append_left [a] hb
    · rwa [ringWith_of_ne hR]
  refine ⟨fun R' => ?_, fun R' b hb => ?_, fun R₁ R₂ b hk hb₁ hb₂ => ?_, fun k b hb hloose => ?_⟩
  · by_cases hR : R' = R
    · subst hR
      rw [ringWith_self]
      refine ⟨fun _ => ?_, fun hno => absurd hu hno⟩
      rw [cellRefs, List.map_append]
      exact hjoin.circle
    · rw [ringWith_of_ne hR]
      refine (h.tied R').relinked hjoin.relinked fun hk x hx hxs => hR ?_
      rcases List.mem_cons.mp hxs with rfl | hxs
      · rcases List.mem_cons.mp hx with hhead | hmem
        · exact absurd hhead.symm (R'.head_ne_cell a)
        · exact absurd (mem_cellRefs.mp hmem) (hno R' hk)
      · rcases List.mem_cons.mp hx with rfl | hx
        · rcases List.mem_cons.mp hxs with hhead | hmem
          · exact ExtRing.eq_of_head hk hhead
          · exact absurd hmem (head_notMem_cellRefs R' _)
        · obtain ⟨b, hb, rfl⟩ := cellRefs_of_mem hx
          rcases List.mem_cons.mp hxs with hhead | hmem
          · exact absurd hhead.symm (R.head_ne_cell b)
          · exact h.apart R' R b hk hb (mem_cellRefs.mp hmem)
  · rcases hon R' b hb with hb | ⟨-, rfl⟩
    · exact h.onRing R' b hb
    · exact ha
  · rcases hon R₁ b hb₁ with hb₁ | ⟨rfl, rfl⟩ <;> rcases hon R₂ b hb₂ with hb₂ | ⟨hR₂, hba⟩
    · exact h.apart R₁ R₂ b hk hb₁ hb₂
    · exact absurd (hba ▸ hb₁) (hno R₁ (hk.trans (congrArg _ hR₂)))
    · exact absurd hb₂ (hno R₂ hk.symm)
    · exact hR₂.symm
  · have hold (R' : ExtRing) (hk : R'.kind = k) : b ∉ ring R' :=
      fun hmem => hloose R' hk (hsub R' b hmem)
    by_cases hk : k = R.kind
    · subst hk
      rw [hjoin.relinked.others (.cell b) ?_]
      · exact h.loose R.kind b hb hold
      · intro hmem
        rcases List.mem_cons.mp hmem with hba | hmem
        · refine hloose R rfl ?_
          rw [ExtRef.cell.inj hba, ringWith_self]
          exact List.mem_append_right _ List.mem_cons_self
        · rcases List.mem_cons.mp hmem with hhead | hmem
          · exact R.head_ne_cell b hhead.symm
          · exact hold R rfl (mem_cellRefs.mp hmem)
    · rw [hjoin.relinked.view (RingKind.links_clear_of_ne hk)]
      exact h.loose k b hb hold

/-- A cell that is held is there. -/
theorem Stored.load (h : Stored mem cells) (ha : a ∈ cellAddresses cells) :
    ∃ c, mem (.cell a) = some c ∧ (a, c.unlinked) ∈ cells := by
  obtain ⟨x, hx, rfl⟩ := List.mem_map.mp ha
  obtain ⟨c, hc, hcx⟩ := Option.map_eq_some_iff.mp (h.entries x hx)
  exact ⟨c, hc, hcx ▸ hx⟩

/-- The new cell is not on the circle yet. -/
theorem notMem_circle {R : ExtRing} (hno : ∀ R', R'.kind = R.kind → a ∉ ring R') :
    ExtRef.cell a ∉ R.head :: cellRefs (ring R) := by
  intro hmem
  rcases List.mem_cons.mp hmem with hhead | hmem
  · exact R.head_ne_cell a hhead.symm
  · exact hno R rfl (mem_cellRefs.mp hmem)

/-- **A cell is put on a circle.** -/
theorem LaidOut.linkLast (h : LaidOut mem bucket S) {R : ExtRing} (hu : S.used R)
    (ha : a ∈ cellAddresses S.cells) (hno : ∀ R', R'.kind = R.kind → a ∉ S.ring R') :
    ∃ mem', mem.linkLast R.kind R.head (.cell a) = .ok mem' ∧
      LaidOut mem' bucket { S with ring := ringWith S.ring R a } := by
  obtain ⟨c, hc, -⟩ := h.stored.load ha
  obtain ⟨mem', hrun, hjoin⟩ := linkLast_circle (h.ringed.circle hu) (notMem_circle hno) hc
  exact ⟨mem', hrun, h.stored.relinked hjoin.relinked, h.ringed.joined hu ha hno hjoin,
    h.chained.relinked hjoin.relinked⟩

/-- A cell that is on no circle of a kind any more. -/
theorem notMem_ringWithout (h : ∀ R, (ring R).Nodup) {k : RingKind} {R : ExtRing}
    (hk : R.kind = k) : a ∉ ringWithout ring k a R := by
  rw [ringWithout, if_pos hk]
  exact (h R).not_mem_erase

/-- `lru_insert_ext_conn`: the cell is taken out first where it is on the circle. -/
theorem LaidOut.lruInsert (h : LaidOut mem bucket S) (hu : S.used .lru)
    (ha : a ∈ cellAddresses S.cells) :
    ∃ mem', mem.lruInsertExtConn (.cell a) = .ok mem' ∧
      LaidOut mem' bucket { S with ring := ringWith (ringWithout S.ring .lru a) .lru a } := by
  obtain ⟨mem₁, hdelete, h₁⟩ := h.lruDelete ha
  obtain ⟨c, hc, -⟩ := h₁.stored.load ha
  have hno (R : ExtRing) (hk : R.kind = .lru) : a ∉ ringWithout S.ring .lru a R :=
    notMem_ringWithout h.ringed.nodup hk
  have hloose := h₁.ringed.loose .lru a ha hno
  obtain ⟨mem', hrun, hjoin⟩ := lruInsert_circle (h₁.ringed.circle hu)
    (notMem_circle (R := .lru) hno) hc hloose
  refine ⟨mem', ?_, h₁.stored.relinked hjoin.relinked,
    h₁.ringed.joined (R := .lru) hu ha hno hjoin, h₁.chained.relinked hjoin.relinked⟩
  -- A second deletion would change nothing.
  rw [← hrun]
  simp only [lruInsertExtConn, hdelete, lruDelete_loose hloose, ok_seq]

/-! ### A head is written to -/

/-- What is not a cell makes no difference to the cells. -/
theorem Stored.of_cells (h : Stored mem cells) (hcell : ∀ a, mem' (.cell a) = mem (.cell a))
    (hsome : ∀ x, (mem' x).isSome = (mem x).isSome) : Stored mem' cells where
  distinct := h.distinct
  entries x hx := by rw [hcell, h.entries x hx]
  others a ha := (hcell a).trans (h.others a ha)
  heads fd := (hsome _).trans (h.heads fd)
  connLru := (hsome _).trans h.connLru

theorem Chained.of_cells (h : Chained mem bucket cells chain)
    (hcell : ∀ a, mem' (.cell a) = mem (.cell a)) : Chained mem' bucket cells chain where
  chains i := by
    refine (segment_congr fun x hx => ?_).mpr (h.chains i)
    obtain ⟨b, -, rfl⟩ := cellRefs_of_mem hx
    rw [hcell]
  onChain := h.onChain
  distinct := h.distinct
  apart := h.apart

/-- A circle without cells begins or ends: its head is linked to itself, or has no links. -/
theorem Ringed.setUsed (h : Ringed mem cells used ring) {R : ExtRing} {u : Prop}
    (hR : ring R = []) (hother : ∀ c k, k ≠ R.kind → RingKind.links k (f c) = RingKind.links k c)
    (hu : u → ∀ c, R.kind.links (f c) = (some R.head, some R.head))
    (hno : ¬ u → ∀ c, R.kind.links (f c) = (none, none)) (hH : (mem R.head).isSome) :
    Ringed (mem.alter R.head f) cells (Function.update used R u) ring where
  tied R' := by
    by_cases hRR : R' = R
    · subst hRR
      obtain ⟨c, hc⟩ := exists_of_isSome hH
      rw [Function.update_self, hR]
      have hfc : mem.alter R'.head f R'.head = some (f c) := by
        rw [alter_self, hc, Option.map_some]
      refine ⟨fun htrue => ?_, fun hfalse => ⟨?_, rfl⟩⟩
      · obtain ⟨hn, hp⟩ := Prod.mk.inj (hu htrue c)
        exact Circle.nil hfc hn hp
      · rw [hfc, Option.map_some, hno hfalse c]
    · rw [Function.update_of_ne hRR]
      refine (h.tied R').congr fun x hx => ?_
      by_cases hk : R'.kind = R.kind
      · rw [alter_of_ne]
        rintro rfl
        rcases List.mem_cons.mp hx with hhead | hmem
        · exact hRR (ExtRing.eq_of_head hk hhead.symm)
        · exact head_notMem_cellRefs R _ hmem
      · exact map_alter fun c => hother c _ hk
  onRing := h.onRing
  apart := h.apart
  loose k b hb hloose := by
    rw [alter_of_ne (R.head_ne_cell b).symm]
    exact h.loose k b hb hloose

theorem LaidOut.setUsed (h : LaidOut mem bucket S) {R : ExtRing} {u : Prop}
    (hR : S.ring R = [])
    (hother : ∀ c k, k ≠ R.kind → RingKind.links k (f c) = RingKind.links k c)
    (hu : u → ∀ c, R.kind.links (f c) = (some R.head, some R.head))
    (hno : ¬ u → ∀ c, R.kind.links (f c) = (none, none)) (hH : (mem R.head).isSome) :
    LaidOut (mem.alter R.head f) bucket { S with used := Function.update S.used R u } where
  stored := h.stored.of_cells (fun a => alter_of_ne (R.head_ne_cell a).symm) fun _ => alter_isSome
  ringed := h.ringed.setUsed hR hother hu hno hH
  chained := h.chained.of_cells fun a => alter_of_ne (R.head_ne_cell a).symm

/-! ### Cells come and go -/

/-- Memory after a cell was allocated or freed. -/
theorem update_of_ne_cell {x : ExtRef} {o : Option ExtConnection} (h : x ≠ .cell a) :
    Function.update mem (.cell a) o x = mem x := Function.update_of_ne h ..

/-- A circle that a cell is not on. -/
theorem Tied.update {R : ExtRing} {u : Prop} {l : List ℕ} {o : Option ExtConnection}
    (h : Tied mem R u l) (ha : a ∉ l) : Tied (Function.update mem (.cell a) o) R u l := by
  refine h.congr fun x hx => ?_
  rw [update_of_ne_cell]
  rintro rfl
  rcases List.mem_cons.mp hx with hhead | hmem
  · exact R.head_ne_cell a hhead.symm
  · exact ha (mem_cellRefs.mp hmem)

/-- A chain that a cell is not on. -/
theorem segment_update {p : Option ExtRef} {l : List ℕ} {o : Option ExtConnection}
    (h : Segment mem ExtConnection.hNext p (cellRefs l) none) (ha : a ∉ l) :
    Segment (Function.update mem (.cell a) o) ExtConnection.hNext p (cellRefs l) none := by
  refine (segment_congr fun x hx => ?_).mpr h
  rw [update_of_ne_cell]
  rintro rfl
  exact ha (mem_cellRefs.mp hx)

/-- **`calloc`.** -/
theorem LaidOut.calloc (h : LaidOut mem bucket S) (ha : a ∉ cellAddresses S.cells) :
    LaidOut (Function.update mem (.cell a) (some {})) bucket
      { S with cells := S.cells ++ [(a, ({} : ExtConnection))] } := by
  have haddr : cellAddresses (S.cells ++ [(a, ({} : ExtConnection))]) =
      cellAddresses S.cells ++ [a] := by
    simp [cellAddresses]
  have hsub {b : ℕ} (hb : b ∈ cellAddresses S.cells) :
      b ∈ cellAddresses (S.cells ++ [(a, ({} : ExtConnection))]) := by
    rw [haddr]
    exact List.mem_append_left [a] hb
  have hring (R : ExtRing) : a ∉ S.ring R := fun hmem => ha (h.ringed.onRing R a hmem)
  have hchain (i : ℕ) : a ∉ S.chain i := fun hmem => ha (h.chained.onChain i a hmem)
  refine ⟨⟨?_, fun x hx => ?_, fun b hb => ?_, fun fd => ?_, ?_⟩,
    ⟨fun R => (h.ringed.tied R).update (hring R), fun R b hb => hsub (h.ringed.onRing R b hb),
      h.ringed.apart, fun k b hb hloose => ?_⟩,
    ⟨fun i => segment_update (h.chained.chains i) (hchain i),
      fun i b hb => hsub (h.chained.onChain i b hb), h.chained.distinct, h.chained.apart⟩⟩
  · rw [haddr]
    refine List.nodup_append.mpr ⟨h.stored.distinct, List.nodup_singleton a, ?_⟩
    rintro x hx y hy rfl
    exact ha (List.mem_singleton.mp hy ▸ hx)
  · rcases List.mem_append.mp hx with hx | hx
    · have hne : ExtRef.cell x.1 ≠ .cell a := by
        intro he
        exact ha (ExtRef.cell.inj he ▸ List.mem_map_of_mem hx)
      rw [update_of_ne_cell hne]
      exact h.stored.entries x hx
    · rw [List.mem_singleton.mp hx, Function.update_self]
      rfl
  · rw [haddr, List.mem_append, List.mem_singleton, not_or] at hb
    rw [update_of_ne_cell (fun he => hb.2 (ExtRef.cell.inj he))]
    exact h.stored.others b hb.1
  · rw [update_of_ne_cell (by simp)]
    exact h.stored.heads fd
  · rw [update_of_ne_cell (by simp)]
    exact h.stored.connLru
  · rw [haddr, List.mem_append, List.mem_singleton] at hb
    by_cases hba : b = a
    · rw [hba, Function.update_self]
      cases k <;> rfl
    · rw [update_of_ne_cell (fun he => hba (ExtRef.cell.inj he))]
      exact h.ringed.loose k b (hb.resolve_right hba) hloose

/-- **`free`** of a cell that nothing is linked to. -/
theorem LaidOut.free (h : LaidOut mem bucket S) (hring : ∀ R, a ∉ S.ring R)
    (hchain : ∀ i, a ∉ S.chain i) :
    LaidOut (Function.update mem (.cell a) none) bucket
      { S with cells := S.cells.filter fun x => x.1 ≠ a } := by
  have haddr {b : ℕ} : b ∈ cellAddresses (S.cells.filter fun x => x.1 ≠ a) ↔
      b ∈ cellAddresses S.cells ∧ b ≠ a := by
    simp only [cellAddresses, List.mem_map, List.mem_filter, decide_eq_true_eq]
    constructor
    · rintro ⟨x, ⟨hx, hne⟩, rfl⟩
      exact ⟨⟨x, hx, rfl⟩, hne⟩
    · rintro ⟨⟨x, hx, rfl⟩, hne⟩
      exact ⟨x, ⟨hx, hne⟩, rfl⟩
  have hne {b : ℕ} (hb : b ≠ a) : ExtRef.cell b ≠ .cell a := fun he => hb (ExtRef.cell.inj he)
  refine ⟨⟨?_, fun x hx => ?_, fun b hb => ?_, fun fd => ?_, ?_⟩,
    ⟨fun R => (h.ringed.tied R).update (hring R),
      fun R b hb => haddr.mpr ⟨h.ringed.onRing R b hb, fun he => hring R (he ▸ hb)⟩,
      h.ringed.apart, fun k b hb hloose => ?_⟩,
    ⟨fun i => segment_update (h.chained.chains i) (hchain i), fun i b hb => haddr.mpr
      ⟨h.chained.onChain i b hb, fun he => hchain i (he ▸ hb)⟩, h.chained.distinct,
      h.chained.apart⟩⟩
  · exact h.stored.distinct.sublist (List.filter_sublist.map Prod.fst)
  · obtain ⟨hx, hxa⟩ := List.mem_filter.mp hx
    rw [update_of_ne_cell (hne (of_decide_eq_true hxa))]
    exact h.stored.entries x hx
  · by_cases hba : b = a
    · rw [hba, Function.update_self]
    · rw [update_of_ne_cell (hne hba)]
      exact h.stored.others b fun hmem => hb (haddr.mpr ⟨hmem, hba⟩)
  · rw [update_of_ne_cell (by simp)]
    exact h.stored.heads fd
  · rw [update_of_ne_cell (by simp)]
    exact h.stored.connLru
  · obtain ⟨hb, hba⟩ := haddr.mp hb
    rw [update_of_ne_cell (hne hba)]
    exact h.ringed.loose k b hb hloose

/-- The cells after one was written to. -/
def cellsWrite (cells : List (ℕ × ExtConnection)) (a : ℕ)
    (f : ExtConnection → ExtConnection) : List (ℕ × ExtConnection) :=
  cells.map fun x => if x.1 = a then (x.1, f x.2) else x

@[simp] theorem cellAddresses_write :
    cellAddresses (cellsWrite cells a f) = cellAddresses cells := by
  simp only [cellAddresses, cellsWrite, List.map_map]
  refine List.map_congr_left fun x _ => ?_
  simp only [Function.comp]
  split_ifs <;> rfl

/-- **A write to what is not a link.** -/
theorem LaidOut.write (h : LaidOut mem bucket S)
    (hf : ∀ c, (f c).unlinked = f c.unlinked) (hnext : ∀ c, (f c).hNext = c.hNext)
    (hlinks : ∀ c k, RingKind.links k (f c) = RingKind.links k c) :
    LaidOut (mem.alter (.cell a) f) bucket { S with cells := cellsWrite S.cells a f } := by
  have hringed : Ringed (mem.alter (.cell a) f) S.cells S.used S.ring :=
    h.ringed.of_view fun x k => map_alter fun c => hlinks c k
  have hchained : Chained (mem.alter (.cell a) f) bucket S.cells S.chain :=
    h.chained.of_view fun x => map_alter hnext
  refine ⟨⟨?_, fun x hx => ?_, fun b hb => ?_, fun fd => alter_isSome.trans (h.stored.heads fd),
      alter_isSome.trans h.stored.connLru⟩,
    ⟨hringed.tied, fun R b hb => ?_, hringed.apart, fun k b hb => ?_⟩,
    ⟨hchained.chains, fun i b hb => ?_, hchained.distinct, hchained.apart⟩⟩
  · rw [cellAddresses_write]
    exact h.stored.distinct
  · obtain ⟨y, hy, rfl⟩ := List.mem_map.mp hx
    obtain ⟨c, hc, hcy⟩ := Option.map_eq_some_iff.mp (h.stored.entries y hy)
    split_ifs with hya
    · rw [hya] at hc ⊢
      rw [alter_self, hc, Option.map_some, Option.map_some, hf, hcy]
    · rw [alter_of_ne fun he => hya (ExtRef.cell.inj he)]
      exact h.stored.entries y hy
  · rw [cellAddresses_write] at hb
    have hnone := h.stored.others b hb
    unfold alter
    split_ifs
    · rw [hnone, Option.map_none]
    · exact hnone
  · rw [cellAddresses_write]
    exact h.ringed.onRing R b hb
  · rw [cellAddresses_write] at hb
    exact hringed.loose k b hb
  · rw [cellAddresses_write]
    exact h.chained.onChain i b hb

end Server
end Teleproto3
