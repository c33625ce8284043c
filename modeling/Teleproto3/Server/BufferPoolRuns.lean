/-
# Every run of the pool

`BufferPool.Sound P held` ties the pool to the buffers that are held: these are the buffers whose
leaf carries 0, each once.  A call of `alloc_msg_buffer` adds one that was free, of a size that is
large enough, and comes back empty only where every buffer of the size is held and there can be no
further chunk; `free_msg_buffer` takes one away.

`pool_run` says that over every run, with any neighbours and any draws, no assertion fails, no loop
is endless, and no two of the buffers that are held overlap in memory.
-/

import Mathlib.Tactic.IntervalCases
import Teleproto3.Lib.Refinement
import Teleproto3.Server.BufferPool
import Teleproto3.Server.BufferTaking

namespace Teleproto3
namespace Server

open Lib

/-! ### A chunk -/

namespace BufferChunk

variable {C : BufferChunk} {c : ℕ → ℕ} {draw : ℕ} {near : Option ℕ}

/-- **A buffer is taken from a chunk**: near another the next free one behind it, and otherwise
the free one with as many before it as were drawn. -/
theorem takeBuffer_spec (hC : C.Cut) (hc : C.Counts) (hpos : C.freeCnt 1 ≠ 0)
    (hdraw : draw < 2 ^ 31)
    (hnear : ∀ X, near = some X → ∃ x < C.totBuffers, X = C.bufferAt x ∧
      C.freeCnt (C.twoPower + x) = 0) :
    ∃ c y, C.takeBuffer near draw = .ok (C.withCounts c, y) ∧ y < C.totBuffers ∧
      C.freeCnt (C.twoPower + y) ≠ 0 ∧ (C.withCounts c).Counts ∧ c (C.twoPower + y) = 0 ∧
      (∀ z, z ≠ y → z < C.twoPower → c (C.twoPower + z) = C.freeCnt (C.twoPower + z)) ∧
      (∀ x ≤ C.totBuffers, near = some (C.bufferAt x) → NextFree C.freeCnt C.twoPower x y) ∧
      (near = none → RankedFree C.freeCnt C.twoPower 0 C.twoPower
        (draw * min (C.freeCnt 1) 16 / 2 ^ 31) y) := by
  have hbuffer {y : ℕ} (hy : y < C.twoPower) (hfree : C.freeCnt (C.twoPower + y) ≠ 0) :
      y < C.totBuffers := by
    by_contra hge
    exact hfree (hc.beyond y (by omega) hy)
  have hcheck {y : ℕ} (hy : y < C.totBuffers) :
      assertBuffer (0 ≤ ((C.twoPower + y : ℕ) : ℤ) - C.twoPower ∧
        ((C.twoPower + y : ℕ) : ℤ) - C.twoPower < C.totBuffers) = .ok () :=
    if_pos (by omega)
  have hno (y : ℕ) : (((C.twoPower + y : ℕ) : ℤ) - C.twoPower).toNat = y := by omega
  cases near with
  | none =>
    obtain ⟨c, y, hrun, hy, hranked, hs⟩ := takeRank_spec hC hc hdraw hpos
    have hlt := hbuffer hy hranked.free
    obtain ⟨hcounts, hself, hother⟩ := hc.take hC hy hranked.free hs
    refine ⟨c, y, ?_, hlt, hranked.free, hcounts, hself, hother, fun _ _ h => ?_, fun _ => hranked⟩
    · simp only [takeBuffer, hrun]
      show (assertBuffer _).bind _ = _
      rw [hcheck hlt, ok_bind, hno]
      rfl
    · cases h
  | some X =>
    obtain ⟨x, hx, rfl, hused⟩ := hnear X rfl
    obtain ⟨c, y, hrun, hy, hnext, hs⟩ := takeNeighbor_spec hC hc hx hused hpos
    have hfree : C.freeCnt (C.twoPower + y) ≠ 0 := by
      rcases hnext with hfirst | ⟨-, hfirst⟩
      · exact hfirst.free
      · exact hfirst.free
    have hlt := hbuffer hy hfree
    obtain ⟨hcounts, hself, hother⟩ := hc.take hC hy hfree hs
    refine ⟨c, y, ?_, hlt, hfree, hcounts, hself, hother, fun x' hx' h => ?_, fun h => ?_⟩
    · simp only [takeBuffer, hC.getBufferNo_bufferAt hx.le]
      show ((C.takeNeighbor x).bind _ : Except BufferFault _) = _
      rw [hrun, ok_bind]
      show (assertBuffer _).bind _ = _
      rw [hcheck hlt, ok_bind, hno]
      rfl
    · have heq : x = x' := by
        have h1 := hC.getBufferNo_bufferAt hx.le
        have h2 := hC.getBufferNo_bufferAt hx'
        rw [Option.some.inj h, h2] at h1
        exact (Except.ok.inj h1).symm
      exact heq ▸ hnext
    · cases h

end BufferChunk

/-! ### The pool and what is held -/

/-- What `malloc` gives out: blocks that end, and that do not overlap. -/
structure Blocks (malloc : ℕ → Option ℕ) : Prop where
  fits : ∀ n a, malloc n = some a → a + MSG_BUFFERS_CHUNK_SIZE < 2 ^ 64
  apart : ∀ m n a b, m ≠ n → malloc m = some a → malloc n = some b →
    a + MSG_BUFFERS_CHUNK_SIZE ≤ b ∨ b + MSG_BUFFERS_CHUNK_SIZE ≤ a

namespace BufferPool

/-- Where every chunk stands in memory. -/
structure Placed (P : BufferPool) (block : ℕ → ℕ → ℕ) : Prop where
  within : ∀ si c C, (P.chunks si)[c]? = some C →
    block si c < P.mallocs ∧ ∃ a, P.malloc (block si c) = some a ∧ C.Within a
  injective : ∀ si c si' c', c < (P.chunks si).length → c' < (P.chunks si').length →
    block si c = block si' c' → si = si' ∧ c = c'

/-- **The pool is sound, and `held` is what it has handed out.** -/
structure Sound (P : BufferPool) (held : List BufferRef) : Prop where
  cut : ∀ si, ∀ C ∈ P.chunks si, C.Cut ∧ C.Counts ∧ C.bufferSize = bufferSizeOf si
  save : ∀ si c, P.chunkSave si = some c → c < (P.chunks si).length
  placed : ∃ block, P.Placed block
  blocks : Blocks P.malloc
  drawn : ∀ n, P.draws n < 2 ^ 31
  limit : P.allocatedBufferChunks ≤ P.maxBufferChunks
  count : P.allocatedBufferChunks = ∑ si ∈ Finset.range 5, (P.chunks si).length
  nodup : held.Nodup
  used : ∀ X, X ∈ held ↔ P.Used X

variable {P Q : BufferPool} {held : List BufferRef} {si c : ℕ} {C : BufferChunk} {X : BufferRef}

theorem chunkAt_eq (h : (P.chunks si)[c]? = some C) : P.chunkAt si c = .ok C := by
  simp only [chunkAt, h]

theorem sizeIndexLoop_le (sizeHint : ℤ) (n : ℕ) : sizeIndexLoop sizeHint n ≤ n := by
  induction n with
  | zero => exact le_rfl
  | succ n ih =>
    rw [sizeIndexLoop]
    split_ifs
    · omega
    · exact le_rfl

theorem sizeIndex_lt (sizeHint : ℤ) : sizeIndex sizeHint < 5 := by
  have h : DEFAULT_BUFFER_SIZES.length = 5 := rfl
  have hle := sizeIndexLoop_le sizeHint (DEFAULT_BUFFER_SIZES.length - 1)
  rw [sizeIndex]
  split_ifs <;> omega

/-- The size taken is the smallest that is large enough, and the largest where none is. -/
theorem sizeIndexLoop_spec (sizeHint : ℤ) (n : ℕ) :
    (∀ si, sizeIndexLoop sizeHint n ≤ si → si < n → sizeHint ≤ bufferSizeOf si) ∧
      (0 < sizeIndexLoop sizeHint n →
        (bufferSizeOf (sizeIndexLoop sizeHint n - 1) : ℤ) < sizeHint) := by
  induction n with
  | zero => exact ⟨fun si _ h => absurd h (Nat.not_lt_zero si), fun h => absurd h (lt_irrefl 0)⟩
  | succ n ih =>
    rw [sizeIndexLoop]
    by_cases hle : sizeHint ≤ bufferSizeOf n
    · rw [if_pos hle]
      refine ⟨fun si h1 h2 => ?_, ih.2⟩
      by_cases hn : si = n
      · exact hn ▸ hle
      · exact ih.1 si h1 (by omega)
    · rw [if_neg hle]
      refine ⟨fun si h1 h2 => by omega, fun _ => ?_⟩
      rw [Nat.add_sub_cancel]
      omega

theorem bufferSizeOf_bounds (h : si < 5) : 16 ≤ bufferSizeOf si ∧ bufferSizeOf si ≤ 2 ^ 20 - 16 := by
  interval_cases si <;> decide

/-- The loop at a chunk with a free buffer. -/
theorem searchLoop_found {CF : Option ℕ} {f : ℕ} (hC : (P.chunks si)[c]? = some C)
    (hfree : C.freeCnt 1 ≠ 0) : P.searchLoop si CF (f + 1) (some c) = .ok (some c) := by
  rw [searchLoop, chunkAt_eq hC]
  show (if C.freeCnt 1 = 0 then _ else _) = _
  rw [if_neg hfree]
  rfl

/-- The loop at a chunk without one. -/
theorem searchLoop_next {CF : Option ℕ} {f : ℕ} (hC : (P.chunks si)[c]? = some C)
    (hfree : C.freeCnt 1 = 0) : P.searchLoop si CF (f + 1) (some c) =
      if chNext (P.chunks si).length (some c) = CF then .ok none
      else P.searchLoop si CF f (chNext (P.chunks si).length (some c)) := by
  rw [searchLoop, chunkAt_eq hC]
  show (if C.freeCnt 1 = 0 then _ else _) = _
  rw [if_pos hfree]
  rfl

/-- The loop over the chunks of a size, from one behind the first it looked at. -/
theorem searchLoop_above {hint f : ℕ} (hh : hint < c) (hc : c < (P.chunks si).length)
    (hf : c ≤ hint + f) :
    (∃ d, P.searchLoop si (some hint) f (some c) = .ok (some d) ∧
        ∃ C, (P.chunks si)[d]? = some C ∧ C.freeCnt 1 ≠ 0) ∨
      P.searchLoop si (some hint) f (some c) = .ok none ∧
        ∀ d, hint < d → d ≤ c → ∀ C, (P.chunks si)[d]? = some C → C.freeCnt 1 = 0 := by
  induction f generalizing c with
  | zero => omega
  | succ f ih =>
    obtain ⟨c, rfl⟩ := Nat.exists_eq_succ_of_ne_zero (by omega : c ≠ 0)
    obtain ⟨C, hC⟩ : ∃ C, (P.chunks si)[c + 1]? = some C := ⟨_, List.getElem?_eq_getElem hc⟩
    by_cases hfree : C.freeCnt 1 = 0
    · rw [searchLoop_next hC hfree, show chNext _ (some (c + 1)) = some c from rfl]
      by_cases hlast : c = hint
      · subst hlast
        refine .inr ⟨if_pos rfl, fun d h1 h2 D hD => ?_⟩
        obtain rfl : d = c + 1 := by omega
        exact Option.some.inj (hC.symm.trans hD) ▸ hfree
      · rw [if_neg fun h => hlast (Option.some.inj h)]
        rcases ih (c := c) (by omega) (by omega) (by omega) with hfound | ⟨hnone, hall⟩
        · exact .inl hfound
        · refine .inr ⟨hnone, fun d h1 h2 D hD => ?_⟩
          by_cases hd : d = c + 1
          · subst hd
            exact Option.some.inj (hC.symm.trans hD) ▸ hfree
          · exact hall d h1 (by omega) D hD
    · exact .inl ⟨c + 1, searchLoop_found hC hfree, C, hC, hfree⟩

/-- **The search finds a chunk with a free buffer** if the size has one. -/
theorem searchLoop_spec {hint f : ℕ} (hh : hint < (P.chunks si).length) (hc : c ≤ hint)
    (hf : (P.chunks si).length + c < hint + f) :
    (∃ d, P.searchLoop si (some hint) f (some c) = .ok (some d) ∧
        ∃ C, (P.chunks si)[d]? = some C ∧ C.freeCnt 1 ≠ 0) ∨
      P.searchLoop si (some hint) f (some c) = .ok none ∧
        ∀ d C, d ≤ c ∨ hint < d → (P.chunks si)[d]? = some C → C.freeCnt 1 = 0 := by
  obtain ⟨C, hC⟩ : ∃ C, (P.chunks si)[c]? = some C := ⟨_, List.getElem?_eq_getElem (by omega)⟩
  obtain ⟨f, rfl⟩ := Nat.exists_eq_succ_of_ne_zero (by omega : f ≠ 0)
  by_cases hfree : C.freeCnt 1 = 0
  case neg => exact .inl ⟨c, searchLoop_found hC hfree, C, hC, hfree⟩
  rw [searchLoop_next hC hfree]
  induction c generalizing f C with
  | zero =>
    -- behind the oldest chunk comes the head, and behind that the newest
    obtain ⟨f, rfl⟩ := Nat.exists_eq_succ_of_ne_zero (by omega : f ≠ 0)
    have hlen : (P.chunks si).length ≠ 0 := by omega
    rw [chNext, if_neg (by simp), searchLoop, chNext, if_neg hlen]
    simp only [Option.some.injEq]
    by_cases hlast : (P.chunks si).length - 1 = hint
    · rw [if_pos hlast]
      refine .inr ⟨rfl, fun d D hd hD => ?_⟩
      have hdl := (List.getElem?_eq_some_iff.mp hD).1
      obtain rfl : d = 0 := by omega
      exact Option.some.inj (hC.symm.trans hD) ▸ hfree
    · rw [if_neg hlast]
      have habove : hint < (P.chunks si).length - 1 := by omega
      have hnewest : (P.chunks si).length - 1 < (P.chunks si).length := by omega
      rcases searchLoop_above (f := f) habove hnewest (by omega) with hfound | ⟨hnone, hall⟩
      · exact .inl hfound
      · refine .inr ⟨hnone, fun d D hd hD => ?_⟩
        have hdl := (List.getElem?_eq_some_iff.mp hD).1
        by_cases hd0 : d = 0
        · subst hd0
          exact Option.some.inj (hC.symm.trans hD) ▸ hfree
        · exact hall d (by omega) (by omega) D hD
  | succ c ih =>
    rw [show chNext _ (some (c + 1)) = some c from rfl, if_neg fun h => by
      have := Option.some.inj h
      omega]
    obtain ⟨D, hD⟩ : ∃ D, (P.chunks si)[c]? = some D := ⟨_, List.getElem?_eq_getElem (by omega)⟩
    obtain ⟨f, rfl⟩ := Nat.exists_eq_succ_of_ne_zero (by omega : f ≠ 0)
    by_cases hDfree : D.freeCnt 1 = 0
    case neg => exact .inl ⟨c, searchLoop_found hD hDfree, D, hD, hDfree⟩
    rw [searchLoop_next hD hDfree]
    rcases ih (by omega) D hD f (by omega) hDfree with hfound | ⟨hnone, hall⟩
    · exact .inl hfound
    · refine .inr ⟨hnone, fun d E hd hE => ?_⟩
      by_cases hdc : d = c + 1
      · subst hdc
        exact Option.some.inj (hC.symm.trans hE) ▸ hfree
      · exact hall d E (by omega) hE

/-- A size of which no chunk was used last has none. -/
def Saved (P : BufferPool) (si : ℕ) : Prop := P.chunkSave si = none → P.chunks si = []

/-- The chunks when one of them was written. -/
theorem getElem?_update {s d : ℕ} {C' D : BufferChunk} (hC : (P.chunks si)[c]? = some C) :
    (Function.update P.chunks si ((P.chunks si).set c C') s)[d]? = some D ↔
      (s = si ∧ d = c ∧ D = C') ∨ (¬ (s = si ∧ d = c) ∧ (P.chunks s)[d]? = some D) := by
  have hlt := (List.getElem?_eq_some_iff.mp hC).1
  by_cases hs : s = si
  · subst hs
    rw [Function.update_self]
    by_cases hd : d = c
    · subst hd
      rw [List.getElem?_set_self hlt]
      simp [eq_comm]
    · rw [List.getElem?_set_ne (Ne.symm hd)]
      simp [hd]
  · rw [Function.update_of_ne hs]
    simp [hs]

theorem length_update {s : ℕ} {C' : BufferChunk} :
    (Function.update P.chunks si ((P.chunks si).set c C') s).length = (P.chunks s).length := by
  by_cases hs : s = si
  · subst hs
    rw [Function.update_self, List.length_set]
  · rw [Function.update_of_ne hs]

/-- **The counts of one chunk are written**, as the buffers that are held from then on have it. -/
theorem Sound.write (h : P.Sound held) (hC : (P.chunks si)[c]? = some C) {cnt : ℕ → ℕ}
    (held' : List BufferRef) (save : ℕ → Option ℕ) (drawn : ℕ)
    (hcounts : (C.withCounts cnt).Counts) (hnodup : held'.Nodup)
    (hhere : ∀ y, ⟨si, c, y⟩ ∈ held' ↔ y < C.totBuffers ∧ cnt (C.twoPower + y) = 0)
    (hthere : ∀ X, ¬ (X.si = si ∧ X.chunk = c) → (X ∈ held' ↔ X ∈ held))
    (hsave : ∀ s d, save s = some d → d < (P.chunks s).length) :
    Sound { P with
      chunks := Function.update P.chunks si ((P.chunks si).set c (C.withCounts cnt))
      chunkSave := save
      drawn := drawn } held' where
  cut s D hD := by
    obtain ⟨d, hd⟩ := List.mem_iff_getElem?.mp hD
    obtain ⟨rfl, -, rfl⟩ | ⟨-, hd⟩ := (getElem?_update hC).mp hd
    · obtain ⟨hcut, -, hsize⟩ := h.cut s C (List.mem_of_getElem? hC)
      exact ⟨hcut.withCounts, hcounts, hsize⟩
    · exact h.cut s D (List.mem_of_getElem? hd)
  save s d hd := length_update.symm ▸ hsave s d hd
  placed := by
    obtain ⟨block, hwithin, hinj⟩ := h.placed
    refine ⟨block, ⟨fun s d D hD => ?_, fun s d s' d' hd hd' => ?_⟩⟩
    · obtain ⟨rfl, rfl, rfl⟩ | ⟨-, hd⟩ := (getElem?_update hC).mp hD
      · obtain ⟨hlt, a, ha, hin⟩ := hwithin s d C hC
        exact ⟨hlt, a, ha, hin.counts, hin.buffers⟩
      · exact hwithin s d D hd
    · exact hinj s d s' d' (length_update ▸ hd) (length_update ▸ hd')
  blocks := h.blocks
  drawn := h.drawn
  limit := h.limit
  count := by
    rw [h.count]
    exact Finset.sum_congr rfl fun s _ => length_update.symm
  nodup := hnodup
  used X := by
    by_cases hX : X.si = si ∧ X.chunk = c
    · obtain ⟨s, d, y⟩ := X
      obtain ⟨rfl, rfl⟩ : s = si ∧ d = c := hX
      rw [hhere]
      constructor
      · rintro ⟨hy, hzero⟩
        exact ⟨C.withCounts cnt, (getElem?_update hC).mpr (.inl ⟨rfl, rfl, rfl⟩), hy, hzero⟩
      · rintro ⟨D, hD, hy, hzero⟩
        obtain ⟨-, -, rfl⟩ | ⟨hne, -⟩ := (getElem?_update hC).mp hD
        · exact ⟨hy, hzero⟩
        · exact absurd ⟨rfl, rfl⟩ hne
    · rw [hthere X hX, h.used]
      constructor
      · rintro ⟨D, hD, hy, hzero⟩
        exact ⟨D, (getElem?_update hC).mpr (.inr ⟨hX, hD⟩), hy, hzero⟩
      · rintro ⟨D, hD, hy, hzero⟩
        obtain ⟨h1, h2, -⟩ | ⟨-, hD⟩ := (getElem?_update hC).mp hD
        · exact absurd ⟨h1, h2⟩ hX
        · exact ⟨D, hD, hy, hzero⟩

/-- What is held of a chunk, in terms of its counts. -/
theorem Sound.held_iff (h : P.Sound held) (hC : (P.chunks si)[c]? = some C) {y : ℕ} :
    ⟨si, c, y⟩ ∈ held ↔ y < C.totBuffers ∧ C.freeCnt (C.twoPower + y) = 0 := by
  rw [h.used]
  constructor
  · rintro ⟨D, hD, hy, hzero⟩
    obtain rfl := Option.some.inj (hC.symm.trans hD)
    exact ⟨hy, hzero⟩
  · rintro ⟨hy, hzero⟩
    exact ⟨C, hC, hy, hzero⟩

/-- The neighbour is a buffer of the chunk that is held. -/
theorem Sound.nearAddress_used (h : P.Sound held) (hC : (P.chunks si)[c]? = some C)
    {neighbor : Option BufferRef} (hneighbor : ∀ X, neighbor = some X → X ∈ held) (X : ℕ)
    (hX : nearAddress neighbor si c C = some X) :
    ∃ x < C.totBuffers, X = C.bufferAt x ∧ C.freeCnt (C.twoPower + x) = 0 := by
  unfold nearAddress at hX
  split at hX
  · next N =>
    split_ifs at hX with hsame
    obtain ⟨s, d, y⟩ := N
    obtain ⟨rfl, rfl⟩ : s = si ∧ d = c := hsame
    obtain ⟨hy, hzero⟩ := (h.held_iff hC).mp (hneighbor _ rfl)
    exact ⟨y, hy, (Option.some.inj hX).symm, hzero⟩
  · exact nomatch hX

theorem takeFrom_eq (hC : (P.chunks si)[c]? = some C) (hpos : C.freeCnt 1 ≠ 0)
    {neighbor : Option BufferRef} {C' : BufferChunk} {y : ℕ}
    (hrun : C.takeBuffer (nearAddress neighbor si c C) (P.draws P.drawn) = .ok (C', y)) :
    P.takeFrom neighbor si c = .ok (⟨si, c, y⟩, { P with
      chunks := Function.update P.chunks si ((P.chunks si).set c C')
      chunkSave := Function.update P.chunkSave si (some c)
      drawn := if nearAddress neighbor si c C = none then P.drawn + 1 else P.drawn }) := by
  have hassert : assertBuffer (C.freeCnt 1 ≠ 0) = .ok () := if_pos hpos
  simp only [BufferPool.takeFrom, chunkAt_eq hC]
  show (assertBuffer (C.freeCnt 1 ≠ 0)).bind _ = _
  rw [hassert, ok_bind]
  show (C.takeBuffer _ _).bind _ = _
  rw [hrun]
  rfl

/-- **A buffer is taken from a chunk that has a free one.** -/
theorem Sound.takeFrom (h : P.Sound held) (hC : (P.chunks si)[c]? = some C)
    (hpos : C.freeCnt 1 ≠ 0) {neighbor : Option BufferRef}
    (hneighbor : ∀ X, neighbor = some X → X ∈ held) :
    ∃ X Q, P.takeFrom neighbor si c = .ok (X, Q) ∧ X.si = si ∧ X ∉ held ∧
      Q.Sound (X :: held) ∧ Q.chunkSave si = some c ∧
      ∀ s, s ≠ si → Q.chunkSave s = P.chunkSave s ∧ Q.chunks s = P.chunks s := by
  obtain ⟨hcut, hcounts, -⟩ := h.cut si C (List.mem_of_getElem? hC)
  have hlt := (List.getElem?_eq_some_iff.mp hC).1
  obtain ⟨cnt, y, hrun, hy, hfree, hcounts', hself, hother, -⟩ :=
    BufferChunk.takeBuffer_spec hcut hcounts hpos (h.drawn P.drawn)
      (h.nearAddress_used hC hneighbor)
  have hfits := hcut.fits
  have hnot : (⟨si, c, y⟩ : BufferRef) ∉ held := fun hmem => hfree ((h.held_iff hC).mp hmem).2
  refine ⟨⟨si, c, y⟩, _, takeFrom_eq hC hpos hrun, rfl, hnot, h.write hC (⟨si, c, y⟩ :: held)
    (Function.update P.chunkSave si (some c))
    (if nearAddress neighbor si c C = none then P.drawn + 1 else P.drawn) hcounts'
    (List.nodup_cons.mpr ⟨hnot, h.nodup⟩) (fun z => ?_) (fun X hX => ?_) (fun s d hd => ?_),
    Function.update_self .., fun s hs => ⟨Function.update_of_ne hs .., Function.update_of_ne hs ..⟩⟩
  · by_cases hz : z = y
    · subst hz
      simp [hy, hself]
    · have hne : (⟨si, c, z⟩ : BufferRef) ≠ ⟨si, c, y⟩ := fun heq => hz (BufferRef.mk.inj heq).2.2
      rw [List.mem_cons, or_iff_right hne, h.held_iff hC]
      refine and_congr_right fun hzt => ?_
      rw [hother z hz (by omega)]
  · refine ⟨fun hmem => ?_, List.mem_cons_of_mem _⟩
    rcases List.mem_cons.mp hmem with rfl | hmem
    · exact absurd ⟨rfl, rfl⟩ hX
    · exact hmem
  · by_cases hs : s = si
    · subst hs
      rw [Function.update_self] at hd
      exact Option.some.inj hd ▸ hlt
    · rw [Function.update_of_ne hs] at hd
      exact h.save s d hd

/-- **A buffer is given back.** -/
theorem Sound.freeMsgBuffer (h : P.Sound held) (hX : X ∈ held) :
    ∃ Q, P.freeMsgBuffer X = .ok Q ∧ Q.Sound (held.erase X) ∧ Q.chunkSave = P.chunkSave ∧
      ∀ s, (Q.chunks s).length = (P.chunks s).length := by
  obtain ⟨si, c, y⟩ := X
  obtain ⟨C, hC, hy, hzero⟩ := (h.used _).mp hX
  obtain ⟨hcut, hcounts, -⟩ := h.cut si C (List.mem_of_getElem? hC)
  obtain ⟨cnt, hrun, hs⟩ := BufferChunk.freeStdMsgBuffer_spec hcut hcounts hy hzero
  obtain ⟨hcounts', hself, hother⟩ := hcounts.give hcut hy hzero hs
  have hfits := hcut.fits
  refine ⟨_, ?_, h.write hC (held.erase ⟨si, c, y⟩) P.chunkSave P.drawn
    hcounts' (h.nodup.erase _) (fun z => ?_) (fun Z hZ => ?_) h.save, rfl,
    fun s => length_update⟩
  · have hat : P.chunkAt si c = .ok C := chunkAt_eq hC
    simp only [BufferPool.freeMsgBuffer, hat]
    show (C.freeStdMsgBuffer (C.bufferAt y)).bind _ = _
    rw [hrun]
    rfl
  · rw [h.nodup.mem_erase_iff, h.held_iff hC]
    by_cases hz : z = y
    · subst hz
      simp [hself]
    · have hne : (⟨si, c, z⟩ : BufferRef) ≠ ⟨si, c, y⟩ := fun heq => hz (BufferRef.mk.inj heq).2.2
      rw [and_iff_right hne]
      refine and_congr_right fun hzt => ?_
      rw [hother z hz (by omega)]
  · rw [h.nodup.mem_erase_iff, and_iff_right]
    rintro rfl
    exact hZ ⟨rfl, rfl⟩

/-- What a call of `alloc_new_msg_buffers_chunk` needs. -/
def Spare (P : BufferPool) : Prop :=
  P.allocatedBufferChunks < P.maxBufferChunks ∧ P.malloc P.mallocs ≠ none

/-- The chunks when one was made. -/
theorem length_push {s : ℕ} :
    (Function.update P.chunks si (P.chunks si ++ [C]) s).length =
      (P.chunks s).length + if s = si then 1 else 0 := by
  by_cases hs : s = si
  · subst hs
    rw [Function.update_self, if_pos rfl, List.length_append, List.length_singleton]
  · rw [Function.update_of_ne hs, if_neg hs, Nat.add_zero]

theorem getElem?_push {s d : ℕ} {D : BufferChunk} :
    (Function.update P.chunks si (P.chunks si ++ [C]) s)[d]? = some D ↔
      (s = si ∧ d = (P.chunks si).length ∧ D = C) ∨ (P.chunks s)[d]? = some D := by
  by_cases hs : s = si
  · subst hs
    rw [Function.update_self]
    rcases Nat.lt_trichotomy d (P.chunks s).length with hd | rfl | hd
    · rw [List.getElem?_append_left hd]
      simp [hd.ne]
    · simp [eq_comm]
    · rw [List.getElem?_eq_none (by rw [List.length_append, List.length_singleton]; omega),
        List.getElem?_eq_none hd.le]
      simp [hd.ne']
  · rw [Function.update_of_ne hs]
    simp [hs]

/-- The new chunk stands in the block of its `malloc`, and the others in earlier ones. -/
theorem Placed.push {block : ℕ → ℕ → ℕ} {address : ℕ} (h : P.Placed block)
    (ha : P.malloc P.mallocs = some address) (hin : C.Within address) :
    ∃ block', Placed { P with
      mallocs := P.mallocs + 1
      chunks := Function.update P.chunks si (P.chunks si ++ [C])
      allocatedBufferChunks := P.allocatedBufferChunks + 1 } block' := by
  classical
  let new (s d : ℕ) : Prop := s = si ∧ d = (P.chunks si).length
  have hold {s d : ℕ} (hd : d < (Function.update P.chunks si (P.chunks si ++ [C]) s).length)
      (hne : ¬ new s d) : d < (P.chunks s).length := by
    rw [length_push] at hd
    by_cases hs : s = si
    · subst hs
      rw [if_pos rfl] at hd
      have : d ≠ (P.chunks s).length := fun heq => hne ⟨rfl, heq⟩
      omega
    · rw [if_neg hs] at hd
      exact hd
  have hbelow {s d : ℕ} (hd : d < (P.chunks s).length) : block s d < P.mallocs :=
    (h.within s d _ (List.getElem?_eq_getElem hd)).1
  refine ⟨fun s d => if new s d then P.mallocs else block s d, fun s d D hD => ?_,
    fun s d s' d' hd hd' heq => ?_⟩
  · obtain ⟨rfl, rfl, rfl⟩ | hD := getElem?_push.mp hD
    · simp only [if_pos (show new s (P.chunks s).length from ⟨rfl, rfl⟩)]
      exact ⟨Nat.lt_succ_self _, address, ha, hin⟩
    · have hlt := (List.getElem?_eq_some_iff.mp hD).1
      have hne : ¬ new s d := by
        rintro ⟨rfl, rfl⟩
        exact lt_irrefl _ hlt
      simp only [if_neg hne]
      obtain ⟨hm, hin⟩ := h.within s d D hD
      exact ⟨Nat.lt_succ_of_lt hm, hin⟩
  · by_cases h1 : new s d <;> by_cases h2 : new s' d'
    · exact ⟨h1.1.trans h2.1.symm, h1.2.trans h2.2.symm⟩
    · simp only [if_pos h1, if_neg h2] at heq
      exact absurd heq (hbelow (hold hd' h2)).ne'
    · simp only [if_neg h1, if_pos h2] at heq
      exact absurd heq (hbelow (hold hd h1)).ne
    · simp only [if_neg h1, if_neg h2] at heq
      exact h.injective s d s' d' (hold hd h1) (hold hd' h2) heq

/-- **A chunk is made** where there may be one more: behind it all of its buffers are free. -/
theorem Sound.allocChunk (h : P.Sound held) (hsi : si < 5) :
    (∃ Q, P.allocChunk si = .ok (none, Q) ∧ Q.Sound held ∧ Q.chunks = P.chunks ∧
        Q.chunkSave = P.chunkSave ∧ ¬ P.Spare) ∨
      P.Spare ∧ ∃ Q C, P.allocChunk si = .ok (some (P.chunks si).length, Q) ∧ Q.Sound held ∧
        Q.chunks = Function.update P.chunks si (P.chunks si ++ [C]) ∧
        Q.chunkSave = P.chunkSave ∧ C.freeCnt 1 ≠ 0 := by
  by_cases hlimit : P.maxBufferChunks ≤ P.allocatedBufferChunks
  · exact .inl ⟨P, by rw [BufferPool.allocChunk, if_pos hlimit], h, rfl, rfl,
      fun hspare => absurd hspare.1 (by omega)⟩
  cases ha : P.malloc P.mallocs with
  | none =>
    refine .inl ⟨{ P with mallocs := P.mallocs + 1 }, ?_, { h with placed := ?_, used := h.used },
      rfl, rfl, fun hspare => hspare.2 ha⟩
    · simp only [BufferPool.allocChunk, if_neg hlimit, ha]
    · obtain ⟨block, hwithin, hinj⟩ := h.placed
      refine ⟨block, fun s d D hD => ?_, hinj⟩
      obtain ⟨hlt, hin⟩ := hwithin s d D hD
      exact ⟨Nat.lt_succ_of_lt hlt, hin⟩
  | some address =>
    obtain ⟨hlow, hhigh⟩ := bufferSizeOf_bounds hsi
    obtain ⟨C, hnew, hsize, hcut, hcounts, hin, hfree⟩ :=
      allocNewMsgBuffersChunk_cut hlow hhigh (h.blocks.fits _ _ ha)
    refine .inr ⟨⟨by omega, by simp [ha]⟩, { P with
      mallocs := P.mallocs + 1
      chunks := Function.update P.chunks si (P.chunks si ++ [C])
      allocatedBufferChunks := P.allocatedBufferChunks + 1 }, C, ?_, ?_, rfl, rfl, ?_⟩
    · simp only [BufferPool.allocChunk, if_neg hlimit, ha, hnew]
      rfl
    · refine ⟨fun s D hD => ?_, fun s d hd => ?_, ?_, h.blocks, h.drawn, ?_, ?_, h.nodup,
        fun X => ?_⟩
      · obtain ⟨d, hd⟩ := List.mem_iff_getElem?.mp hD
        obtain ⟨rfl, -, rfl⟩ | hd := getElem?_push.mp hd
        · exact ⟨hcut, hcounts, hsize⟩
        · exact h.cut s D (List.mem_of_getElem? hd)
      · exact ((h.save s d hd).trans_le (Nat.le_add_right _ _)).trans_eq length_push.symm
      · obtain ⟨block, hblock⟩ := h.placed
        exact hblock.push ha hin
      · show P.allocatedBufferChunks + 1 ≤ P.maxBufferChunks
        omega
      · show P.allocatedBufferChunks + 1 = _
        rw [Finset.sum_congr rfl fun s _ => length_push, Finset.sum_add_distrib, ← h.count,
          Finset.sum_ite_eq', if_pos (Finset.mem_range.mpr hsi)]
      · rw [h.used]
        constructor
        · rintro ⟨D, hD, hy⟩
          exact ⟨D, getElem?_push.mpr (.inr hD), hy⟩
        · rintro ⟨D, hD, hy, hzero⟩
          obtain ⟨-, -, rfl⟩ | hD := getElem?_push.mp hD
          · rw [hfree _ hy] at hzero
            exact absurd hzero one_ne_zero
          · exact ⟨D, hD, hy, hzero⟩
    · rw [hcounts.root_eq hcut]
      have hpos : 0 < ∑ y ∈ Finset.Ico 0 C.totBuffers, C.freeCnt (C.twoPower + y) :=
        Finset.sum_pos (fun y hy => by rw [hfree y (Finset.mem_Ico.mp hy).2]; exact Nat.one_pos)
          ⟨0, Finset.mem_Ico.mpr ⟨le_rfl, hcut.fits.1⟩⟩
      exact hpos.ne'

/-- Every buffer there is of a size is held. -/
def Full (P : BufferPool) (si : ℕ) : Prop :=
  ∀ c C, (P.chunks si)[c]? = some C → ∀ y < C.totBuffers, P.Used ⟨si, c, y⟩

/-- A chunk whose root carries 0 has none left. -/
theorem Sound.used_of_root (h : P.Sound held) (hC : (P.chunks si)[c]? = some C)
    (hroot : C.freeCnt 1 = 0) {y : ℕ} (hy : y < C.totBuffers) : P.Used ⟨si, c, y⟩ := by
  obtain ⟨hcut, hcounts, -⟩ := h.cut si C (List.mem_of_getElem? hC)
  rw [hcounts.root_eq hcut, Finset.sum_eq_zero_iff] at hroot
  exact ⟨C, hC, hy, hroot y (Finset.mem_Ico.mpr ⟨Nat.zero_le y, hy⟩)⟩

/-- **The choice of the chunk**: one with a free buffer, unless every buffer of the size is held and
there can be no further chunk. -/
theorem Sound.chunkFor (h : P.Sound held) (hsaved : P.Saved si) (hsi : si < 5) :
    (∃ Q, P.chunkFor si = .ok (none, Q) ∧ Q.Sound held ∧ Q.chunks = P.chunks ∧
        Q.chunkSave = P.chunkSave ∧ P.Full si ∧ ¬ P.Spare) ∨
      ∃ Q c C, P.chunkFor si = .ok (some c, Q) ∧ Q.Sound held ∧
        (Q.chunks si)[c]? = some C ∧ C.freeCnt 1 ≠ 0 ∧ Q.chunkSave = P.chunkSave ∧
        (∀ s, s ≠ si → Q.chunks s = P.chunks s) ∧ (P.Full si → P.Spare) := by
  -- a chunk is made where no buffer of the size is free
  have hmake (hfull : P.Full si) :
      (∃ Q, P.allocChunk si = .ok (none, Q) ∧ Q.Sound held ∧ Q.chunks = P.chunks ∧
        Q.chunkSave = P.chunkSave ∧ P.Full si ∧ ¬ P.Spare) ∨
      ∃ Q c C, P.allocChunk si = .ok (some c, Q) ∧ Q.Sound held ∧
        (Q.chunks si)[c]? = some C ∧ C.freeCnt 1 ≠ 0 ∧ Q.chunkSave = P.chunkSave ∧
        (∀ s, s ≠ si → Q.chunks s = P.chunks s) ∧ (P.Full si → P.Spare) := by
    rcases h.allocChunk hsi with ⟨Q, hrun, hQ, hchunks, hsave, hspare⟩ |
      ⟨hspare, Q, C, hrun, hQ, hchunks, hsave, hroot⟩
    · exact .inl ⟨Q, hrun, hQ, hchunks, hsave, hfull, hspare⟩
    · refine .inr ⟨Q, (P.chunks si).length, C, hrun, hQ, ?_, hroot, hsave, fun s hs => ?_,
        fun _ => hspare⟩
      · rw [hchunks, Function.update_self, List.getElem?_concat_length]
      · rw [hchunks, Function.update_of_ne hs]
  have hnotFull {d : ℕ} {D : BufferChunk} (hD : (P.chunks si)[d]? = some D)
      (hroot : D.freeCnt 1 ≠ 0) : ¬ P.Full si := by
    intro hfull
    obtain ⟨hcut, hcounts, -⟩ := h.cut si D (List.mem_of_getElem? hD)
    refine hroot ((hcounts.root_eq hcut).trans (Finset.sum_eq_zero fun y hy => ?_))
    obtain ⟨E, hE, -, hzero⟩ := hfull d D hD y (Finset.mem_Ico.mp hy).2
    obtain rfl := Option.some.inj (hD.symm.trans hE)
    exact hzero
  cases hs : P.chunkSave si with
  | none =>
    have hempty := hsaved hs
    have hrun : P.chunkFor si = P.allocChunk si := by rw [BufferPool.chunkFor, hs]
    rw [hrun]
    refine hmake fun c C hC => ?_
    rw [hempty, List.getElem?_nil] at hC
    cases hC
  | some hint =>
    have hlt := h.save si hint hs
    obtain ⟨C, hC⟩ : ∃ C, (P.chunks si)[hint]? = some C := ⟨_, List.getElem?_eq_getElem hlt⟩
    by_cases hroot : C.freeCnt 1 = 0
    · have hsearch (found : Option ℕ) (hfound : P.searchLoop si (some hint)
          ((P.chunks si).length + 2) (some hint) = .ok found) : P.chunkFor si =
            found.elim (P.allocChunk si) fun c => .ok (some c, P) := by
        simp only [BufferPool.chunkFor, hs]
        show (P.chunkAt si hint).bind _ = _
        rw [chunkAt_eq hC, ok_bind, if_neg (not_not.mpr hroot)]
        show (P.searchLoop _ _ _ _).bind _ = _
        rw [hfound]
        cases found <;> rfl
      rcases searchLoop_spec (f := (P.chunks si).length + 2) hlt le_rfl (by omega) with
        ⟨d, hfound, D, hD, hDroot⟩ | ⟨hnone, hall⟩
      · exact .inr ⟨P, d, D, hsearch _ hfound, h, hD, hDroot, rfl, fun _ _ => rfl,
          fun hfull => absurd hfull (hnotFull hD hDroot)⟩
      · rw [hsearch _ hnone]
        exact hmake fun c D hD y hy => h.used_of_root hD (hall c D (by omega) hD) hy
    · refine .inr ⟨P, hint, C, ?_, h, hC, hroot, rfl, fun _ _ => rfl,
        fun hfull => absurd hfull (hnotFull hC hroot)⟩
      simp only [BufferPool.chunkFor, hs]
      show (P.chunkAt si hint).bind _ = _
      rw [chunkAt_eq hC, ok_bind, if_pos hroot]
      rfl

/-! ### Calls -/

/-- **A call of `alloc_msg_buffer`**: a buffer that was free, of the size that was chosen, or none
where every buffer of the size is held and there can be no further chunk. -/
theorem Sound.allocMsgBuffer (h : P.Sound held) (hsaved : ∀ si, P.Saved si)
    {neighbor : Option BufferRef} (hneighbor : ∀ X, neighbor = some X → X ∈ held)
    (sizeHint : ℤ) :
    (∃ Q, P.allocMsgBuffer neighbor sizeHint = .ok (none, Q) ∧ Q.Sound held ∧
        (∀ si, Q.Saved si) ∧ P.Full (sizeIndex sizeHint) ∧ ¬ P.Spare) ∨
      ∃ X Q, P.allocMsgBuffer neighbor sizeHint = .ok (some X, Q) ∧
        X.si = sizeIndex sizeHint ∧ X ∉ held ∧ Q.Sound (X :: held) ∧ (∀ si, Q.Saved si) ∧
        (P.Full (sizeIndex sizeHint) → P.Spare) := by
  rcases h.chunkFor (hsaved _) (sizeIndex_lt sizeHint) with
    ⟨Q, hrun, hQ, hchunks, hsave, hfull, hspare⟩ |
    ⟨Q, c, C, hrun, hQ, hC, hroot, hsave, hothers, hspare⟩
  · refine .inl ⟨Q, ?_, hQ, fun si hnone => ?_, hfull, hspare⟩
    · show (P.chunkFor (sizeIndex sizeHint)).bind _ = _
      rw [hrun]
      rfl
    · rw [hchunks]
      exact hsaved si (hsave ▸ hnone)
  · obtain ⟨X, R, htake, hsi, hnew, hR, hRsave, hRothers⟩ := hQ.takeFrom hC hroot hneighbor
    refine .inr ⟨X, R, ?_, hsi, hnew, hR, fun si hnone => ?_, hspare⟩
    · show (P.chunkFor (sizeIndex sizeHint)).bind _ = _
      rw [hrun, ok_bind]
      show (Q.takeFrom neighbor (sizeIndex sizeHint) c).bind _ = _
      rw [htake]
      rfl
    · by_cases hs : si = sizeIndex sizeHint
      · rw [hs, hRsave] at hnone
        exact nomatch hnone
      · rw [(hRothers si hs).2, hothers si hs]
        exact hsaved si (hsave ▸ (hRothers si hs).1 ▸ hnone)

/-- A pool of which nothing was handed out. -/
theorem init_sound {maxBufferBytes : ℕ} {malloc : ℕ → Option ℕ} {draws : ℕ → ℕ}
    (hblocks : Blocks malloc) (hdraws : ∀ n, draws n < 2 ^ 31) :
    (init maxBufferBytes malloc draws).Sound [] ∧
      ∀ si, (init maxBufferBytes malloc draws).Saved si := by
  refine ⟨⟨fun si C hC => ?_, fun si c hc => ?_, ⟨fun _ _ => 0, fun si c C hC => ?_,
    fun si c si' c' hc => ?_⟩, hblocks, hdraws, Nat.zero_le _, rfl, List.nodup_nil, fun X => ?_⟩,
    fun si _ => rfl⟩
  · exact absurd hC List.not_mem_nil
  · exact nomatch hc
  · exact nomatch hC
  · exact absurd hc (Nat.not_lt_zero c)
  · refine ⟨fun hX => absurd hX List.not_mem_nil, ?_⟩
    rintro ⟨C, hC, -⟩
    exact nomatch hC

/-- Two buffers do not overlap in memory. -/
def Apart (P : BufferPool) (X Y : BufferRef) : Prop :=
  ∃ C D, (P.chunks X.si)[X.chunk]? = some C ∧ (P.chunks Y.si)[Y.chunk]? = some D ∧
    (C.bufferAt (X.no + 1) ≤ D.bufferAt Y.no ∨ D.bufferAt (Y.no + 1) ≤ C.bufferAt X.no)

theorem bufferAt_mono {i j : ℕ} (h : i ≤ j) : C.bufferAt i ≤ C.bufferAt j :=
  Nat.add_le_add_left (Nat.mul_le_mul_right _ h) _

/-- **No two buffers that are held overlap.** -/
theorem Sound.apart (h : P.Sound held) {Y : BufferRef} (hX : X ∈ held) (hY : Y ∈ held)
    (hne : X ≠ Y) : P.Apart X Y := by
  obtain ⟨C, hC, hx, -⟩ := (h.used X).mp hX
  obtain ⟨D, hD, hy, -⟩ := (h.used Y).mp hY
  refine ⟨C, D, hC, hD, ?_⟩
  by_cases hsame : X.si = Y.si ∧ X.chunk = Y.chunk
  · -- in one chunk the numbers are in order
    rw [hsame.1, hsame.2] at hC
    obtain rfl := Option.some.inj (hC.symm.trans hD)
    rcases Nat.lt_trichotomy X.no Y.no with hlt | heq | hlt
    · exact .inl (bufferAt_mono hlt)
    · exact absurd (by cases X; cases Y; simp_all) hne
    · exact .inr (bufferAt_mono hlt)
  · obtain ⟨block, hplaced⟩ := h.placed
    obtain ⟨-, a, ha, hCin⟩ := hplaced.within _ _ C hC
    obtain ⟨-, b, hb, hDin⟩ := hplaced.within _ _ D hD
    have hblock : block X.si X.chunk ≠ block Y.si Y.chunk := fun heq =>
      hsame (hplaced.injective _ _ _ _ (List.getElem?_eq_some_iff.mp hC).1
        (List.getElem?_eq_some_iff.mp hD).1 heq)
    have hClow : C.firstBuffer ≤ C.bufferAt X.no := Nat.le_add_right _ _
    have hDlow : D.firstBuffer ≤ D.bufferAt Y.no := Nat.le_add_right _ _
    have hChigh : C.bufferAt (X.no + 1) ≤ a + MSG_BUFFERS_CHUNK_SIZE :=
      (bufferAt_mono hx).trans hCin.buffers
    have hDhigh : D.bufferAt (Y.no + 1) ≤ b + MSG_BUFFERS_CHUNK_SIZE :=
      (bufferAt_mono hy).trans hDin.buffers
    have hCcounts := hCin.counts
    have hDcounts := hDin.counts
    rcases h.blocks.apart _ _ a b hblock ha hb with hab | hba
    · exact .inl (by omega)
    · exact .inr (by omega)

end BufferPool

/-! ### Runs -/

/-- A call into the pool. -/
inductive BufferEvent
  | alloc (neighbor : Option BufferRef) (sizeHint : ℤ)
  | free (X : BufferRef)

namespace BufferPool

/-- A call is made: the buffer that was handed out. -/
def act (P : BufferPool) : BufferEvent → Except BufferFault (BufferPool × Option BufferRef)
  | .alloc neighbor sizeHint => do
    let (X, P) ← P.allocMsgBuffer neighbor sizeHint
    return (P, X)
  | .free X => do
    let P ← P.freeMsgBuffer X
    return (P, none)

/-- A caller names buffers that it holds. -/
def May (P : BufferPool) : BufferEvent → Prop
  | .alloc neighbor _ => ∀ X, neighbor = some X → P.Used X
  | .free X => P.Used X

instance (P : BufferPool) (e : BufferEvent) : Decidable (P.May e) :=
  match e with
  | .alloc none _ => isTrue fun _ h => nomatch h
  | .alloc (some X) _ =>
    decidable_of_iff (P.Used X) ⟨fun h _ hX => Option.some.inj hX ▸ h, fun h => h X rfl⟩
  | .free X => inferInstanceAs (Decidable (P.Used X))

end BufferPool

/-- The size is the smallest that is large enough, or the largest. -/
def ServesHint (sizeHint : ℤ) (si : ℕ) : Prop :=
  si < 5 ∧ (si < 4 → 0 ≤ sizeHint ∧ sizeHint ≤ bufferSizeOf si) ∧
    ∀ s < si, 0 ≤ sizeHint → (bufferSizeOf s : ℤ) < sizeHint

/-- **What the pool is for**: it hands out what is not held, and takes back what is. -/
inductive Handed : List BufferRef → BufferEvent → Option BufferRef → List BufferRef → Prop
  | taken {held : List BufferRef} {X : BufferRef} {neighbor : Option BufferRef} {sizeHint : ℤ}
      (fresh : X ∉ held) (size : ServesHint sizeHint X.si) :
      Handed held (.alloc neighbor sizeHint) (some X) (X :: held)
  | refused {held : List BufferRef} {neighbor : Option BufferRef} {sizeHint : ℤ} :
      Handed held (.alloc neighbor sizeHint) none held
  | given {held : List BufferRef} {X : BufferRef} (mem : X ∈ held) :
      Handed held (.free X) none (held.erase X)

theorem sizeIndex_fits (sizeHint : ℤ) : ServesHint sizeHint (sizeIndex sizeHint) := by
  refine ⟨BufferPool.sizeIndex_lt sizeHint, ?_⟩
  have hlen : DEFAULT_BUFFER_SIZES.length - 1 = 4 := rfl
  rw [sizeIndex, hlen]
  by_cases h0 : 0 ≤ sizeHint
  · rw [if_pos h0]
    obtain ⟨habove, hbelow⟩ := BufferPool.sizeIndexLoop_spec sizeHint 4
    refine ⟨fun hlt => ⟨h0, habove _ le_rfl hlt⟩, fun s hs _ => ?_⟩
    have hle : bufferSizeOf s ≤ bufferSizeOf (sizeIndexLoop sizeHint 4 - 1) := by
      have hle4 := BufferPool.sizeIndexLoop_le sizeHint 4
      generalize sizeIndexLoop sizeHint 4 = n at hs hle4
      interval_cases n <;> interval_cases s <;> decide
    have := hbelow (by omega)
    omega
  · rw [if_neg h0]
    exact ⟨fun h => absurd h (lt_irrefl 4), fun s _ h => absurd h h0⟩

namespace BufferPool

variable {P : BufferPool} {maxBufferBytes : ℕ} {malloc : ℕ → Option ℕ} {draws : ℕ → ℕ}
  {es : List BufferEvent}

/-- The pool between two calls. -/
def Kept (P : BufferPool) (held : List BufferRef) : Prop := P.Sound held ∧ ∀ si, P.Saved si

theorem Kept.used {held : List BufferRef} (h : P.Kept held) (X : BufferRef) :
    X ∈ held ↔ P.Used X := h.1.used X

theorem Kept.alloc {held : List BufferRef} (h : P.Kept held) {neighbor : Option BufferRef}
    (hneighbor : ∀ X, neighbor = some X → P.Used X) (sizeHint : ℤ) :
    (∃ Q, P.allocMsgBuffer neighbor sizeHint = .ok (none, Q) ∧ Q.Kept held ∧
        P.Full (sizeIndex sizeHint) ∧ ¬ P.Spare) ∨
      ∃ X Q, P.allocMsgBuffer neighbor sizeHint = .ok (some X, Q) ∧ X ∉ held ∧
        Q.Kept (X :: held) ∧ ServesHint sizeHint X.si := by
  rcases h.1.allocMsgBuffer h.2 (fun X hX => (h.used X).mpr (hneighbor X hX)) sizeHint with
    ⟨Q, hrun, hQ, hQsaved, hfull⟩ | ⟨X, Q, hrun, hsi, hnew, hQ, hQsaved, -⟩
  · exact .inl ⟨Q, hrun, ⟨hQ, hQsaved⟩, hfull⟩
  · exact .inr ⟨X, Q, hrun, hnew, ⟨hQ, hQsaved⟩, hsi ▸ sizeIndex_fits sizeHint⟩

theorem Kept.free {held : List BufferRef} (h : P.Kept held) {X : BufferRef} (hX : P.Used X) :
    ∃ Q, P.freeMsgBuffer X = .ok Q ∧ Q.Kept (held.erase X) := by
  obtain ⟨Q, hrun, hQ, hsave, hlen⟩ := h.1.freeMsgBuffer ((h.used X).mpr hX)
  refine ⟨Q, hrun, hQ, fun si hnone => ?_⟩
  have hempty := h.2 si (hsave ▸ hnone)
  exact List.length_eq_zero_iff.mp ((hlen si).trans (List.length_eq_zero_iff.mpr hempty))

theorem act_handed {held : List BufferRef} {e : BufferEvent} (h : P.Kept held) (hmay : P.May e) :
    ∃ Q o held', P.act e = .ok (Q, o) ∧ Handed held e o held' ∧ Q.Kept held' := by
  cases e with
  | alloc neighbor sizeHint =>
    rcases h.alloc hmay sizeHint with ⟨Q, hrun, hQ, -⟩ | ⟨X, Q, hrun, hnew, hQ, hsi⟩
    · refine ⟨Q, none, held, ?_, .refused, hQ⟩
      show (P.allocMsgBuffer neighbor sizeHint).bind _ = _
      rw [hrun]
      rfl
    · refine ⟨Q, some X, X :: held, ?_, .taken hnew hsi, hQ⟩
      show (P.allocMsgBuffer neighbor sizeHint).bind _ = _
      rw [hrun]
      rfl
  | free X =>
    obtain ⟨Q, hrun, hQ⟩ := h.free hmay
    refine ⟨Q, none, held.erase X, ?_, .given ((h.used X).mpr hmay), hQ⟩
    show (P.freeMsgBuffer X).bind _ = _
    rw [hrun]
    rfl

theorem kept_run (hblocks : Blocks malloc) (hdraws : ∀ n, draws n < 2 ^ 31)
    (hlegal : Legal act May (init maxBufferBytes malloc draws) es) :
    ∃ Q os held, attempt act (init maxBufferBytes malloc draws) es = .ok (Q, os) ∧
      Answers Handed [] es os held ∧ Q.Kept held := by
  have hstep (P : BufferPool) (held : List BufferRef) (e : BufferEvent) (h : P.Kept held)
      (hmay : P.May e) : ∃ Q o held', P.act e = .ok (Q, o) ∧ Handed held e o held' ∧ Q.Kept held' :=
    act_handed h hmay
  exact attempt_refines hstep (init_sound hblocks hdraws) hlegal

/-- The pool at the end of a run. -/
theorem kept_of_run (hblocks : Blocks malloc) (hdraws : ∀ n, draws n < 2 ^ 31)
    (hlegal : Legal act May (init maxBufferBytes malloc draws) es) {os : List (Option BufferRef)}
    (hrun : attempt act (init maxBufferBytes malloc draws) es = .ok (P, os)) :
    ∃ held, P.Kept held := by
  obtain ⟨Q, _, held, hrun', -, hQ⟩ := kept_run hblocks hdraws hlegal
  obtain ⟨rfl, -⟩ := Prod.mk.inj (Except.ok.inj (hrun'.symm.trans hrun))
  exact ⟨held, hQ⟩

/-- **A buffer is refused only where it must be**: after any run, when every buffer of the size is
held and there can be no further chunk. -/
theorem alloc_none_iff (hblocks : Blocks malloc) (hdraws : ∀ n, draws n < 2 ^ 31)
    (hlegal : Legal act May (init maxBufferBytes malloc draws) es) {os : List (Option BufferRef)}
    (hrun : attempt act (init maxBufferBytes malloc draws) es = .ok (P, os))
    {neighbor : Option BufferRef} (hneighbor : ∀ X, neighbor = some X → P.Used X)
    (sizeHint : ℤ) :
    (∃ Q, P.allocMsgBuffer neighbor sizeHint = .ok (none, Q)) ↔
      P.Full (sizeIndex sizeHint) ∧ ¬ P.Spare := by
  obtain ⟨held, hP, hsaved⟩ := kept_of_run hblocks hdraws hlegal hrun
  rcases hP.allocMsgBuffer hsaved (fun X hX => (hP.used X).mpr (hneighbor X hX)) sizeHint with
    ⟨R, hnone, -, -, hfull, hspare⟩ | ⟨X, R, hsome, -, -, -, -, hspare⟩
  · exact ⟨fun _ => ⟨hfull, hspare⟩, fun _ => ⟨R, hnone⟩⟩
  · refine ⟨fun ⟨R', hR'⟩ => ?_, fun ⟨hfull, hno⟩ => absurd (hspare hfull) hno⟩
    exact nomatch congrArg Prod.fst (Except.ok.inj (hsome.symm.trans hR'))

/-- **Which buffer of a chunk is taken**, after any run: near one that is held the next free one
behind it, from the first one again where none is behind, and otherwise one with less than 16 free
ones before it, as it was drawn. -/
theorem takeFrom_choice (hblocks : Blocks malloc) (hdraws : ∀ n, draws n < 2 ^ 31)
    (hlegal : Legal act May (init maxBufferBytes malloc draws) es) {os : List (Option BufferRef)}
    (hrun : attempt act (init maxBufferBytes malloc draws) es = .ok (P, os))
    {neighbor : Option BufferRef} (hneighbor : ∀ X, neighbor = some X → P.Used X)
    {si c : ℕ} {C : BufferChunk} (hC : (P.chunks si)[c]? = some C) (hpos : C.freeCnt 1 ≠ 0) :
    ∃ y Q, P.takeFrom neighbor si c = .ok (⟨si, c, y⟩, Q) ∧
      (∀ x, neighbor = some ⟨si, c, x⟩ → NextFree C.freeCnt C.twoPower x y) ∧
      ((∀ x, neighbor ≠ some ⟨si, c, x⟩) → RankedFree C.freeCnt C.twoPower 0 C.twoPower
        (P.draws P.drawn * min (C.freeCnt 1) 16 / 2 ^ 31) y) := by
  obtain ⟨held, hP, -⟩ := kept_of_run hblocks hdraws hlegal hrun
  obtain ⟨hcut, hcounts, -⟩ := hP.cut si C (List.mem_of_getElem? hC)
  have hneighbor' (X : BufferRef) (hX : neighbor = some X) : X ∈ held :=
    (hP.used X).mpr (hneighbor X hX)
  obtain ⟨cnt, y, hy, hlt, -, -, -, -, hnext, hranked⟩ := BufferChunk.takeBuffer_spec hcut hcounts
    hpos (hP.drawn _) (hP.nearAddress_used hC hneighbor')
  refine ⟨y, _, takeFrom_eq hC hpos hy, fun x hx => ?_, fun hfar => hranked ?_⟩
  · obtain ⟨hxt, -⟩ := (hP.held_iff hC).mp (hneighbor' _ hx)
    refine hnext x hxt.le ?_
    rw [hx, nearAddress, if_pos ⟨rfl, rfl⟩]
  · unfold nearAddress
    split
    · next X =>
      refine if_neg ?_
      rintro ⟨rfl, rfl⟩
      exact hfar X.no rfl
    · rfl

/-- Blocks one behind the other. -/
def blockAt (n : ℕ) : Option ℕ := if n < 2 ^ 20 then some ((n + 1) * 2 ^ 21) else none

theorem blockAt_blocks : Blocks blockAt := by
  have hsize : MSG_BUFFERS_CHUNK_SIZE = 2097088 := rfl
  constructor
  · intro n a h
    unfold blockAt at h
    split_ifs at h
    obtain rfl := Option.some.inj h
    omega
  · intro m n a b hne ha hb
    unfold blockAt at ha hb
    split_ifs at ha hb
    obtain rfl := Option.some.inj ha
    obtain rfl := Option.some.inj hb
    omega

/-- The only chunk there may be is used up. -/
theorem alloc_none_iff_takeAll :
    ∃ P os, attempt act (init (2 ^ 21) blockAt fun _ => 5) (List.replicate 7 (.alloc none (-1))) =
        .ok (P, os) ∧
      ((∃ Q, P.allocMsgBuffer none (-1) = .ok (none, Q)) ↔ P.Full (sizeIndex (-1)) ∧ ¬ P.Spare) := by
  have hlegal : Legal act May (init (2 ^ 21) blockAt fun _ => 5)
      (List.replicate 7 (.alloc none (-1))) := by decide +kernel
  obtain ⟨P, os, -, hrun, -⟩ := kept_run blockAt_blocks (fun _ => by norm_num) hlegal
  exact ⟨P, os, hrun, alloc_none_iff blockAt_blocks (fun _ => by norm_num) hlegal hrun
    (fun X (h : none = some X) => nomatch h) (-1)⟩

/-- A first buffer is held, in a chunk that has more. -/
theorem takeOne_held :
    ∃ P os C, attempt act (init (2 ^ 24) blockAt fun _ => 5) [.alloc none (-1)] = .ok (P, os) ∧
      (P.chunks 4)[0]? = some C ∧ C.freeCnt 1 ≠ 0 ∧ P.Used ⟨4, 0, 0⟩ := by
  have hlegal : Legal act May (init (2 ^ 24) blockAt fun _ => 5) [.alloc none (-1)] := by
    decide +kernel
  obtain ⟨P, os, -, hrun, -⟩ := kept_run blockAt_blocks (fun _ => by norm_num) hlegal
  have hcheck : (match attempt act (init (2 ^ 24) blockAt fun _ => 5) [.alloc none (-1)] with
      | .ok (P, _) => decide (P.Used ⟨4, 0, 0⟩) &&
        ((P.chunks 4)[0]?.any fun C => C.freeCnt 1 ≠ 0)
      | .error _ => false) = true := by decide +kernel
  rw [hrun, Bool.and_eq_true, decide_eq_true_iff, Option.any_eq_true] at hcheck
  obtain ⟨hused, C, hC, hroot⟩ := hcheck
  exact ⟨P, os, C, hrun, hC, of_decide_eq_true hroot, hused⟩

theorem takeFrom_choice_takeOne :
    ∃ P os C, attempt act (init (2 ^ 24) blockAt fun _ => 5) [.alloc none (-1)] = .ok (P, os) ∧
      (P.chunks 4)[0]? = some C ∧
      ∃ y Q, P.takeFrom (some ⟨4, 0, 0⟩) 4 0 = .ok (⟨4, 0, y⟩, Q) ∧
        (∀ x, some (⟨4, 0, 0⟩ : BufferRef) = some ⟨4, 0, x⟩ →
          NextFree C.freeCnt C.twoPower x y) ∧
        ((∀ x, some (⟨4, 0, 0⟩ : BufferRef) ≠ some ⟨4, 0, x⟩) →
          RankedFree C.freeCnt C.twoPower 0 C.twoPower
            (P.draws P.drawn * min (C.freeCnt 1) 16 / 2 ^ 31) y) := by
  obtain ⟨P, os, C, hrun, hC, hroot, hused⟩ := takeOne_held
  exact ⟨P, os, C, hrun, hC, takeFrom_choice blockAt_blocks (fun _ => by norm_num)
    (by decide +kernel) hrun (fun X hX => Option.some.inj hX ▸ hused) hC hroot⟩

end BufferPool

end Server
end Teleproto3
