/-
# The circles of the table of ext_connections

What the functions that write to the links of an entry do to the circle it is on.  A cell of a
circle is linked past and its links are cleared (`unlink_circle`, `lruDelete_circle`), and a
cell without links is put in before a head (`linkLast_circle`, `lruInsert_circle`).
`Relinked` says what such a write leaves alone: all but the links of one kind, and all cells but
those of one circle.
-/

import Teleproto3.Lib.CircularList
import Teleproto3.Server.ExtConnections

namespace Teleproto3
namespace Server

open Lib

/-! ### Reading what was written -/

namespace RingKind

/-- The two links of a kind. -/
def links (k : RingKind) (c : ExtConnection) : Option ExtRef × Option ExtRef :=
  (k.next c, k.prev c)

variable (k k' : RingKind) (p : Option ExtRef) (c : ExtConnection)

@[simp] theorem next_setNext : k.next (k.setNext p c) = p := by cases k <;> rfl

@[simp] theorem next_setPrev : k'.next (k.setPrev p c) = k'.next c := by
  cases k <;> cases k' <;> rfl

@[simp] theorem prev_setPrev : k.prev (k.setPrev p c) = p := by cases k <;> rfl

@[simp] theorem prev_setNext : k'.prev (k.setNext p c) = k'.prev c := by
  cases k <;> cases k' <;> rfl

@[simp] theorem hNext_setNext : (k.setNext p c).hNext = c.hNext := by cases k <;> rfl

@[simp] theorem hNext_setPrev : (k.setPrev p c).hNext = c.hNext := by cases k <;> rfl

@[simp] theorem clear_setNext : k.clear (k.setNext p c) = k.clear c := by cases k <;> rfl

@[simp] theorem clear_setPrev : k.clear (k.setPrev p c) = k.clear c := by cases k <;> rfl

@[simp] theorem clear_clear : k.clear (k.clear c) = k.clear c := by cases k <;> rfl

@[simp] theorem hNext_clear : (k.clear c).hNext = c.hNext := by cases k <;> rfl

@[simp] theorem links_clear : k.links (k.clear c) = (none, none) := by cases k <;> rfl

/-- The links of the other kinds stay. -/
theorem links_clear_of_ne {k k' : RingKind} (h : k' ≠ k) (c : ExtConnection) :
    k'.links (k.clear c) = k'.links c := by
  cases k <;> cases k' <;> first | rfl | exact absurd rfl h

/-- What has no links is not changed by clearing them. -/
theorem clear_of_links {k : RingKind} {c : ExtConnection} (h : k.links c = (none, none)) :
    k.clear c = c := by
  obtain ⟨hn, hp⟩ := Prod.mk.inj h
  cases k <;> cases c <;> simp_all [next, prev, clear, setNext, setPrev]

/-- The two writes of a kind are to two fields. -/
theorem setNext_setPrev (p q : Option ExtRef) :
    k.setNext p (k.setPrev q c) = k.setPrev q (k.setNext p c) := by cases k <;> rfl

end RingKind

/-- An entry without its links. -/
def ExtConnection.unlinked (c : ExtConnection) : ExtConnection :=
  { c with
    oPrev := none, oNext := none, iPrev := none, iNext := none, hNext := none
    lruPrev := none, lruNext := none }

@[simp] theorem RingKind.unlinked_clear (k : RingKind) (c : ExtConnection) :
    (k.clear c).unlinked = c.unlinked := by cases k <;> rfl

namespace ExtMemory

variable {mem : ExtMemory} {r x : ExtRef} {c : ExtConnection}
  {f : ExtConnection → ExtConnection} {β : Type*} {g : ExtConnection → β}

theorem ok_seq {ε α γ : Type} (a : α) (h : α → Except ε γ) : (Except.ok a >>= h) = h a := rfl

theorem load_eq (h : mem r = some c) : mem.load r = .ok c := by simp only [load, h]

theorem modify_eq (h : mem r = some c) (f : ExtConnection → ExtConnection) :
    mem.modify r f = .ok (mem.alter r f) := by simp only [modify, load_eq h, Except.map]

@[simp] theorem alter_self : mem.alter r f r = (mem r).map f := if_pos rfl

theorem alter_of_ne (h : x ≠ r) : mem.alter r f x = mem x := if_neg h

/-- What a write does not touch is read as before. -/
theorem map_alter (h : ∀ c, g (f c) = g c) : (mem.alter r f x).map g = (mem x).map g := by
  unfold alter
  split_ifs
  · rw [Option.map_map]
    exact congrArg (fun t => (mem x).map t) (funext h)
  · rfl

/-- Writes that do not disturb each other. -/
theorem alter_comm {r' : ExtRef} {f' : ExtConnection → ExtConnection}
    (h : ∀ c, f (f' c) = f' (f c)) :
    (mem.alter r' f').alter r f = (mem.alter r f).alter r' f' := by
  funext x
  unfold alter
  split_ifs
  · rw [Option.map_map, Option.map_map]
    exact congrArg (fun t => (mem x).map t) (funext h)
  all_goals rfl

/-- Cells that are there stay there. -/
theorem alter_isSome : (mem.alter r f x).isSome = (mem x).isSome := by
  unfold alter
  split_ifs
  · exact Option.isSome_map
  · rfl

theorem exists_of_isSome (h : (mem r).isSome) : ∃ c, mem r = some c :=
  Option.isSome_iff_exists.mp h

/-- What can change where only the links of one kind are written, at given cells. -/
structure Relinked (k : RingKind) (s : List ExtRef) (mem mem' : ExtMemory) : Prop where
  rest : ∀ x, (mem' x).map k.clear = (mem x).map k.clear
  others : ∀ x, x ∉ s → mem' x = mem x

/-- What does not read the links of the kind. -/
theorem Relinked.view {k : RingKind} {s : List ExtRef} {mem mem' : ExtMemory}
    (h : Relinked k s mem mem') (hg : ∀ c, g (k.clear c) = g c) (x : ExtRef) :
    (mem' x).map g = (mem x).map g := by
  have hcomp : g ∘ k.clear = g := funext hg
  have hrest := congrArg (Option.map g) (h.rest x)
  rwa [Option.map_map, Option.map_map, hcomp] at hrest

theorem Relinked.alter {k : RingKind} {s : List ExtRef} {mem mem' : ExtMemory}
    (h : Relinked k s mem mem') (hr : r ∈ s) (hf : ∀ c, k.clear (f c) = k.clear c) :
    Relinked k s mem (mem'.alter r f) where
  rest x := (map_alter hf).trans (h.rest x)
  others x hx := by
    have hxr : x ≠ r := by
      rintro rfl
      exact hx hr
    rw [alter_of_ne hxr, h.others x hx]

theorem Relinked.refl {k : RingKind} {s : List ExtRef} {mem : ExtMemory} :
    Relinked k s mem mem := ⟨fun _ => rfl, fun _ _ => rfl⟩

/-! ### A cell leaves a circle -/

/-- **The neighbours of a cell are linked past it.** -/
theorem bypass_circle {k : RingKind} {H : ExtRef} {l₁ l₂ : List ExtRef}
    (h : Circle mem k.next k.prev H (l₁ ++ r :: l₂)) :
    ∃ mem', mem.bypass k r = .ok mem' ∧ Relinked k (H :: (l₁ ++ l₂)) mem mem' ∧
      Circle mem' k.next k.prev H (l₁ ++ l₂) := by
  obtain ⟨n, hn, hnl⟩ : ∃ n, l₂.head?.or (some H) = some n ∧ n ∈ H :: l₂ := by
    cases l₂ <;> simp
  obtain ⟨p, hp, hpl⟩ : ∃ p, l₁.getLast?.or (some H) = some p ∧ p ∈ H :: l₁ := by
    rcases List.eq_nil_or_concat l₁ with rfl | ⟨l, q, rfl⟩ <;> simp
  have hnext := h.next_cell
  have hprev := h.prev_cell
  rw [hn] at hnext
  rw [hp] at hprev
  have hd := h.distinct
  simp only [List.nodup_cons, List.nodup_append, List.mem_append, List.mem_cons, not_or] at hd
  have hnr : n ≠ r := by
    rintro rfl
    rcases List.mem_cons.mp hnl with rfl | hmem
    · exact hd.1.2.1 rfl
    · exact hd.2.2.1.1 hmem
  have hpr : p ≠ r := by
    rintro rfl
    rcases List.mem_cons.mp hpl with rfl | hmem
    · exact hd.1.2.1 rfl
    · exact hd.2.2.2 p hmem p (.inl rfl) rfl
  have hnin : n ∈ H :: (l₁ ++ l₂) := by
    rcases List.mem_cons.mp hnl with rfl | hmem
    · exact List.mem_cons_self
    · exact List.mem_cons_of_mem H (List.mem_append_right l₁ hmem)
  have hpin : p ∈ H :: (l₁ ++ l₂) := by
    rcases List.mem_cons.mp hpl with rfl | hmem
    · exact List.mem_cons_self
    · exact List.mem_cons_of_mem H (List.mem_append_left l₂ hmem)
  have hall (x : ExtRef) (hx : x ∈ H :: (l₁ ++ l₂)) : ∃ c, mem x = some c :=
    h.allocated (by
      simp only [List.mem_cons, List.mem_append] at hx ⊢
      rcases hx with hx | hx | hx <;> simp [hx])
  obtain ⟨c, hc, hcn⟩ := Option.map_eq_some_iff.mp hnext
  have hcp : k.prev c = some p := by
    rw [hc] at hprev
    exact Option.some.inj hprev
  obtain ⟨dn, hdn⟩ := hall n hnin
  obtain ⟨dp, hdp⟩ := hall p hpin
  obtain ⟨ep, hep⟩ : ∃ e, (mem.alter n (k.setPrev (some p))) p = some e :=
    exists_of_isSome (by rw [alter_isSome, hdp]; rfl)
  have hc' : (mem.alter n (k.setPrev (some p))) r = some c := (alter_of_ne hnr.symm).trans hc
  refine ⟨(mem.alter n (k.setPrev (some p))).alter p (k.setNext (some n)), ?_, ?_, ?_⟩
  · simp only [bypass, load_eq hc, ok_seq, hcn, hcp, deref, modify_eq hdn, load_eq hc',
      modify_eq hep]
  · exact (Relinked.refl.alter hnin (k.clear_setPrev _)).alter hpin (k.clear_setNext _)
  · refine h.unlink hnext hprev ?_ ?_ ?_ ?_
    · rw [alter_self, hep]
      exact congrArg some (k.next_setNext _ _)
    · rw [map_alter (k.prev_setNext k _), alter_self, hdn]
      exact congrArg some (k.prev_setPrev _ _)
    · intro x hxr hxp
      rw [alter_of_ne hxp, map_alter (k.next_setPrev k _)]
    · intro x hxr hxn
      rw [map_alter (k.prev_setNext k _), alter_of_ne hxn]

/-- What a circle is without a cell that it is left by. -/
theorem circle_clear {k : RingKind} {H : ExtRef} {l : List ExtRef}
    (h : Circle mem k.next k.prev H l) (hr : r ∉ H :: l) :
    Circle (mem.alter r k.clear) k.next k.prev H l := by
  have hx (x : ExtRef) (hx : x ∈ H :: l) : mem.alter r k.clear x = mem x :=
    alter_of_ne fun he => hr (he ▸ hx)
  exact h.congr (fun x hl => by rw [hx x hl]) (fun x hl => by rw [hx x hl])

/-- What clearing does to a cell without links. -/
theorem alter_clear_of_loose {k : RingKind} (h : (mem r).map k.links = some (none, none)) :
    mem.alter r k.clear = mem := by
  obtain ⟨c, hc, hlinks⟩ := Option.map_eq_some_iff.mp h
  funext x
  by_cases hx : x = r
  · rw [hx, alter_self, hc, Option.map_some, RingKind.clear_of_links hlinks]
  · exact alter_of_ne hx

/-- A cell that has left its circle. -/
structure LeftCircle (k : RingKind) (H : ExtRef) (l₁ l₂ : List ExtRef) (r : ExtRef)
    (mem mem' : ExtMemory) : Prop where
  relinked : Relinked k (H :: (l₁ ++ r :: l₂)) mem mem'
  circle : Circle mem' k.next k.prev H (l₁ ++ l₂)
  loose : (mem' r).map k.links = some (none, none)

/-- **A cell is linked past and its own links are cleared.** -/
theorem bypass_clear {k : RingKind} {H : ExtRef} {l₁ l₂ : List ExtRef}
    (h : Circle mem k.next k.prev H (l₁ ++ r :: l₂)) :
    ∃ mem₁ mem', mem.bypass k r = .ok mem₁ ∧ mem₁.modify r k.clear = .ok mem' ∧
      LeftCircle k H l₁ l₂ r mem mem' := by
  obtain ⟨mem₁, hrun, hrel, hcircle⟩ := bypass_circle h
  have hr : r ∉ H :: (l₁ ++ l₂) := by
    have hd := h.distinct
    rw [← List.cons_append] at hd ⊢
    exact (List.nodup_middle.mp hd |> List.nodup_cons.mp).1
  obtain ⟨c, hc⟩ := h.allocated (x := r) (by simp)
  have hc₁ : mem₁ r = some c := (hrel.others r hr).trans hc
  refine ⟨mem₁, mem₁.alter r k.clear, hrun, modify_eq hc₁ _, ?_, circle_clear hcircle hr, ?_⟩
  · refine Relinked.alter ⟨hrel.rest, fun x hx => hrel.others x fun hmem => hx ?_⟩ (by simp)
      k.clear_clear
    simp only [List.mem_cons, List.mem_append] at hmem ⊢
    tauto
  · rw [alter_self, hc₁]
    exact congrArg some (k.links_clear c)

theorem unlink_circle {k : RingKind} {H : ExtRef} {l₁ l₂ : List ExtRef}
    (h : Circle mem k.next k.prev H (l₁ ++ r :: l₂)) :
    ∃ mem', mem.unlink k r = .ok mem' ∧ LeftCircle k H l₁ l₂ r mem mem' := by
  obtain ⟨mem₁, mem', hrun, hclear, hleft⟩ := bypass_clear h
  obtain ⟨c, hc, hn⟩ := Option.map_eq_some_iff.mp h.next_cell
  have hsome : k.next c ≠ none := by
    rw [hn]
    cases l₂ <;> simp
  exact ⟨mem', by simp only [unlink, load_eq hc, ok_seq, hsome, if_false, hrun, hclear], hleft⟩

theorem lruDelete_circle {H : ExtRef} {l₁ l₂ : List ExtRef}
    (h : Circle mem (RingKind.next .lru) (RingKind.prev .lru) H (l₁ ++ r :: l₂)) :
    ∃ mem', mem.lruDeleteExtConn r = .ok mem' ∧ LeftCircle .lru H l₁ l₂ r mem mem' := by
  obtain ⟨mem₁, mem', hrun, hclear, hleft⟩ := bypass_clear h
  obtain ⟨c, hc, hn⟩ := Option.map_eq_some_iff.mp h.next_cell
  have hsome : c.lruNext ≠ none := by
    change RingKind.next .lru c ≠ none
    rw [hn]
    cases l₂ <;> simp
  refine ⟨mem', ?_, hleft⟩
  simp only [lruDeleteExtConn, load_eq hc, ok_seq, ne_eq, hsome, not_false_eq_true, if_true,
    hrun, hclear]

theorem unlink_loose {k : RingKind} (h : (mem r).map k.links = some (none, none)) :
    mem.unlink k r = .ok mem := by
  obtain ⟨c, hc, hlinks⟩ := Option.map_eq_some_iff.mp h
  have hnone : k.next c = none := congrArg Prod.fst hlinks
  simp only [unlink, load_eq hc, ok_seq, hnone, if_true]
  rfl

theorem lruDelete_loose (h : (mem r).map (RingKind.links .lru) = some (none, none)) :
    mem.lruDeleteExtConn r = .ok mem := by
  obtain ⟨c, hc, hlinks⟩ := Option.map_eq_some_iff.mp h
  have hnone : c.lruNext = none := congrArg Prod.fst hlinks
  simp only [lruDeleteExtConn, load_eq hc, ok_seq, hnone, ne_eq, not_true_eq_false, if_false]
  exact (modify_eq hc _).trans (congrArg Except.ok (alter_clear_of_loose h))

/-! ### A cell is put on a circle -/

/-- The four writes that put a cell in before a head. -/
def splice (mem : ExtMemory) (k : RingKind) (H r p : ExtRef) : ExtMemory :=
  (((mem.alter r (k.setNext (some H))).alter r (k.setPrev (some p))).alter p
    (k.setNext (some r))).alter H (k.setPrev (some r))

/-- A cell that is on a circle now. -/
structure JoinedCircle (k : RingKind) (H : ExtRef) (l : List ExtRef) (r : ExtRef)
    (mem mem' : ExtMemory) : Prop where
  relinked : Relinked k (r :: H :: l) mem mem'
  circle : Circle mem' k.next k.prev H (l ++ [r])

/-- The last cell of a circle, or its head. -/
theorem exists_prev_head {k : RingKind} {H : ExtRef} {l : List ExtRef}
    (h : Circle mem k.next k.prev H l) :
    ∃ p ∈ H :: l, (mem H).map k.prev = some (some p) := by
  have hprev := h.prev_head
  rcases List.eq_nil_or_concat l with rfl | ⟨l', q, rfl⟩
  · exact ⟨H, List.mem_cons_self, by simpa using hprev⟩
  · exact ⟨q, by simp, by simpa using hprev⟩

/-- **The four writes put the cell on the circle.** -/
theorem splice_circle {k : RingKind} {H p : ExtRef} {l : List ExtRef}
    (h : Circle mem k.next k.prev H l) (hr : r ∉ H :: l) (hp : p ∈ H :: l)
    (hH : (mem H).map k.prev = some (some p)) (hc : mem r = some c) :
    JoinedCircle k H l r mem (mem.splice k H r p) := by
  have hpr : p ≠ r := fun he => hr (he ▸ hp)
  have hHr : H ≠ r := fun he => hr (he ▸ List.mem_cons_self)
  obtain ⟨dp, hdp⟩ := h.allocated hp
  obtain ⟨dH, hdH⟩ := h.allocated (x := H) List.mem_cons_self
  constructor
  · exact (((Relinked.refl.alter List.mem_cons_self (k.clear_setNext _)).alter
      List.mem_cons_self (k.clear_setPrev _)).alter (List.mem_cons_of_mem r hp)
      (k.clear_setNext _)).alter (by simp) (k.clear_setPrev _)
  · refine h.insert hr hH ?_ ?_ ?_ ?_ ?_ ?_ <;> unfold splice
    · rw [map_alter (k.next_setPrev k _), alter_self, alter_of_ne hpr, alter_of_ne hpr, hdp]
      exact congrArg some (k.next_setNext _ _)
    · rw [map_alter (k.next_setPrev k _), alter_of_ne hpr.symm, map_alter (k.next_setPrev k _),
        alter_self, hc]
      exact congrArg some (k.next_setNext _ _)
    · rw [alter_self, Option.map_map]
      obtain ⟨e, he⟩ : ∃ e, (((mem.alter r (k.setNext (some H))).alter r
          (k.setPrev (some p))).alter p (k.setNext (some r))) H = some e :=
        exists_of_isSome (by rw [alter_isSome, alter_isSome, alter_isSome, hdH]; rfl)
      rw [he]
      exact congrArg some (k.prev_setPrev _ _)
    · rw [alter_of_ne hHr.symm, alter_of_ne hpr.symm, alter_self, alter_self, hc]
      exact congrArg some (k.prev_setPrev _ _)
    · intro x hxr hxp
      rw [map_alter (k.next_setPrev k _), alter_of_ne hxp, alter_of_ne hxr, alter_of_ne hxr]
    · intro x hxr hxH
      rw [alter_of_ne hxH, map_alter (k.prev_setNext k _), alter_of_ne hxr, alter_of_ne hxr]

theorem linkLast_circle {k : RingKind} {H : ExtRef} {l : List ExtRef}
    (h : Circle mem k.next k.prev H l) (hr : r ∉ H :: l) (hc : mem r = some c) :
    ∃ mem', mem.linkLast k H r = .ok mem' ∧ JoinedCircle k H l r mem mem' := by
  obtain ⟨p, hp, hH⟩ := exists_prev_head h
  refine ⟨mem.splice k H r p, ?_, splice_circle h hr hp hH hc⟩
  have hpr : p ≠ r := fun he => hr (he ▸ hp)
  have hHr : H ≠ r := fun he => hr (he ▸ List.mem_cons_self)
  obtain ⟨dH, hdH, hprev⟩ := Option.map_eq_some_iff.mp hH
  obtain ⟨dp, hdp⟩ := h.allocated hp
  have hc₁ : (mem.alter r (k.setNext (some H))) r = some (k.setNext (some H) c) := by
    rw [alter_self, hc, Option.map_some]
  have hH₁ : (mem.alter r (k.setNext (some H))) H = some dH := (alter_of_ne hHr).trans hdH
  have hH₂ : ((mem.alter r (k.setNext (some H))).alter r (k.setPrev (some p))) H = some dH :=
    (alter_of_ne hHr).trans hH₁
  have hp₂ : ((mem.alter r (k.setNext (some H))).alter r (k.setPrev (some p))) p = some dp := by
    rw [alter_of_ne hpr, alter_of_ne hpr, hdp]
  obtain ⟨e, he⟩ : ∃ e, (((mem.alter r (k.setNext (some H))).alter r
      (k.setPrev (some p))).alter p (k.setNext (some r))) H = some e :=
    exists_of_isSome (by rw [alter_isSome, hH₂]; rfl)
  simp only [linkLast, modify_eq hc, ok_seq, load_eq hH₁, hprev, modify_eq hc₁, load_eq hH₂,
    deref, modify_eq hp₂, modify_eq he, splice]

/-- The order in which `lru_insert_ext_conn` writes makes no difference. -/
theorem lruInsert_circle {l : List ExtRef}
    (h : Circle mem (RingKind.next .lru) (RingKind.prev .lru) .connLru l)
    (hr : r ∉ ExtRef.connLru :: l) (hc : mem r = some c)
    (hloose : (mem r).map (RingKind.links .lru) = some (none, none)) :
    ∃ mem', mem.lruInsertExtConn r = .ok mem' ∧ JoinedCircle .lru .connLru l r mem mem' := by
  obtain ⟨p, hp, hH⟩ := exists_prev_head h
  refine ⟨mem.splice .lru .connLru r p, ?_, splice_circle h hr hp hH hc⟩
  have hpr : p ≠ r := fun he => hr (he ▸ hp)
  have hHr : ExtRef.connLru ≠ r := fun he => hr (he ▸ List.mem_cons_self)
  obtain ⟨dH, hdH, hprev⟩ := Option.map_eq_some_iff.mp hH
  obtain ⟨dp, hdp⟩ := h.allocated hp
  have hc₁ : (mem.alter r (RingKind.setPrev .lru (some p))) r =
      some (RingKind.setPrev .lru (some p) c) := by rw [alter_self, hc, Option.map_some]
  have hc₂ : ((mem.alter r (RingKind.setPrev .lru (some p))).alter r
      (RingKind.setNext .lru (some .connLru))) r =
      some (RingKind.setNext .lru (some .connLru) (RingKind.setPrev .lru (some p) c)) := by
    rw [alter_self, hc₁, Option.map_some]
  have hH₂ : ((mem.alter r (RingKind.setPrev .lru (some p))).alter r
      (RingKind.setNext .lru (some .connLru))) .connLru = some dH := by
    rw [alter_of_ne hHr, alter_of_ne hHr, hdH]
  have hc₃ : (((mem.alter r (RingKind.setPrev .lru (some p))).alter r
      (RingKind.setNext .lru (some .connLru))).alter .connLru (RingKind.setPrev .lru (some r))) r =
      some (RingKind.setNext .lru (some .connLru) (RingKind.setPrev .lru (some p) c)) :=
    (alter_of_ne hHr.symm).trans hc₂
  obtain ⟨e, he⟩ : ∃ e, (((mem.alter r (RingKind.setPrev .lru (some p))).alter r
      (RingKind.setNext .lru (some .connLru))).alter .connLru
      (RingKind.setPrev .lru (some r))) p = some e :=
    exists_of_isSome (by rw [alter_isSome, alter_of_ne hpr, alter_of_ne hpr, hdp]; rfl)
  have hrun : mem.lruInsertExtConn r = .ok ((((mem.alter r (RingKind.setPrev .lru (some p))).alter r
      (RingKind.setNext .lru (some .connLru))).alter .connLru
      (RingKind.setPrev .lru (some r))).alter p (RingKind.setNext .lru (some r))) := by
    unfold lruInsertExtConn
    rw [lruDelete_loose hloose, ok_seq, load_eq hdH, ok_seq]
    change (mem.modify r (RingKind.setPrev .lru (RingKind.prev .lru dH)) >>= _) = _
    rw [hprev, modify_eq hc, ok_seq]
    change (ExtMemory.modify _ r (RingKind.setNext .lru (some .connLru)) >>= _) = _
    rw [modify_eq hc₁, ok_seq, load_eq hc₂, ok_seq]
    change (ExtMemory.modify _ .connLru (RingKind.setPrev .lru (some r)) >>= _) = _
    rw [modify_eq hH₂, ok_seq, load_eq hc₃, ok_seq]
    exact modify_eq he _
  rw [hrun, splice, alter_comm fun c => (RingKind.setNext_setPrev .lru c _ _),
    alter_comm fun c => (RingKind.setNext_setPrev .lru c _ _)]

end ExtMemory

end Server
end Teleproto3
