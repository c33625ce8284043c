/-
# Lists linked in a circle

Cells of a heap linked both ways round a head: `next` leads from the head through the cells and
back to it, `prev` the other way.  `Circle heap next prev H l` says that the cells of the circle
are those at the addresses `l`, in the order of `next`.

The two directions are one notion read twice (`Circle.flip`), so what is proved of `next` holds of
`prev`.  A cell is put in before the head (`Circle.insert`) or taken out (`Circle.unlink`) by two
writes to its neighbours, and no circle sees a write to a cell that is not on it
(`Circle.congr`).
-/

import Mathlib.Data.List.Nodup
import Teleproto3.Lib.LinkedList

namespace Teleproto3
namespace Lib

variable {ι α : Type*} {heap heap' : ι → Option α} {next prev : α → Option ι}

/-! ### One more or one less in a segment -/

/-- A list without one of its cells. -/
theorem erase_middle [DecidableEq ι] {l₁ l₂ : List ι} {a : ι} (hd : (l₁ ++ a :: l₂).Nodup) :
    (l₁ ++ a :: l₂).erase a = l₁ ++ l₂ := by
  have hnot : a ∉ l₁ := fun hmem => (List.nodup_append.mp hd).2.2 a hmem a List.mem_cons_self rfl
  rw [List.erase_append_right _ hnot, List.erase_cons_head]

/-- A list without repetitions whose members are all one. -/
theorem eq_singleton_of_nodup {l : List ι} {a : ι} (hd : l.Nodup) (ha : a ∈ l)
    (hall : ∀ b ∈ l, b = a) : l = [a] := by
  obtain ⟨u, v, rfl⟩ := List.append_of_mem ha
  have hd' := List.nodup_cons.mp (List.nodup_middle.mp hd)
  have hnil : u ++ v = [] := by
    refine List.eq_nil_iff_forall_not_mem.mpr fun b hb => hd'.1 ?_
    have hba := hall b (by simp only [List.mem_append, List.mem_cons] at hb ⊢; tauto)
    rwa [← hba]
  obtain ⟨rfl, rfl⟩ := List.append_eq_nil_iff.mp hnil
  rfl

/-- Where a segment begins. -/
theorem Segment.start {p q : Option ι} {l : List ι} (h : Segment heap next p l q) :
    p = l.head?.or q := by
  cases l with
  | nil => exact h
  | cons a l => exact h.1

/-- The link of a cell on a segment. -/
theorem Segment.link {p q : Option ι} {l l' : List ι} {a : ι}
    (h : Segment heap next p (l ++ a :: l') q) :
    (heap a).map next = some (l'.head?.or q) := by
  obtain ⟨m, -, -, c, hc, hrest⟩ := segment_append.mp h
  rw [hc, Option.map_some, hrest.start]

/-- A cell is put in behind another. -/
theorem Segment.insert {s q : Option ι} {u l : List ι} {p a : ι}
    (h : Segment heap next s (u ++ p :: l) q) (hd : (u ++ p :: l).Nodup) (ha : a ∉ u ++ p :: l)
    (hp : (heap' p).map next = some (some a)) (hnew : (heap' a).map next = (heap p).map next)
    (hx : ∀ x, x ≠ a → x ≠ p → (heap' x).map next = (heap x).map next) :
    Segment heap' next s (u ++ p :: a :: l) q := by
  obtain ⟨m, hu, rfl, c, hc, hl⟩ := segment_append.mp h
  obtain ⟨d, hd', hda⟩ := Option.map_eq_some_iff.mp hp
  rw [hc] at hnew
  obtain ⟨e, he, hec⟩ := Option.map_eq_some_iff.mp hnew
  rw [List.nodup_append] at hd
  obtain ⟨-, hpl, hdis⟩ := hd
  simp only [List.mem_append, List.mem_cons, not_or] at ha
  have hu' : Segment heap' next s u (some p) := by
    refine (segment_congr fun x hxu => hx x ?_ ?_).mpr hu
    · rintro rfl
      exact ha.1 hxu
    · rintro rfl
      exact hdis x hxu x List.mem_cons_self rfl
  have hl' : Segment heap' next (next c) l q := by
    refine (segment_congr fun x hxl => hx x ?_ ?_).mpr hl
    · rintro rfl
      exact ha.2.2 hxl
    · rintro rfl
      exact (List.nodup_cons.mp hpl).1 hxl
  exact segment_append.mpr ⟨some p, hu', rfl, d, hd', hda, e, he, hec ▸ hl'⟩

/-- A cell is taken out from behind another. -/
theorem Segment.unlink {s q : Option ι} {u l : List ι} {p a : ι}
    (h : Segment heap next s (u ++ p :: a :: l) q) (hd : (u ++ p :: a :: l).Nodup)
    (hp : (heap' p).map next = (heap a).map next)
    (hx : ∀ x, x ≠ a → x ≠ p → (heap' x).map next = (heap x).map next) :
    Segment heap' next s (u ++ p :: l) q := by
  obtain ⟨m, hu, rfl, c, hc, hca, e, he, hl⟩ := segment_append.mp h
  rw [he] at hp
  obtain ⟨d, hd', hde⟩ := Option.map_eq_some_iff.mp hp
  rw [List.nodup_append] at hd
  obtain ⟨-, hpl, hdis⟩ := hd
  simp only [List.nodup_cons, List.mem_cons, not_or] at hpl
  obtain ⟨⟨-, hpl⟩, hal, -⟩ := hpl
  have hu' : Segment heap' next s u (some p) := by
    refine (segment_congr fun x hxu => hx x ?_ ?_).mpr hu
    · rintro rfl
      exact hdis x hxu x (List.mem_cons_of_mem p List.mem_cons_self) rfl
    · rintro rfl
      exact hdis x hxu x List.mem_cons_self rfl
  have hl' : Segment heap' next (next e) l q := by
    refine (segment_congr fun x hxl => hx x ?_ ?_).mpr hl
    · rintro rfl
      exact hal hxl
    · rintro rfl
      exact hpl hxl
  exact segment_append.mpr ⟨some p, hu', rfl, d, hd', hde ▸ hl'⟩

/-! ### The circle -/

/-- **The cells at the addresses `l` are linked in a circle through `H`.** -/
structure Circle (heap : ι → Option α) (next prev : α → Option ι) (H : ι) (l : List ι) :
    Prop where
  distinct : (H :: l).Nodup
  forward : Segment heap next (some H) (H :: l) (some H)
  backward : Segment heap prev (some H) (H :: l.reverse) (some H)

namespace Circle

variable {H : ι} {l : List ι}

/-- The circle the other way round. -/
theorem flip (h : Circle heap next prev H l) : Circle heap prev next H l.reverse where
  distinct := by
    have hd := h.distinct
    rw [List.nodup_cons] at hd ⊢
    exact ⟨fun hm => hd.1 (List.mem_reverse.mp hm), List.nodup_reverse.mpr hd.2⟩
  forward := h.backward
  backward := by rw [List.reverse_reverse]; exact h.forward

/-- A head that is linked to itself. -/
theorem nil {c : α} (hc : heap H = some c) (hn : next c = some H) (hp : prev c = some H) :
    Circle heap next prev H [] where
  distinct := List.nodup_singleton H
  forward := ⟨rfl, c, hc, hn⟩
  backward := ⟨rfl, c, hc, hp⟩

/-- **A circle reads only the links of its own cells.** -/
theorem congr (h : Circle heap next prev H l)
    (hn : ∀ x ∈ H :: l, (heap' x).map next = (heap x).map next)
    (hp : ∀ x ∈ H :: l, (heap' x).map prev = (heap x).map prev) :
    Circle heap' next prev H l where
  distinct := h.distinct
  forward := (segment_congr hn).mpr h.forward
  backward := by
    refine (segment_congr fun x hx => hp x ?_).mpr h.backward
    simpa only [List.mem_cons, List.mem_reverse] using hx

/-- The first cell. -/
theorem next_head (h : Circle heap next prev H l) :
    (heap H).map next = some (l.head?.or (some H)) :=
  Segment.link (l := []) h.forward

/-- The last cell. -/
theorem prev_head (h : Circle heap next prev H l) :
    (heap H).map prev = some (l.getLast?.or (some H)) := by
  have hlast := h.flip.next_head
  rwa [List.head?_reverse] at hlast

/-- The cells of a circle are there. -/
theorem allocated (h : Circle heap next prev H l) {x : ι} (hx : x ∈ H :: l) :
    ∃ c, heap x = some c := by
  obtain ⟨u, v, huv⟩ := List.append_of_mem hx
  have hforward := h.forward
  rw [huv] at hforward
  obtain ⟨c, hc, -⟩ := Option.map_eq_some_iff.mp hforward.link
  exact ⟨c, hc⟩

/-- The cell behind a cell. -/
theorem next_cell {l₁ l₂ : List ι} {a : ι} (h : Circle heap next prev H (l₁ ++ a :: l₂)) :
    (heap a).map next = some (l₂.head?.or (some H)) :=
  Segment.link (l := H :: l₁) h.forward

/-- The cell before a cell. -/
theorem prev_cell {l₁ l₂ : List ι} {a : ι} (h : Circle heap next prev H (l₁ ++ a :: l₂)) :
    (heap a).map prev = some (l₁.getLast?.or (some H)) := by
  have hflip := h.flip
  rw [List.reverse_append, List.reverse_cons, List.append_assoc, List.singleton_append] at hflip
  have hlast := hflip.next_cell
  rwa [List.head?_reverse] at hlast

/-- A list and the cell that stands before its end. -/
theorem exists_last (H : ι) (l : List ι) :
    ∃ u p, H :: l = u ++ [p] ∧ l.getLast?.or (some H) = some p := by
  rcases List.eq_nil_or_concat l with rfl | ⟨l, p, rfl⟩
  · exact ⟨[], H, rfl, rfl⟩
  · exact ⟨H :: l, p, by simp, by simp⟩

/-- **A cell is put in before the head.** -/
theorem insert (h : Circle heap next prev H l) {a p : ι} (ha : a ∉ H :: l)
    (hp : (heap H).map prev = some (some p))
    (hpa : (heap' p).map next = some (some a)) (haH : (heap' a).map next = some (some H))
    (hHa : (heap' H).map prev = some (some a)) (hap : (heap' a).map prev = some (some p))
    (hn : ∀ x, x ≠ a → x ≠ p → (heap' x).map next = (heap x).map next)
    (hx : ∀ x, x ≠ a → x ≠ H → (heap' x).map prev = (heap x).map prev) :
    Circle heap' next prev H (l ++ [a]) := by
  obtain ⟨u, p', hu, hp'⟩ := exists_last H l
  obtain rfl : p = p' := by
    have hlast := h.prev_head
    rw [hp, hp'] at hlast
    exact Option.some.inj (Option.some.inj hlast)
  have hforward := h.forward
  have hd := h.distinct
  have ha' := ha
  rw [hu] at hforward hd ha'
  have hlink : (heap p).map next = some (some H) := hforward.link
  refine ⟨?_, ?_, ?_⟩
  · rw [← List.cons_append]
    refine List.nodup_append.mpr ⟨h.distinct, List.nodup_singleton a, ?_⟩
    rintro x hxl y hy rfl
    exact ha (List.mem_singleton.mp hy ▸ hxl)
  · rw [← List.cons_append, hu, List.append_assoc]
    exact hforward.insert hd ha' hpa (haH.trans hlink.symm) hn
  · rw [List.reverse_append, List.reverse_singleton, List.singleton_append]
    have hflip := h.flip
    refine Segment.insert (u := []) hflip.forward hflip.distinct ?_ hHa (hap.trans hp.symm) hx
    simpa using ha

/-- Of the two directions of `unlink`, the one by `next`. -/
theorem unlink_forward {l₁ l₂ : List ι} {a p n : ι} (h : Circle heap next prev H (l₁ ++ a :: l₂))
    (hn : (heap a).map next = some (some n)) (hp : (heap a).map prev = some (some p))
    (hpn : (heap' p).map next = some (some n))
    (hx : ∀ x, x ≠ a → x ≠ p → (heap' x).map next = (heap x).map next) :
    Segment heap' next (some H) (H :: (l₁ ++ l₂)) (some H) := by
  obtain ⟨u, p', hu, hp'⟩ := exists_last H l₁
  obtain rfl : p = p' := by
    have hlast := h.prev_cell
    rw [hp, hp'] at hlast
    exact Option.some.inj (Option.some.inj hlast)
  have hforward := h.forward
  have hd := h.distinct
  rw [← List.cons_append, hu, List.append_assoc] at hforward hd
  rw [← List.cons_append, hu, List.append_assoc]
  exact hforward.unlink hd (hpn.trans hn.symm) hx

/-- **A cell is taken out.** -/
theorem unlink {l₁ l₂ : List ι} {a p n : ι} (h : Circle heap next prev H (l₁ ++ a :: l₂))
    (hn : (heap a).map next = some (some n)) (hp : (heap a).map prev = some (some p))
    (hpn : (heap' p).map next = some (some n)) (hnp : (heap' n).map prev = some (some p))
    (hx : ∀ x, x ≠ a → x ≠ p → (heap' x).map next = (heap x).map next)
    (hy : ∀ x, x ≠ a → x ≠ n → (heap' x).map prev = (heap x).map prev) :
    Circle heap' next prev H (l₁ ++ l₂) := by
  have hflip := h.flip
  rw [List.reverse_append, List.reverse_cons, List.append_assoc, List.singleton_append] at hflip
  refine ⟨?_, h.unlink_forward hn hp hpn hx, ?_⟩
  · exact h.distinct.sublist (List.Sublist.cons_cons H
      (List.Sublist.append_left (List.sublist_cons_self a l₂) l₁))
  · rw [List.reverse_append]
    exact hflip.unlink_forward hp hn hnp hy

end Circle

end Lib
end Teleproto3
