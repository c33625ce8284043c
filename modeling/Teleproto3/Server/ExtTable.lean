/-
# The table of ext_connections against its ledger

`ExtTable.Holds m L` ties the memory of the program to the ledger: every circle, every chain and
every slot holds the entries that are live and no others.  What the functions that look up find
is read off it (`find_live`, `find_other`, `getByInFd_live`, `getByInFd_none`).
-/

import Teleproto3.Server.ExtChains
import Teleproto3.Server.ExtLedger

namespace Teleproto3
namespace Server

open Lib ExtMemory

variable {m : ExtTable} {L : ExtLedger} {S : ExtLayout} {a : ℕ} {e : ExtEntry}

/-- **The table holds exactly what the ledger lists**: the circles, the chains, the slots and the
counters. -/
structure ExtTable.Holds (m : ExtTable) (L : ExtLedger) : Prop where
  sound : L.Sound
  laidOut : ∃ used : ExtRing → Prop, LaidOut m.mem m.inExtConnectionHash (L.layout used) ∧
    used .lru ∧ ∀ fd, used (.outbound fd) ↔ ∃ c ∈ L.ready, c.fd = fd
  ids : ∀ s, (m.outExtConnections s).outConnId = L.issued s
  refs : ∀ s r, (m.outExtConnections s).ref = some r ↔
    ∃ x ∈ L.live, r = .cell x.1 ∧ slotOf x.2.outConnId = s
  count : m.extConnections = L.live.length
  created : m.extConnectionsCreated = L.live.length + L.removed.length
  tags : ∀ c ∈ L.ready, m.extraInt c.job = c.tag
  untagged : ∀ j, (∀ c ∈ L.ready, c.job ≠ j) → m.extraInt j = 0

theorem check_pos {p : Prop} [Decidable p] (h : p) (f : ExtFault) : check p f = .ok () := if_pos h

/-- The program as it starts. -/
theorem ExtTable.empty_holds : ExtTable.empty.Holds .start where
  sound := ExtLedger.start_sound
  laidOut := by
    refine ⟨fun R => R = .lru, ⟨⟨List.nodup_nil, by simp [ExtLedger.layout, ExtLedger.start],
      fun _ _ => rfl, fun _ => rfl, rfl⟩, ⟨fun R => ⟨?_, fun hu => ⟨?_, ?_⟩⟩, ?_, ?_, ?_⟩,
      ⟨fun _ => rfl, ?_, fun _ => List.nodup_nil, ?_⟩⟩, rfl, ?_⟩
    · rintro rfl
      exact Circle.nil rfl rfl rfl
    · cases R with
      | lru => exact absurd rfl hu
      | outbound fd => rfl
      | inbound fd => rfl
    · cases R with
      | lru => exact absurd rfl hu
      | outbound fd => rfl
      | inbound fd => exact ite_self _
    · intro R b hb
      cases R <;> simp [ExtLedger.layout, ExtLedger.ring, ExtLedger.start, ExtLedger.having] at hb
    · intro R R' b _ hb
      cases R <;> simp [ExtLedger.layout, ExtLedger.ring, ExtLedger.start, ExtLedger.having] at hb
    · intro k b hb
      exact absurd hb List.not_mem_nil
    · intro i b hb
      exact absurd hb List.not_mem_nil
    · intro i i' b hb
      exact absurd hb List.not_mem_nil
    · simp [ExtLedger.start]
  ids _ := rfl
  refs := by simp [ExtTable.empty, ExtLedger.start]
  count := rfl
  created := rfl
  tags := by simp [ExtLedger.start]
  untagged _ _ := rfl

/-! ### Reading -/

namespace ExtLedger

@[simp] theorem layout_addresses (used : ExtRing → Prop) :
    cellAddresses (L.layout used).cells = L.addresses := by
  simp only [cellAddresses, layout, addresses, List.map_map]
  rfl

theorem mem_layout {used : ExtRing → Prop} (h : (a, e) ∈ L.live) :
    (a, e.connection) ∈ (L.layout used).cells :=
  List.mem_map_of_mem (f := fun x => (x.1, x.2.connection)) h

end ExtLedger

namespace ExtTable.Holds

/-- The cell of an entry. -/
theorem load (h : m.Holds L) (hx : (a, e) ∈ L.live) :
    ∃ c, m.mem (.cell a) = some c ∧ c.unlinked = e.connection := by
  obtain ⟨used, hl, -, -⟩ := h.laidOut
  exact Option.map_eq_some_iff.mp (hl.stored.entries _ (ExtLedger.mem_layout hx))

/-- **`find_ext_connection_by_out_conn_id` finds a live entry by its id.** -/
theorem find_live (h : m.Holds L) (hx : (a, e) ∈ L.live) :
    m.findExtConnectionByOutConnId e.outConnId = .ok (some (.cell a)) := by
  have href := (h.refs (slotOf e.outConnId) (.cell a)).mpr ⟨(a, e), hx, rfl, rfl⟩
  have hid : (m.outExtConnections (slotOf e.outConnId)).outConnId = e.outConnId :=
    (h.ids _).trans (h.sound.current (a, e) hx).1
  obtain ⟨c, hc, hce⟩ := h.load hx
  have hcid : c.outConnId = e.outConnId := congrArg ExtConnection.outConnId hce
  simp only [findExtConnectionByOutConnId, href, hid, ne_eq, not_true_eq_false, if_false,
    load_eq hc, ok_seq, check_pos hcid]
  rfl

/-- **It finds nothing by any other id.** -/
theorem find_other (h : m.Holds L) {id : UInt64} (hno : ∀ x ∈ L.live, x.2.outConnId ≠ id) :
    m.findExtConnectionByOutConnId id = .ok none := by
  cases href : (m.outExtConnections (slotOf id)).ref with
  | none =>
    simp only [findExtConnectionByOutConnId, href]
    rfl
  | some r =>
    obtain ⟨x, hx, -, hs⟩ := (h.refs _ _).mp href
    have hne : (m.outExtConnections (slotOf id)).outConnId ≠ id := by
      rw [h.ids, ← hs, (h.sound.current x hx).1]
      exact hno x hx
    simp only [findExtConnectionByOutConnId, href, ne_eq, hne, not_false_eq_true, if_true]
    rfl

/-- The circle of a client's `fd`. -/
theorem ring_inbound (h : m.Holds L) (hx : (a, e) ∈ L.live) (hfd : e.inFd ≠ 0) :
    L.ring (.inbound e.inFd) = [a] := by
  rw [ExtLedger.ring, if_neg hfd]
  refine eq_singleton_of_nodup (ExtLedger.nodup_having h.sound _)
    (ExtLedger.mem_having.mpr ⟨e, hx, decide_eq_true rfl⟩) fun b hb => ?_
  obtain ⟨e', hx', he'⟩ := ExtLedger.mem_having.mp hb
  exact congrArg Prod.fst (h.sound.of_inFd hx' hx (of_decide_eq_true he'))

theorem ring_inbound_none {fd : ℕ} (hno : ∀ x ∈ L.live, x.2.inFd ≠ fd) :
    L.ring (.inbound fd) = [] := by
  rw [ExtLedger.ring]
  split_ifs
  · rfl
  · refine List.eq_nil_iff_forall_not_mem.mpr fun b hb => ?_
    obtain ⟨e, hx, he⟩ := ExtLedger.mem_having.mp hb
    exact hno _ hx (of_decide_eq_true he)

/-- **`get_ext_connection_by_in_fd` finds the entry of a client.** -/
theorem getByInFd_live (h : m.Holds L) (hx : (a, e) ∈ L.live) (hfd : e.inFd ≠ 0) :
    m.getExtConnectionByInFd e.inFd = .ok (some (.cell a)) := by
  obtain ⟨used, hl, -, -⟩ := h.laidOut
  have hring : (L.layout used).ring (.inbound e.inFd) = [a] := ring_inbound h hx hfd
  have hcircle := hl.ringed.circle (hl.ringed.used_of_mem (a := a) (R := .inbound e.inFd) (by
    rw [hring]
    exact List.mem_cons_self))
  rw [hring] at hcircle
  obtain ⟨d, hd, hnext⟩ := Option.map_eq_some_iff.mp hcircle.next_head
  have hprev := hcircle.prev_head
  rw [hd] at hprev
  have hn : d.iNext = some (.cell a) := hnext
  have hp : d.iPrev = some (.cell a) := Option.some.inj hprev
  have hd' : m.mem (.head e.inFd) = some d := hd
  obtain ⟨c, hc, hce⟩ := h.load hx
  have hcfd : c.inFd = e.inFd := congrArg ExtConnection.inFd hce
  simp only [getExtConnectionByInFd, check_pos (h.sound.inRange _ hx), ok_seq, load_eq hd',
    hn, check_pos hp.symm, load_eq hc, check_pos hcfd]
  rfl

/-- **It finds nothing for any other client.** -/
theorem getByInFd_none (h : m.Holds L) {fd : ℕ} (hfd : fd < MAX_CONNECTIONS)
    (hring : L.ring (.inbound fd) = []) : m.getExtConnectionByInFd fd = .ok none := by
  obtain ⟨used, hl, -, -⟩ := h.laidOut
  have hr : (L.layout used).ring (.inbound fd) = [] := hring
  obtain ⟨d, hd, hn, hp⟩ : ∃ d, m.mem (.head fd) = some d ∧
      (d.iNext = none ∨ d.iNext = some (.head fd)) ∧ d.iNext = d.iPrev := by
    by_cases hu : used (.inbound fd)
    · have hcircle := hl.ringed.circle (R := .inbound fd) hu
      rw [hr] at hcircle
      obtain ⟨d, hd, hnext⟩ := Option.map_eq_some_iff.mp hcircle.next_head
      have hprev := hcircle.prev_head
      rw [hd] at hprev
      exact ⟨d, hd, .inr hnext, hnext.trans (Option.some.inj hprev).symm⟩
    · obtain ⟨d, hd, hlinks⟩ := Option.map_eq_some_iff.mp
        ((hl.ringed.tied (.inbound fd)).unused hu).1
      obtain ⟨hn, hp⟩ := Prod.mk.inj hlinks
      exact ⟨d, hd, .inl hn, hn.trans hp.symm⟩
  rcases hn with hn | hn
  all_goals
    simp only [getExtConnectionByInFd, check_pos hfd, ok_seq, load_eq hd, hn,
      check_pos (hn.symm.trans hp), if_true]
    rfl

end ExtTable.Holds

end Server
end Teleproto3
