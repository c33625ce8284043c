/-
# The connections of data centres and the table of ext_connections

A connection of a data centre opens its circle when it is ready (`ExtTable.Holds.markReady`).  When
it closes, the entries on the circle are removed one by one, by a loop that reads the next link
before the entry is freed (`closeLoop_eq`), and the circle ends (`ExtTable.Holds.close`).  A
client's entry is moved to the end of the order of use by `lru_insert_conn`
(`ExtTable.Holds.touch`).
-/

import Teleproto3.Server.ExtRemoval

namespace Teleproto3
namespace Server

open Lib ExtMemory

variable {m : ExtTable} {L : ExtLedger} {a : ℕ} {e : ExtEntry}

namespace ExtLedger

/-- The entries joined to a connection on an `fd`. -/
def joinedTo (L : ExtLedger) (fd : ℕ) : List (ℕ × ExtEntry) := L.live.filter fun x => x.2.OutOn fd

theorem having_outOn (L : ExtLedger) (fd : ℕ) :
    (L.having fun e => e.OutOn fd) = (L.joinedTo fd).map Prod.fst := rfl

/-- Whom `mtfront_client_close` tells: the clients of what was joined to the connection. -/
def closeNotices (L : ExtLedger) (conns : ExtTable.Connections) (c : ConnectionJob) :
    List ExtNotice :=
  if c ∈ L.ready then (L.joinedTo c.fd).flatMap fun x => x.2.notices conns 2 else []

/-- The first of them leaves the rest. -/
theorem joinedTo_remove {x : ℕ × ExtEntry} {l : List (ℕ × ExtEntry)} {fd : ℕ} (hL : L.Sound)
    (hx : L.joinedTo fd = x :: l) : (L.remove x.1).joinedTo fd = l := by
  have hd := nodup_having hL fun e => e.OutOn fd
  rw [having_outOn, hx, List.map_cons, List.nodup_cons] at hd
  have hcomm : (L.remove x.1).joinedTo fd = (L.joinedTo fd).filter fun y => y.1 ≠ x.1 :=
    List.filter_comm ..
  rw [hcomm, hx, List.filter_cons_of_neg (by simp)]
  refine List.filter_eq_self.mpr fun y hy => decide_eq_true fun he => hd.1 ?_
  rw [← he]
  exact List.mem_map_of_mem hy

/-- The entry of a client goes to the end. -/
theorem touch_live (hL : L.Sound) (hx : (a, e) ∈ L.live) {c : ConnectionJob}
    (hfd : e.inFd = c.fd) (hgen : e.inGen = c.generation) (h0 : c.fd ≠ 0) :
    L.touch c = { L with lru := L.lru.erase a ++ [a] } := by
  have hfind : (L.live.find? fun x => x.2.inFd = c.fd ∧ x.2.inGen = c.generation ∧ c.fd ≠ 0) =
      some (a, e) := by
    cases hf : L.live.find? fun x => x.2.inFd = c.fd ∧ x.2.inGen = c.generation ∧ c.fd ≠ 0 with
    | none =>
      have hno := List.find?_eq_none.mp hf (a, e) hx
      exact absurd (decide_eq_true ⟨hfd, hgen, h0⟩) hno
    | some y =>
      have hy := of_decide_eq_true (List.find?_some (p := fun x : ℕ × ExtEntry =>
        decide (x.2.inFd = c.fd ∧ x.2.inGen = c.generation ∧ c.fd ≠ 0)) hf)
      rw [hL.of_inFd (List.mem_of_find?_eq_some hf) hx (hy.1.trans hfd.symm)]
  rw [touch, hfind]

theorem touch_none {c : ConnectionJob}
    (hno : ∀ x ∈ L.live, ¬ (x.2.inFd = c.fd ∧ x.2.inGen = c.generation ∧ c.fd ≠ 0)) :
    L.touch c = L := by
  have hfind : (L.live.find? fun x => x.2.inFd = c.fd ∧ x.2.inGen = c.generation ∧ c.fd ≠ 0) =
      none := List.find?_eq_none.mpr fun x hx => by simpa using hno x hx
  rw [touch, hfind]

end ExtLedger

namespace ExtTable.Holds

/-- **`mtfront_client_ready`.** -/
theorem markReady (h : m.Holds L) {c : ConnectionJob} (hfd : c.fd < MAX_CONNECTIONS)
    (hfds : ∀ d ∈ L.ready, d.fd ≠ c.fd) (hjobs : ∀ d ∈ L.ready, d.job ≠ c.job) :
    ∃ m', m.mtfrontClientReady c = .ok m' ∧ m'.Holds (L.markReady c) := by
  obtain ⟨used, hl, hlru, hout⟩ := h.laidOut
  have hu : ¬ used (.outbound c.fd) := by
    rintro hu
    obtain ⟨d, hd, hdfd⟩ := (hout c.fd).mp hu
    exact hfds d hd hdfd
  obtain ⟨hlinks, hring⟩ := (hl.ringed.tied (.outbound c.fd)).unused hu
  obtain ⟨d, hd, hdl⟩ := Option.map_eq_some_iff.mp hlinks
  have hd' : m.mem (.head c.fd) = some d := hd
  have hp : d.oPrev = none := congrArg Prod.snd hdl
  have hl' := hl.setUsed (R := .outbound c.fd) (u := True)
    (f := fun h => { h with
      oPrev := some (.head c.fd), oNext := some (.head c.fd), outFd := c.fd }) hring
    (fun c k hk => by
      cases k with
      | outbound => exact absurd rfl hk
      | inbound => rfl
      | lru => rfl) (fun _ _ => rfl) (fun hf => absurd trivial hf) (hl.stored.heads c.fd)
  refine ⟨{ m with
      mem := m.mem.alter (.head c.fd) fun h => { h with
        oPrev := some (.head c.fd), oNext := some (.head c.fd), outFd := c.fd }
      extraInt := Function.update m.extraInt c.job c.tag }, ?_, h.sound.markReady hfd hfds hjobs,
    ⟨Function.update used (.outbound c.fd) True, hl', ?_, fun fd => ?_⟩, h.ids, h.refs, h.count,
    h.created, fun d hd => ?_, fun j hj => ?_⟩
  · simp only [mtfrontClientReady, check_pos hfd, ok_seq, check_pos (h.untagged c.job hjobs),
      load_eq hd', check_pos hp, modify_eq hd']
    rfl
  · rw [Function.update_of_ne (by simp)]
    exact hlru
  · by_cases hf : fd = c.fd
    · rw [hf, Function.update_self]
      exact iff_of_true trivial ⟨c, List.mem_append_right _ List.mem_cons_self, rfl⟩
    · rw [Function.update_of_ne (by simpa using hf), hout]
      constructor
      · rintro ⟨d, hd, hdf⟩
        exact ⟨d, List.mem_append_left _ hd, hdf⟩
      · rintro ⟨d, hd, hdf⟩
        rcases List.mem_append.mp hd with hd | hd
        · exact ⟨d, hd, hdf⟩
        · rw [List.mem_singleton.mp hd] at hdf
          exact absurd hdf.symm hf
  · change Function.update m.extraInt c.job c.tag d.job = d.tag
    rcases List.mem_append.mp hd with hd | hd
    · rw [Function.update_of_ne (hjobs d hd)]
      exact h.tags d hd
    · rw [List.mem_singleton.mp hd, Function.update_self]
  · change Function.update m.extraInt c.job c.tag j = 0
    rw [Function.update_of_ne fun he =>
      hj c (List.mem_append_right _ List.mem_cons_self) he.symm]
    exact h.untagged j fun d hd => hj d (List.mem_append_left _ hd)

/-- The circle of a connection that is ready. -/
theorem circle_outbound (h : m.Holds L) {fd : ℕ} (hr : ∃ c ∈ L.ready, c.fd = fd) :
    Circle m.mem (RingKind.next .outbound) (RingKind.prev .outbound) (.head fd)
      (cellRefs ((L.joinedTo fd).map Prod.fst)) := by
  obtain ⟨used, hl, -, hout⟩ := h.laidOut
  exact hl.ringed.circle (R := .outbound fd) ((hout fd).mpr hr)

/-- **The loop of `mtfront_client_close`** removes what is on the circle, and tells the clients. -/
theorem closeLoop_eq (h : m.Holds L) (conns : Connections) {fd n : ℕ}
    (hr : ∃ c ∈ L.ready, c.fd = fd) {l : List (ℕ × ExtEntry)} (hl : L.joinedTo fd = l)
    (hrem : ∀ x ∈ l, x.2.Removable 2) (hn : l.length < n) :
    ∃ m', closeLoop conns fd n ((cellRefs (l.map Prod.fst)).head?.or (some (.head fd))) m =
        .ok (m', l.flatMap fun x => x.2.notices conns 2) ∧
      m'.Holds (L.removeAll (l.map Prod.fst)) := by
  induction l generalizing n m L with
  | nil =>
    obtain ⟨n, rfl⟩ : ∃ k, n = k + 1 := Nat.exists_eq_succ_of_ne_zero (by omega)
    refine ⟨m, ?_, h⟩
    simp only [closeLoop, cellRefs, List.map_nil, List.head?_nil, Option.none_or, if_true]
    rfl
  | cons x l ih =>
    obtain ⟨n, rfl⟩ : ∃ k, n = k + 1 := Nat.exists_eq_succ_of_ne_zero (by omega)
    obtain ⟨a, e⟩ := x
    have hmem : (a, e) ∈ L.joinedTo fd := hl ▸ List.mem_cons_self
    obtain ⟨hx, hon⟩ := List.mem_filter.mp hmem
    obtain ⟨c, hc, hce⟩ := h.load hx
    -- The entry is on this circle, and the link is read before it goes.
    have hfd : c.outFd = fd := by
      have hof : c.outFd = e.outFd := congrArg ExtConnection.outFd hce
      have hon' : e.out.map Prod.fst = some fd := of_decide_eq_true hon
      rw [hof, ExtEntry.outFd, hon']
      rfl
    have hcircle := h.circle_outbound hr
    rw [hl] at hcircle
    change Circle _ _ _ _ ([] ++ ExtRef.cell a :: cellRefs (l.map Prod.fst)) at hcircle
    have hnext : (m.mem (.cell a)).map (RingKind.next .outbound) =
        some ((cellRefs (l.map Prod.fst)).head?.or (some (.head fd))) := hcircle.next_cell
    rw [hc] at hnext
    have hon' : c.oNext = (cellRefs (l.map Prod.fst)).head?.or (some (.head fd)) :=
      Option.some.inj hnext
    obtain ⟨m₁, hrun₁, h₁⟩ := h.remove hx conns (hrem _ List.mem_cons_self)
    have hlt : l.length < n := by
      rw [List.length_cons] at hn
      omega
    obtain ⟨m₂, hrun₂, h₂⟩ := ih h₁ hr (ExtLedger.joinedTo_remove h.sound hl)
      (fun y hy => hrem y (List.mem_cons_of_mem _ hy)) hlt
    refine ⟨m₂, ?_, h₂⟩
    have hne : some (ExtRef.cell a) ≠ some (.head fd) := by simp
    simp only [closeLoop, cellRefs, List.map_cons, List.head?_cons, Option.some_or, hne, if_false,
      deref, ok_seq, load_eq hc, check_pos hfd, hrun₁, hon']
    change (closeLoop conns fd n ((cellRefs (l.map Prod.fst)).head?.or (some (.head fd))) m₁ >>=
      _) = _
    rw [hrun₂]
    rfl

/-- The circle of a connection ends when nothing is on it. -/
theorem endCircle (h : m.Holds L) {c : ConnectionJob} (hc : c ∈ L.ready)
    (hempty : L.joinedTo c.fd = []) :
    ∃ d mem', m.mem (.head c.fd) = some d ∧
      (d.oNext = some (.head c.fd) ∧ d.oPrev = some (.head c.fd)) ∧
      m.mem.modify (.head c.fd) (fun h => { h with oNext := none, oPrev := none, outFd := 0 }) =
        .ok mem' ∧
      ({ m with mem := mem', extraInt := Function.update m.extraInt c.job 0 } : ExtTable).Holds
        { L with ready := L.ready.filter fun d => d ≠ c } := by
  have hcircle := h.circle_outbound ⟨c, hc, rfl⟩
  rw [hempty] at hcircle
  obtain ⟨d, hd, hnext⟩ := Option.map_eq_some_iff.mp hcircle.next_head
  have hprev := hcircle.prev_head
  rw [hd] at hprev
  obtain ⟨used, hl, hlru, hout⟩ := h.laidOut
  have hring : (L.layout used).ring (.outbound c.fd) = [] := by
    change (L.joinedTo c.fd).map Prod.fst = []
    rw [hempty]
    rfl
  have hl' := hl.setUsed (R := .outbound c.fd) (u := False)
    (f := fun h => { h with oNext := none, oPrev := none, outFd := 0 }) hring
    (fun c k hk => by
      cases k with
      | outbound => exact absurd rfl hk
      | inbound => rfl
      | lru => rfl) (fun hf => hf.elim) (fun _ _ => rfl) (hl.stored.heads c.fd)
  have hsub : (L.ready.filter fun d => d ≠ c).Sublist L.ready := List.filter_sublist
  have hfds {d : ConnectionJob} (hd : d ∈ L.ready) (hdf : d.fd = c.fd) : d = c :=
    List.inj_on_of_nodup_map h.sound.readyFds hd hc hdf
  have hjobs {d : ConnectionJob} (hd : d ∈ L.ready) (hdj : d.job = c.job) : d = c :=
    List.inj_on_of_nodup_map h.sound.readyJobs hd hc hdj
  refine ⟨d, _, hd, ⟨hnext, Option.some.inj hprev⟩, modify_eq hd _, ?_,
    ⟨Function.update used (.outbound c.fd) False, hl', ?_, fun fd => ?_⟩, h.ids, h.refs, h.count,
    h.created, fun d hd => ?_, fun j hj => ?_⟩
  · refine ⟨h.sound.cells, h.sound.sole, h.sound.ids, h.sound.inRange, fun x hx o ho => ?_,
      fun d hd => h.sound.readyRange d (hsub.subset hd), h.sound.readyFds.sublist (hsub.map _),
      h.sound.readyJobs.sublist (hsub.map _), h.sound.current, h.sound.past, h.sound.used⟩
    obtain ⟨d, hd, hdf, hdg⟩ := h.sound.joined x hx o ho
    refine ⟨d, List.mem_filter.mpr ⟨hd, decide_eq_true ?_⟩, hdf, hdg⟩
    rintro rfl
    have hx' : x ∈ L.joinedTo d.fd := by
      refine List.mem_filter.mpr ⟨hx, decide_eq_true ?_⟩
      rw [ExtEntry.OutOn, ho, hdf]
      rfl
    rw [hempty] at hx'
    exact List.not_mem_nil hx'
  · rw [Function.update_of_ne (by simp)]
    exact hlru
  · by_cases hf : fd = c.fd
    · rw [hf, Function.update_self]
      refine iff_of_false not_false ?_
      rintro ⟨d, hd, hdf⟩
      obtain ⟨hd, hdc⟩ := List.mem_filter.mp hd
      exact of_decide_eq_true hdc (hfds hd hdf)
    · rw [Function.update_of_ne (by simpa using hf), hout]
      constructor
      · rintro ⟨d, hd, hdf⟩
        refine ⟨d, List.mem_filter.mpr ⟨hd, decide_eq_true ?_⟩, hdf⟩
        rintro rfl
        exact hf hdf.symm
      · rintro ⟨d, hd, hdf⟩
        exact ⟨d, hsub.subset hd, hdf⟩
  · change Function.update m.extraInt c.job 0 d.job = d.tag
    obtain ⟨hd, hdc⟩ := List.mem_filter.mp hd
    rw [Function.update_of_ne fun he => of_decide_eq_true hdc (hjobs hd he)]
    exact h.tags d hd
  · change Function.update m.extraInt c.job 0 j = 0
    by_cases hjc : j = c.job
    · rw [hjc, Function.update_self]
    · rw [Function.update_of_ne hjc]
      refine h.untagged j fun d hd hdj => hj d (List.mem_filter.mpr ⟨hd, decide_eq_true ?_⟩) hdj
      rintro rfl
      exact hjc hdj.symm

/-- **`mtfront_client_close`.** -/
theorem close (h : m.Holds L) (conns : Connections) {c : ConnectionJob}
    (hfd : c.fd < MAX_CONNECTIONS) (hjob : ∀ d ∈ L.ready, d.job = c.job → d = c)
    (hrem : ∀ x ∈ L.joinedTo c.fd, x.2.Removable 2) :
    ∃ m', m.mtfrontClientClose conns c = .ok (m', L.closeNotices conns c) ∧
      m'.Holds (L.close c) := by
  by_cases hc : c ∈ L.ready
  · have hr : ∃ d ∈ L.ready, d.fd = c.fd := ⟨c, hc, rfl⟩
    obtain ⟨d, hd, hnext⟩ := Option.map_eq_some_iff.mp (h.circle_outbound hr).next_head
    have htag : m.extraInt c.job = c.tag := h.tags c hc
    have hzero : m.extraInt c.job ≠ 0 := by
      rw [htag, ConnectionJob.tag, Nat.add_comm]
      exact Nat.succ_ne_zero _
    have hn : d.oNext = (cellRefs ((L.joinedTo c.fd).map Prod.fst)).head?.or (some (.head c.fd)) :=
      hnext
    have hsome : (cellRefs ((L.joinedTo c.fd).map Prod.fst)).head?.or (some (.head c.fd)) ≠
        none := by
      cases (cellRefs ((L.joinedTo c.fd).map Prod.fst)).head? <;> exact Option.some_ne_none _
    have hlen : (L.joinedTo c.fd).length < m.extConnections.toNat + 1 := by
      rw [h.count, Int.toNat_natCast]
      exact Nat.lt_succ_of_le (List.length_filter_le _ _)
    obtain ⟨m₁, hrun₁, h₁⟩ := h.closeLoop_eq conns hr rfl hrem hlen
    have hempty : (L.removeAll ((L.joinedTo c.fd).map Prod.fst)).joinedTo c.fd = [] := by
      refine List.eq_nil_iff_forall_not_mem.mpr fun x hx => ?_
      obtain ⟨hx, hon⟩ := List.mem_filter.mp hx
      obtain ⟨hx, hno⟩ := ExtLedger.mem_live_removeAll.mp hx
      exact hno (List.mem_map_of_mem (List.mem_filter.mpr ⟨hx, hon⟩))
    have hc₁ : c ∈ (L.removeAll ((L.joinedTo c.fd).map Prod.fst)).ready := by
      rw [ExtLedger.removeAll_ready]
      exact hc
    obtain ⟨d₁, mem₂, hd₁, hself, hrun₂, h₂⟩ := h₁.endCircle hc₁ hempty
    refine ⟨{ m₁ with mem := mem₂, extraInt := Function.update m₁.extraInt c.job 0 }, ?_, ?_⟩
    · have hd' : m.mem (.head c.fd) = some d := hd
      simp only [mtfrontClientClose, check_pos hfd, ok_seq, hzero, if_false, check_pos htag,
        load_eq hd', hn, check_pos hsome, hrun₁, load_eq hd₁, check_pos hself, hrun₂,
        ExtLedger.closeNotices, hc, if_true]
      rfl
    · rw [ExtLedger.close, if_pos hc]
      rw [ExtLedger.removeAll_ready] at h₂
      exact h₂
  · have hno : ∀ d ∈ L.ready, d.job ≠ c.job := fun d hd hdj => hc (hjob d hd hdj ▸ hd)
    refine ⟨m, ?_, ?_⟩
    · simp only [mtfrontClientClose, check_pos hfd, ok_seq, h.untagged c.job hno, if_true,
        ExtLedger.closeNotices, hc, if_false]
      rfl
    · rw [ExtLedger.close, if_neg hc]
      exact h

/-- **`lru_insert_conn`** moves the entry of a client, if it is one of this generation. -/
theorem touch (h : m.Holds L) {c : ConnectionJob} (hfd : c.fd < MAX_CONNECTIONS) :
    ∃ m', m.lruInsertConn c = .ok m' ∧ m'.Holds (L.touch c) := by
  by_cases hent : ∃ x ∈ L.live, x.2.inFd = c.fd ∧ c.fd ≠ 0
  · obtain ⟨⟨a, e⟩, hx, hef, h0⟩ := hent
    have hef' : e.inFd = c.fd := hef
    have hget := h.getByInFd_live hx (hef' ▸ h0)
    rw [hef'] at hget
    obtain ⟨d, hd, hde⟩ := h.load hx
    have hdf : d.inFd = c.fd := (congrArg ExtConnection.inFd hde).trans hef
    have hdg : d.inGen = e.inGen := congrArg ExtConnection.inGen hde
    by_cases hg : e.inGen = c.generation
    · obtain ⟨used, hl, hlru, hout⟩ := h.laidOut
      have ha : a ∈ cellAddresses (L.layout used).cells := by
        rw [ExtLedger.layout_addresses]
        exact ExtLedger.mem_addresses.mpr ⟨e, hx⟩
      obtain ⟨mem', hrun, hl'⟩ := hl.lruInsert hlru ha
      have htouch := ExtLedger.touch_live h.sound hx hef hg h0
      have hring :
          ringWith (ringWithout (L.layout used).ring .lru a) .lru a = (L.touch c).ring := by
        rw [htouch]
        funext R
        cases R <;> rfl
      rw [hring] at hl'
      refine ⟨{ m with mem := mem' }, ?_, ?_⟩
      · have hsame : d.inFd = c.fd ∧ d.inGen = c.generation := ⟨hdf, hdg.trans hg⟩
        simp only [lruInsertConn, hget, ok_seq, load_eq hd, hsame, and_self, if_true, hrun]
        rfl
      · have hsound := h.sound.touch c
        rw [htouch] at hl' hsound ⊢
        exact ⟨hsound, ⟨used, hl', hlru, hout⟩, h.ids, h.refs, h.count, h.created, h.tags,
          h.untagged⟩
    · refine ⟨m, ?_, ?_⟩
      · have hnot : ¬ (d.inFd = c.fd ∧ d.inGen = c.generation) := fun hs =>
          hg (hdg.symm.trans hs.2)
        simp only [lruInsertConn, hget, ok_seq, load_eq hd, hnot, if_false]
        rfl
      · rw [ExtLedger.touch_none fun x hx' hs => hg ?_]
        · exact h
        · obtain rfl := h.sound.of_inFd hx' hx (hs.1.trans hef.symm)
          exact hs.2.1
  · refine ⟨m, ?_, ?_⟩
    · have hring : L.ring (.inbound c.fd) = [] := by
        by_cases h0 : c.fd = 0
        · exact if_pos h0
        · exact ring_inbound_none fun x hx hxf => hent ⟨x, hx, hxf, h0⟩
      simp only [lruInsertConn, h.getByInFd_none hfd hring, ok_seq]
      rfl
    · rw [ExtLedger.touch_none fun x hx hs => hent ⟨x, hx, hs.1, hs.2.2⟩]
      exact h

end ExtTable.Holds

end Server
end Teleproto3
