/-
# An entry of the table of ext_connections is removed

`remove_ext_connection` looks the entry up by its id and by its `in_fd`, takes it off its circles
and its chain, frees its slot and its cell (`deleteFound_eq`), and says whom it has told.  When the
connection of a data centre closes, all that is on its circle goes one by one
(`ExtTable.Holds.close`).
-/

import Teleproto3.Server.ExtCreation

namespace Teleproto3
namespace Server

open Lib ExtMemory

variable {m : ExtTable} {L : ExtLedger} {S : ExtLayout} {a : ℕ} {e : ExtEntry}

/-- A layout without a cell. -/
def ExtLayout.without (S : ExtLayout) (a : ℕ) : ExtLayout where
  cells := S.cells.filter fun x => x.1 ≠ a
  used := S.used
  ring R := (S.ring R).erase a
  chain := chainWithout S.chain a

/-- Off the three circles. -/
theorem ringWithout_all (ring : ExtRing → List ℕ) (a : ℕ) :
    ringWithout (ringWithout (ringWithout ring .inbound a) .outbound a) .lru a =
      fun R => (ring R).erase a := by
  funext R
  cases R <;> simp [ringWithout, ExtRing.kind]

/-- The cell of an entry that is held. -/
theorem Stored.load_entry {mem : ExtMemory} {cells : List (ℕ × ExtConnection)} {d : ExtConnection}
    (h : Stored mem cells) (hx : (a, d) ∈ cells) :
    ∃ c, mem (.cell a) = some c ∧ c.unlinked = d := Option.map_eq_some_iff.mp (h.entries _ hx)

/-- A cell that has left its chain may be written to. -/
theorem LaidOut.clearHNext {mem : ExtMemory} {bucket : ℕ → Option ExtRef}
    (h : LaidOut mem bucket S) (hno : ∀ i, a ∉ S.chain i) :
    LaidOut (mem.alter (.cell a) fun c => { c with hNext := none }) bucket S :=
  h.setHNext ⟨fun i => h.chained.of_notMem (hno i) _, h.chained.onChain, h.chained.distinct,
    h.chained.apart⟩

/-- **The cell is taken off everything and freed.** -/
theorem deleteFound_eq {i : ℕ} {l₁ l₂ : List ℕ} {d : ExtConnection}
    (h : LaidOut m.mem m.inExtConnectionHash S) (hi : S.chain i = l₁ ++ a :: l₂)
    (hx : (a, d) ∈ S.cells)
    (href : (m.outExtConnections (slotOf d.outConnId)).ref = some (.cell a))
    (hid : (m.outExtConnections (slotOf d.outConnId)).outConnId = d.outConnId) :
    ∃ mem' bucket', m.deleteFound (linkBehind (.bucket i) l₁) (.cell a) = .ok { m with
        mem := mem'
        inExtConnectionHash := bucket'
        outExtConnections := Function.update m.outExtConnections (slotOf d.outConnId)
          { m.outExtConnections (slotOf d.outConnId) with ref := none }
        extConnections := m.extConnections - 1 } ∧
      LaidOut mem' bucket' (S.without a) := by
  have ha : a ∈ cellAddresses S.cells := List.mem_map_of_mem hx
  obtain ⟨mem₁, hrun₁, h₁⟩ := h.unlink .inbound ha
  obtain ⟨mem₂, hrun₂, h₂⟩ := h₁.unlink .outbound ha
  obtain ⟨mem₃, hrun₃, h₃⟩ := h₂.lruDelete ha
  obtain ⟨c₃, hc₃, -⟩ := h₃.stored.load_entry hx
  let m₃ : ExtTable := { m with mem := mem₃ }
  obtain ⟨mem₄, bucket₄, hrun₄, h₄, hc₄⟩ := LaidOut.chainRemove (m := m₃) h₃ hi hc₃
  have hnoChain (j : ℕ) : a ∉ chainWithout S.chain a j := (h.chained.distinct j).not_mem_erase
  have h₅ := h₄.clearHNext hnoChain
  obtain ⟨c₅, hc₅, hcd⟩ := h₅.stored.load_entry hx
  have hcid : c₅.outConnId = d.outConnId := by
    rw [← hcd]
    rfl
  have hnoRing (R : ExtRing) : a ∉ ringWithout (ringWithout (ringWithout S.ring .inbound a)
      .outbound a) .lru a R := by
    rw [ringWithout_all]
    exact (h.ringed.nodup R).not_mem_erase
  have h₆ := h₅.free hnoRing hnoChain
  rw [ringWithout_all] at h₆
  refine ⟨_, bucket₄, ?_, h₆⟩
  simp only [ExtTable.deleteFound, hrun₁, ok_seq, hrun₂, hrun₃, load_eq hc₃]
  change (m₃.storeLink c₃.hNext (linkBehind (.bucket i) l₁) >>= _) = _
  simp only [hrun₄, ok_seq, modify_eq hc₄, load_eq hc₅, hcid]
  simp only [m₃, check_pos href, check_pos hid, ok_seq]
  rfl

namespace ExtLedger

/-- What is left is what the ledger asks for. -/
theorem layout_remove (hL : L.Sound) (a : ℕ) (used : ExtRing → Prop) :
    (L.layout used).without a = (L.remove a).layout used := by
  refine ExtLayout.ext ?_ rfl (funext fun R => ?_) (funext fun i => ?_)
  · change (L.live.map fun x => (x.1, x.2.connection)).filter _ =
      (L.live.filter _).map fun x => (x.1, x.2.connection)
    rw [List.filter_map]
    rfl
  · change (L.ring R).erase a = (L.remove a).ring R
    cases R with
    | lru => rfl
    | outbound fd =>
      simp only [ring]
      exact (having_remove hL _).symm
    | inbound fd =>
      simp only [ring]
      split_ifs
      · rfl
      · exact (having_remove hL _).symm
  · change (L.having _).reverse.erase a = ((L.remove a).having _).reverse
    have hd := nodup_having hL fun e => extConnHash e.inFd e.inConnId = i
    rw [having_remove hL, hd.erase_eq_filter, (List.nodup_reverse.mpr hd).erase_eq_filter,
      List.filter_reverse]

/-- The entry of a cell. -/
theorem filter_cell (hL : L.Sound) (hx : (a, e) ∈ L.live) :
    (L.live.filter fun x => x.1 = a) = [(a, e)] := by
  refine eq_singleton_of_nodup (hL.cells.of_map.filter _)
    (List.mem_filter.mpr ⟨hx, decide_eq_true rfl⟩) fun x hx' => ?_
  obtain ⟨hx', hxa⟩ := List.mem_filter.mp hx'
  exact List.inj_on_of_nodup_map hL.cells hx' hx (of_decide_eq_true hxa)

theorem length_remove (hL : L.Sound) (hx : (a, e) ∈ L.live) :
    (L.remove a).live.length + 1 = L.live.length := by
  have hsplit := List.length_eq_length_filter_add (l := L.live) fun x => decide (x.1 = a)
  rw [filter_cell hL hx, List.length_singleton] at hsplit
  have hnot : (L.remove a).live = L.live.filter fun x => !decide (x.1 = a) :=
    List.filter_congr fun x _ => by simp
  rw [hnot]
  omega

end ExtLedger

/-- A cell on a circle is linked. -/
theorem Ringed.next_ne_none {mem : ExtMemory} {cells : List (ℕ × ExtConnection)}
    {used : ExtRing → Prop} {ring : ExtRing → List ℕ} {R : ExtRing} {c : ExtConnection}
    (h : Ringed mem cells used ring) (ha : a ∈ ring R) (hc : mem (.cell a) = some c) :
    R.kind.next c ≠ none := by
  obtain ⟨l₁, l₂, hl⟩ := List.append_of_mem ha
  have hcircle := h.circle (h.used_of_mem ha)
  rw [hl, cellRefs, List.map_append, List.map_cons] at hcircle
  obtain ⟨c', hc', hn⟩ := Option.map_eq_some_iff.mp hcircle.next_cell
  obtain rfl := Option.some.inj (hc.symm.trans hc')
  rw [hn]
  cases (List.map ExtRef.cell l₂).head? <;> exact Option.some_ne_none _

namespace ExtTable.Holds

/-- **The outbound side of an entry**: it is on the circle of its `out_fd`. -/
theorem outboundNotices_eq (h : m.Holds L) (hx : (a, e) ∈ L.live) {c : ExtConnection}
    (hc : m.mem (.cell a) = some c) (hce : c.unlinked = e.connection) (conns : Connections)
    (flags : ℕ) : outboundNotices conns c flags = .ok (if e.outFd = 0 ∨ flags % 2 = 0 then []
      else ((conns e.outFd e.outGen).map fun co => .remoteClosed co e.outConnId).toList) := by
  obtain ⟨used, hl, -, -⟩ := h.laidOut
  have hfd : c.outFd = e.outFd := congrArg ExtConnection.outFd hce
  have hgen : c.outGen = e.outGen := congrArg ExtConnection.outGen hce
  have hid : c.outConnId = e.outConnId := congrArg ExtConnection.outConnId hce
  by_cases h0 : e.outFd = 0
  · simp only [outboundNotices, hfd, h0, if_true, true_or]
    rfl
  · obtain ⟨o, ho⟩ : ∃ o, e.out = some o := by
      cases ho : e.out with
      | none => exact absurd (by rw [ExtEntry.outFd, ho]; rfl) h0
      | some o => exact ⟨o, rfl⟩
    have hofd : e.outFd = o.1 := by
      rw [ExtEntry.outFd, ho]
      rfl
    obtain ⟨d, hd, hdo, -⟩ := h.sound.joined _ hx o ho
    have hrange : e.outFd < MAX_CONNECTIONS := by
      rw [hofd, ← hdo]
      exact h.sound.readyRange d hd
    have hring : a ∈ (L.layout used).ring (.outbound e.outFd) := by
      refine (ExtLedger.mem_having (p := fun d => d.OutOn e.outFd)).mpr
        ⟨e, hx, decide_eq_true ?_⟩
      rw [ExtEntry.OutOn, ho, hofd]
      rfl
    have hn : c.oNext ≠ none := hl.ringed.next_ne_none hring hc
    by_cases hf : flags % 2 = 0
    · simp only [outboundNotices, hfd, h0, if_false, check_pos hrange, ok_seq, check_pos hn, hf,
        if_true, or_true]
      rfl
    · simp only [outboundNotices, hfd, h0, if_false, check_pos hrange, ok_seq, check_pos hn, hf,
        or_self, hgen, hid]
      rfl

/-- **The inbound side of an entry**: it is on the circle of its `in_fd`, which has one unless it
is 0. -/
theorem inboundNotices_eq (h : m.Holds L) (hx : (a, e) ∈ L.live) {c : ExtConnection}
    (hc : m.mem (.cell a) = some c) (hce : c.unlinked = e.connection) (conns : Connections)
    {flags : ℕ} (hr : e.Removable flags) :
    inboundNotices conns c flags = .ok (if e.inFd = 0 ∨ flags / 2 % 2 = 0 then []
      else ((conns e.inFd e.inGen).map .failConnection).toList) := by
  obtain ⟨used, hl, -, -⟩ := h.laidOut
  have hfd : c.inFd = e.inFd := congrArg ExtConnection.inFd hce
  have hgen : c.inGen = e.inGen := congrArg ExtConnection.inGen hce
  have hid : c.inConnId = e.inConnId := congrArg ExtConnection.inConnId hce
  by_cases h0 : e.inFd = 0
  · simp only [inboundNotices, hfd, h0, if_true, true_or]
    rfl
  · have hrange := h.sound.inRange _ hx
    have hring : a ∈ (L.layout used).ring (.inbound e.inFd) := by
      rw [show (L.layout used).ring (.inbound e.inFd) = [a] from ring_inbound h hx h0]
      exact List.mem_cons_self
    have hn : c.iNext ≠ none := hl.ringed.next_ne_none hring hc
    by_cases hf : flags / 2 % 2 = 0
    · simp only [inboundNotices, hfd, h0, if_false, check_pos hrange, ok_seq, check_pos hn, hf,
        if_true, or_true]
      rfl
    · have hzero : e.inConnId = 0 := (hr.resolve_left h0).resolve_left hf
      simp only [inboundNotices, hfd, h0, if_false, check_pos hrange, ok_seq, check_pos hn, hf,
        or_self, hid, check_pos hzero, hgen]
      rfl

/-- The walk down the chain of an entry ends at it. -/
theorem chainLoop_live (h : m.Holds L) (hx : (a, e) ∈ L.live) {c : ExtConnection}
    (hc : m.mem (.cell a) = some c) (hce : c.unlinked = e.connection) :
    ∃ l₁ l₂, L.chain (extConnHash e.inFd e.inConnId) = l₁ ++ a :: l₂ ∧
      m.chainLoop e.inFd e.inConnId (m.extConnections.toNat + 1)
          (.bucket (extConnHash e.inFd e.inConnId)) =
        .ok (some (linkBehind (.bucket (extConnHash e.inFd e.inConnId)) l₁, .cell a)) := by
  obtain ⟨used, hl, -, -⟩ := h.laidOut
  have hmem : a ∈ L.chain (extConnHash e.inFd e.inConnId) :=
    List.mem_reverse.mpr (ExtLedger.mem_having.mpr ⟨e, hx, decide_eq_true rfl⟩)
  obtain ⟨l₁, l₂, hi⟩ := List.append_of_mem hmem
  have hseg := hl.chained.chains (extConnHash e.inFd e.inConnId)
  have hd := hl.chained.distinct (extConnHash e.inFd e.inConnId)
  have hlen := h.chain_length (extConnHash e.inFd e.inConnId)
  change Segment m.mem ExtConnection.hNext _ (cellRefs (L.chain _)) none at hseg
  change (L.chain _).Nodup at hd
  rw [hi] at hseg hd hlen
  refine ⟨l₁, l₂, hi, chainLoop_found rfl hseg (fun b hb d hd' hsame => ?_) hc
    ⟨congrArg ExtConnection.inFd hce, congrArg ExtConnection.inConnId hce⟩ ?_⟩
  · -- A cell before it belongs to another client.
    have hbm : b ∈ L.chain (extConnHash e.inFd e.inConnId) := by
      rw [hi]
      exact List.mem_append_left _ hb
    obtain ⟨e', hx', -⟩ := ExtLedger.mem_having.mp (List.mem_reverse.mp hbm)
    obtain ⟨d', hd'', hde⟩ := h.load hx'
    obtain rfl := Option.some.inj (hd'.symm.trans hd'')
    have hba : b = a := congrArg Prod.fst
      (h.sound.of_inFd hx' hx ((congrArg ExtConnection.inFd hde).symm.trans hsame.1))
    exact (List.nodup_append.mp hd).2.2 b hb a List.mem_cons_self hba
  · rw [List.length_append] at hlen
    omega

/-- **`remove_ext_connection` strikes an entry out**: no assertion fails, the table holds the
ledger without it, and the connections that are told are those of the entry. -/
theorem remove (h : m.Holds L) (hx : (a, e) ∈ L.live) (conns : Connections) {flags : ℕ}
    (hr : e.Removable flags) :
    ∃ m', m.removeExtConnection conns (some (.cell a)) flags =
        .ok (m', e.notices conns flags) ∧ m'.Holds (L.remove a) := by
  obtain ⟨used, hl, hlru, hout⟩ := h.laidOut
  obtain ⟨c, hc, hce⟩ := h.load hx
  have hfd : c.inFd = e.inFd := congrArg ExtConnection.inFd hce
  have hgen : c.inGen = e.inGen := congrArg ExtConnection.inGen hce
  have hconn : c.inConnId = e.inConnId := congrArg ExtConnection.inConnId hce
  have hid : c.outConnId = e.outConnId := congrArg ExtConnection.outConnId hce
  have hne : c.outConnId ≠ 0 := by
    rw [hid]
    exact (h.sound.current _ hx).2
  obtain ⟨l₁, l₂, hi, hloop⟩ := h.chainLoop_live hx hc hce
  have href := (h.refs (slotOf e.outConnId) (.cell a)).mpr ⟨(a, e), hx, rfl, rfl⟩
  have hsid : (m.outExtConnections (slotOf e.outConnId)).outConnId = e.outConnId :=
    (h.ids _).trans (h.sound.current _ hx).1
  obtain ⟨mem', bucket', hdelete, hl'⟩ := deleteFound_eq hl hi (ExtLedger.mem_layout hx) href hsid
  rw [ExtLedger.layout_remove h.sound] at hl'
  refine ⟨{ m with
      mem := mem'
      inExtConnectionHash := bucket'
      outExtConnections := Function.update m.outExtConnections (slotOf e.outConnId)
        { m.outExtConnections (slotOf e.outConnId) with ref := none }
      extConnections := m.extConnections - 1 }, ?_, h.sound.remove a, ⟨used, hl', hlru, hout⟩,
    fun s => ?_, fun s r => ?_, ?_, ?_, h.tags, h.untagged⟩
  · have hfound : m.getExtConnectionByInConnId e.inFd e.inGen e.inConnId 1 none [] =
        .ok ({ m with
          mem := mem'
          inExtConnectionHash := bucket'
          outExtConnections := Function.update m.outExtConnections (slotOf e.outConnId)
            { m.outExtConnections (slotOf e.outConnId) with ref := none }
          extConnections := m.extConnections - 1 }, .deleted) := by
      simp only [getExtConnectionByInConnId, hloop, ok_seq, load_eq hc, check_pos hne]
      exact congrArg (· >>= fun m => Except.ok (m, ExtFound.deleted)) hdelete
    have hfind := h.find_live hx
    have hfinds : m.findExtConnectionByOutConnId c.outConnId = .ok (some (.cell a)) := by
      rw [hid]
      exact hfind
    simp only [removeExtConnection, load_eq hc, ok_seq, check_pos hne, hfinds,
      check_pos trivial, h.outboundNotices_eq hx hc hce, h.inboundNotices_eq hx hc hce conns hr,
      hfd, hgen, hconn, hfound]
    rfl
  · change (Function.update m.outExtConnections _ _ s).outConnId = L.issued s
    by_cases hs : s = slotOf e.outConnId
    · rw [hs, Function.update_self]
      exact h.ids _
    · rw [Function.update_of_ne hs]
      exact h.ids s
  · change (Function.update m.outExtConnections _ _ s).ref = some r ↔ _
    by_cases hs : s = slotOf e.outConnId
    · rw [hs, Function.update_self]
      refine iff_of_false (by simp) ?_
      rintro ⟨x, hx', -, hxs⟩
      obtain ⟨hx', hxa⟩ := ExtLedger.mem_live_remove.mp hx'
      exact hxa (congrArg Prod.fst (h.sound.of_slot hx' hx hxs))
    · rw [Function.update_of_ne hs, h.refs]
      constructor
      · rintro ⟨x, hx', hr, hxs⟩
        refine ⟨x, ExtLedger.mem_live_remove.mpr ⟨hx', ?_⟩, hr, hxs⟩
        rintro rfl
        exact hs (hxs ▸ congrArg (fun e => slotOf e.outConnId) (h.sound.entry_unique hx' hx))
      · rintro ⟨x, hx', hr, hxs⟩
        exact ⟨x, (ExtLedger.mem_live_remove.mp hx').1, hr, hxs⟩
  · change m.extConnections - 1 = ((L.remove a).live.length : ℤ)
    have hlen := ExtLedger.length_remove h.sound hx
    rw [h.count]
    omega
  · change m.extConnectionsCreated = ((L.remove a).live.length : ℤ) + (L.remove a).removed.length
    have hlen := ExtLedger.length_remove h.sound hx
    have hremoved : (L.remove a).removed.length = L.removed.length + 1 := by
      change (L.removed ++ (L.live.filter fun x => x.1 = a).map Prod.snd).length = _
      rw [ExtLedger.filter_cell h.sound hx, List.length_append]
      rfl
    rw [h.created, hremoved]
    omega

end ExtTable.Holds

end Server
end Teleproto3
