/-
# What the counters of the slots count

In direct mode a client's connection is taken from the count of its slot by `tcp_direct_close`,
which looks at `direct_dc_connections_active` first: a client is only taken off while that
counter is positive.  The counter is raised by every connection to a data centre that is opened,
and lowered by every client that closes.  So it must never fall behind the clients:
`ConservedInv`.

A client whose data centre cannot be reached at its first attempt is a client of a data centre
without a connection that was counted, and nothing makes up for it, as its `extra` still points
to the methods of the listening socket and no alarm tries again.  `directRun_conserves` is about
the runs in which the first attempt succeeds; later ones may fail, and a connection that was
opened may be lost, as often as they like.
-/

import Teleproto3.Server.SlotStability

namespace Teleproto3
namespace Server

open Lib

variable {X : Type*}

/-! ### What is conserved -/

/-- A client of a data centre. -/
def Conn.directClient {W : Type*} (c : Conn W) : Option Unit := if c.IsDirect then some () else none

theorem Conn.directClient_of_not {W : Type*} {c : Conn W} (h : ¬ c.IsDirect) :
    c.directClient = none := if_neg h

theorem Conn.directClient_of {W : Type*} {c : Conn W} (h : c.IsDirect) :
    c.directClient = some () := if_pos h

theorem Conn.directClient_congr {W W' : Type*} {c : Conn W} {d : Conn W'} (h : d.type = c.type) :
    d.directClient = c.directClient := by
  have hiff : d.IsDirect ↔ c.IsDirect := by
    unfold Conn.IsDirect
    rw [h]
  simp only [Conn.directClient, hiff]

/-- **Every slot counts the connections under it.** -/
def Conserved (s : SlotServer X) : Prop :=
  ∀ r, (s.world.table.slot r).connections = tally Conn.secretSlot s.clients r

/-- The connections under a slot that an event ends. -/
def endedUnder (s : SlotServer X) (r : ℕ) : SlotEvent X → ℕ
  | .close i =>
    match s.clients[i]? with
    | some c => if s.fault.isSome then 0 else weight Conn.secretSlot c r
    | none => 0
  | _ => 0

theorem endedUnder_of_ne (s : SlotServer X) (r : ℕ) {e : SlotEvent X} (h : ∀ i, e ≠ .close i) :
    endedUnder s r e = 0 := by
  cases e with
  | close i => exact absurd rfl (h i)
  | _ => rfl

theorem endedUnder_close {s : SlotServer X} (r : ℕ) {i : ℕ} {c : Conn (SlotWorld X)}
    (hfault : s.fault.isSome = false) (hi : s.clients[i]? = some c) :
    endedUnder s r (.close i) = weight Conn.secretSlot c r := by
  simp only [endedUnder, hi, hfault, Bool.false_eq_true, if_false]

/-- Nothing ends where nothing happens. -/
theorem endedUnder_idle {s : SlotServer X} (r : ℕ) {e : SlotEvent X}
    (h : s.fault.isSome = true ∨ ∃ i, e = .close i ∧ s.clients[i]? = none) :
    endedUnder s r e = 0 := by
  rcases h with hfault | ⟨i, rfl, hi⟩
  · cases e with
    | close i =>
      simp only [endedUnder, hfault, if_true]
      split <;> rfl
    | _ => rfl
  · simp only [endedUnder, hi]

/-- **A connection is under a slot from when it is counted until it ends**: in one event, the
connections under a slot grow by those that are counted and shrink by those that end. -/
def LedgerStep (s : SlotServer X) (e : SlotEvent X) (s' : SlotServer X) : Prop :=
  ∀ r, tally Conn.secretSlot s'.clients r + endedUnder s r e + tally countSlot s.world.counted r =
    tally Conn.secretSlot s.clients r + tally countSlot s'.world.counted r

/-- **The invariant**: `direct_dc_connections_active` is not behind the clients of data
centres. -/
structure ConservedInv (s : SlotServer X) : Prop where
  started : s.started = true
  sessions : ∀ c ∈ s.clients, SessionOk c
  counts : Conserved s
  active : (tally Conn.directClient s.clients () : ℤ) ≤ s.world.active

/-! ### The end of a connection -/

/-- **The end of a connection**, where the counter is positive for a client of a data centre: its
slot counts one less, and so does the counter. -/
theorem clientClose_conserves {c : Conn (SlotWorld X)} (hok : SessionOk c)
    (hactive : c.IsDirect → 0 < c.world.active) :
    (∀ r, ((clientClose c).table.slot r).connections =
      (c.world.table.slot r).connections - weight Conn.secretSlot c r) ∧
      (clientClose c).active = c.world.active - weight Conn.directClient c () := by
  have hrpc (d : Conn (SlotWorld X)) (r : ℕ) : ((mtprotoExtRpcClose d).table.slot r).connections =
      (d.world.table.slot r).connections - weight Conn.secretSlot d r := by
    obtain ⟨ips, n, heq⟩ := mtprotoExtRpcClose_slot d r
    rw [heq]
  have hkeep (d : Conn (SlotWorld X)) : (mtprotoExtRpcClose d).active = d.world.active := by
    unfold mtprotoExtRpcClose
    split <;> rfl
  have hdirect (h : c.IsDirect) : (∀ r, ((tcpDirectClose c).table.slot r).connections =
      (c.world.table.slot r).connections - weight Conn.secretSlot c r) ∧
        (tcpDirectClose c).active = c.world.active - weight Conn.directClient c () := by
    unfold tcpDirectClose
    rw [if_pos (hactive h), weight_self _ (Conn.directClient_of h)]
    exact ⟨hrpc _, hkeep _⟩
  have hplain (h : ¬ c.IsDirect) : c.world.active =
      c.world.active - weight Conn.directClient c () := by
    rw [weight_of_none _ (Conn.directClient_of_not h), Nat.cast_zero, sub_zero]
  unfold clientClose
  cases htype : c.type with
  | rpcExtServer => exact ⟨hrpc c, (hkeep c).trans (hplain (by simp [Conn.IsDirect, htype]))⟩
  | rpcExtServerDrs => exact ⟨hrpc c, (hkeep c).trans (hplain (by simp [Conn.IsDirect, htype]))⟩
  | directClient => exact hdirect (Or.inl htype)
  | directClientDrs => exact hdirect (Or.inr htype)
  | proxyPass =>
    have hnone : c.secretSlot = none := by
      unfold Conn.secretSlot
      rw [hok.proxied htype]
      exact if_neg fun h => lt_irrefl 0 h.1
    refine ⟨fun r => ?_, hplain (by simp [Conn.IsDirect, htype])⟩
    rw [weight_of_none _ hnone, Nat.cast_zero, sub_zero]

section Conserved

variable (workers : ℕ) (base : ExtServerEnv X) (proxyProtocolEnabled : Bool)

/-! ### One event -/

/-- The first attempt to reach a data centre for a client that is let in succeeds. -/
def FirstTrySucceeds (c : Conn (SlotWorld X)) : Prop :=
  ∀ pr, openBlock base c = some pr →
    (matchedSlot base c pr < EXT_SECRET_MAX_SLOTS → c.cIsTls = false →
      (c.world.table.slot (matchedSlot base c pr)).Admissible workers c.world.now c.remote) →
    base.directMode = true → base.directDcKnown c.world.rest pr.dc = true →
      (base.directTryDcAddrs c.world.rest pr.dc).1.isSome

variable {workers base}

theorem Quiet.directClient_le {c d : Conn (SlotWorld X)} (h : Quiet c d) :
    weight Conn.directClient d () ≤ weight Conn.directClient c () := by
  rcases h.type with heq | hproxy
  · rw [weight_congr _ (Conn.directClient_congr heq)]
  · have hnot : ¬ d.IsDirect := by simp [Conn.IsDirect, hproxy]
    rw [weight_of_none _ (Conn.directClient_of_not hnot)]
    exact Nat.zero_le _

/-- **A call of `parse_execute`** lets the counter keep up with the clients. -/
theorem ParseEffect.active {c d : Conn (SlotWorld X)}
    (h : ParseEffect workers base (FirstTrySucceeds workers base) c d) :
    c.world.active + weight Conn.directClient d () ≤
      d.world.active + weight Conn.directClient c () := by
  cases h with
  | quiet h =>
    have hle := h.directClient_le
    have hactive := h.world.active
    omega
  | @counted c1 d1 pr hfresh hfront hcond hblock hback =>
    have h1 := hfront.world.active
    have h2 := hback.world.active
    have h3 := hback.directClient_le
    have h4 : c1.world.active + weight Conn.directClient d1 () ≤ d1.world.active := by
      by_cases hdirect : d1.IsDirect
      · obtain ⟨hmode, hknown⟩ := hblock.tried hdirect
        have hopened := hblock.direct hdirect
          (hcond pr hblock.opened hblock.checked hmode hknown)
        rw [weight_self _ (Conn.directClient_of hdirect)]
        exact hopened
      · rw [weight_of_none _ (Conn.directClient_of_not hdirect), Nat.cast_zero, add_zero]
        have hactive := hblock.world.active
        rw [countedWorld_active] at hactive
        exact hactive
    omega

variable (workers base)

variable {workers base}

/-- A connection is replaced by one behind a call of `parse_execute`. -/
theorem ConservedInv.put {s : SlotServer X} {e : SlotEvent X} (h : ConservedInv s)
    (he : e.IsClient) {i : ℕ} {c d : Conn (SlotWorld X)} (hi : s.clients[i]? = some c)
    (heffect : ParseEffect workers base (FirstTrySucceeds workers base) (c.inWorld s.world) d) :
    LedgerStep s e (s.put i d) ∧ ConservedInv (s.put i d) := by
  have hok : SessionOk (c.inWorld s.world) :=
    (h.sessions c (List.mem_of_getElem? hi)).inWorld s.world
  have hmove := heffect.slotMove hok
  constructor
  · intro r
    have hset := tally_set Conn.secretSlot hi d r
    have hcounted : tally countSlot d.world.counted r + weight Conn.secretSlot c r =
      tally countSlot s.world.counted r + weight Conn.secretSlot d r := hmove.counted r
    have hended : endedUnder s r e = 0 := endedUnder_of_ne s r (by rintro j rfl; exact he)
    show tally Conn.secretSlot (s.clients.set i d) r + endedUnder s r e + _ =
      _ + tally countSlot d.world.counted r
    omega
  · refine ⟨h.started, fun a ha => ?_, fun r => ?_, ?_⟩
    · rcases List.mem_or_eq_of_mem_set ha with ha | rfl
      · exact h.sessions a ha
      · exact hmove.ok
    · have hset := tally_set Conn.secretSlot hi d r
      have hcounts := h.counts r
      have hconnections : (d.world.table.slot r).connections + weight Conn.secretSlot c r =
        (s.world.table.slot r).connections + weight Conn.secretSlot d r := hmove.connections r
      show (d.world.table.slot r).connections = tally Conn.secretSlot (s.clients.set i d) r
      omega
    · have hset := tally_set Conn.directClient hi d ()
      have hactive := h.active
      have hmoved : s.world.active + weight Conn.directClient d () ≤
        d.world.active + weight Conn.directClient c () := heffect.active
      show (tally Conn.directClient (s.clients.set i d) () : ℤ) ≤ d.world.active
      omega

/-- **A connection ends.** -/
theorem ConservedInv.closed {s : SlotServer X} (h : ConservedInv s)
    (hfault : s.fault.isSome = false) {i : ℕ} {c : Conn (SlotWorld X)}
    (hi : s.clients[i]? = some c) :
    LedgerStep s (.close i) (s.closed i c) ∧ ConservedInv (s.closed i c) := by
  have hmem : c ∈ s.clients := List.mem_of_getElem? hi
  have hpositive : (c.inWorld s.world).IsDirect → 0 < s.world.active := by
    intro hdirect
    have hpos := tally_pos Conn.directClient hmem (Conn.directClient_of hdirect)
    have hactive := h.active
    omega
  obtain ⟨hconnections, hclosed⟩ :=
    clientClose_conserves ((h.sessions c hmem).inWorld s.world) hpositive
  constructor
  · intro r
    have herase := tally_eraseIdx Conn.secretSlot hi r
    have hcounted : (s.closed i c).world.counted = s.world.counted :=
      (clientClose_rest (c.inWorld s.world)).1
    rw [endedUnder_close r hfault hi, hcounted]
    show tally Conn.secretSlot (s.clients.eraseIdx i) r + _ + _ = _
    omega
  · refine ⟨h.started, fun a ha => h.sessions a (List.mem_of_mem_eraseIdx ha), fun r => ?_, ?_⟩
    · have herase := tally_eraseIdx Conn.secretSlot hi r
      have hcounts := h.counts r
      have hslot : ((s.closed i c).world.table.slot r).connections =
        (s.world.table.slot r).connections - weight Conn.secretSlot c r := hconnections r
      show ((s.closed i c).world.table.slot r).connections =
        tally Conn.secretSlot (s.clients.eraseIdx i) r
      omega
    · have herase := tally_eraseIdx Conn.directClient hi ()
      have hactive := h.active
      have hworld : (s.closed i c).world.active =
        s.world.active - weight Conn.directClient c () := hclosed
      show (tally Conn.directClient (s.clients.eraseIdx i) () : ℤ) ≤ (s.closed i c).world.active
      omega

variable (workers base)

/-- **An event about no client that is there.** -/
theorem ConservedInv.other {s s' : SlotServer X} {e : SlotEvent X} (h : ConservedInv s)
    (hconfig : e.KeepsConfig) (he : e.IsOther) (hstarted : s'.started = true)
    (hother : OtherStep workers base proxyProtocolEnabled s s' e) :
    LedgerStep s e s' ∧ ConservedInv s' := by
  have hended (r : ℕ) : endedUnder s r e = 0 := endedUnder_of_ne s r (by rintro i rfl; exact he)
  -- It is enough that slots, clients and counter agree as before.
  have hkept (hcounted : s'.world.counted = s.world.counted)
      (hactive : s.world.active ≤ s'.world.active)
      (hsessions : ∀ c ∈ s'.clients, SessionOk c)
      (hslot : ∀ r, tally Conn.secretSlot s'.clients r = tally Conn.secretSlot s.clients r)
      (hdirect : tally Conn.directClient s'.clients () = tally Conn.directClient s.clients ())
      (hcounts : Conserved s') : LedgerStep s e s' ∧ ConservedInv s' := by
    refine ⟨fun r => ?_, hstarted, hsessions, hcounts, ?_⟩
    · rw [hended, hcounted, hslot]
      rfl
    · rw [hdirect]
      exact h.active.trans hactive
  cases hother with
  | calm hworld hclients =>
    refine hkept hworld.counted hworld.active ?_ ?_ ?_ fun r => ?_
    · rw [hclients]
      exact h.sessions
    · rw [hclients]
      exact fun _ => rfl
    · rw [hclients]
    · rw [hworld.connections, hclients]
      exact h.counts r
  | @accepted remote ourPort hworld hclients =>
    have hnone : (tcpRpcsExtInitAccepted (slotServer workers base) proxyProtocolEnabled
        (Conn.allocated remote ourPort s.world)).secretSlot = none := rfl
    have hplain : (tcpRpcsExtInitAccepted (slotServer workers base) proxyProtocolEnabled
        (Conn.allocated remote ourPort s.world)).directClient = none := rfl
    have hslot (r : ℕ) : tally Conn.secretSlot s'.clients r = tally Conn.secretSlot s.clients r := by
      rw [hclients, tally_concat, weight_of_none _ hnone, Nat.add_zero]
    refine hkept (by rw [hworld]) (by rw [hworld]) ?_ hslot ?_ fun r => ?_
    · intro c hc
      rw [hclients] at hc
      rcases List.mem_append.mp hc with hc | hc
      · exact h.sessions c hc
      · rw [List.mem_singleton.mp hc]
        exact accepted_sessionOk _ _ _ _
    · rw [hclients, tally_concat, weight_of_none _ hplain, Nat.add_zero]
    · rw [hslot, hworld]
      exact h.counts r
  | reloaded hreload _ _ _ _ =>
    rw [hreload] at hconfig
    exact hconfig.elim
  | @swept forced htable hactive hcounted hclients =>
    have hslot (r : ℕ) : tally Conn.secretSlot s'.clients r = tally Conn.secretSlot s.clients r := by
      rw [hclients, tally_map _ (tcpRpcsDrainForceClose_secretSlot forced)]
    refine hkept hcounted hactive.ge ?_ hslot ?_ fun r => ?_
    · intro d hd
      rw [hclients] at hd
      obtain ⟨c, hc, rfl⟩ := List.mem_map.mp hd
      exact (h.sessions c hc).forceClose forced
    · rw [hclients, tally_map _ fun c =>
        Conn.directClient_congr (tcpRpcsDrainForceClose_keeps forced c).2.1]
    · rw [hslot]
      rcases htable.slot r with hsame | ⟨-, -, hzero, hreleased⟩
      · rw [hsame]
        exact h.counts r
      · -- What is released counted nobody.
        rw [hreleased, ← h.counts r, hzero]
        rfl

/-- **One event** keeps the invariant. -/
theorem slotStep_conserves {s : SlotServer X} {e : SlotEvent X} (h : ConservedInv s)
    (hconfig : e.KeepsConfig)
    (hcond : BlockCond workers base (FirstTrySucceeds workers base) s e) :
    LedgerStep s e (slotStep workers base proxyProtocolEnabled s e) ∧
      ConservedInv (slotStep workers base proxyProtocolEnabled s e) := by
  refine slotStep_kinds workers base proxyProtocolEnabled
    (P := fun s' => LedgerStep s e s' ∧ ConservedInv s') hcond ?_ ?_ ?_ ?_ ?_
  · intro hidle
    refine ⟨fun r => ?_, h⟩
    rw [endedUnder_idle r hidle]
    rfl
  · rintro he - s' (⟨hstarted, hworld, hclients⟩ | ⟨hi, heffect, rfl⟩)
    · refine ⟨fun r => ?_, hstarted.trans h.started, ?_, fun r => ?_, ?_⟩
      · rw [endedUnder_of_ne s r (by rintro i rfl; exact he), hworld, hclients]
        rfl
      · rw [hclients]
        exact h.sessions
      · rw [hworld, hclients]
        exact h.counts r
      · rw [hworld, hclients]
        exact h.active
    · exact h.put he hi heffect
  · rintro hfault - i c rfl hi
    exact h.closed hfault hi
  · exact fun he _ s' hstarted hother =>
      h.other workers base proxyProtocolEnabled hconfig he hstarted hother
  · intro hnot
    rw [h.started] at hnot
    exact absurd hnot (by decide)

/-! ### Runs -/

/-- **Every slot counts the connections that were counted for it and have not ended**, in every run
of a server, from when it serves, in which the first attempt to reach a data centre succeeds for
every client that is let in. -/
theorem directRun_conserves (s : SlotServer X) (es : List (SlotEvent X))
    (hstarted : s.started = true) (hclients : s.clients = [])
    (hcounts : ∀ r, (s.world.table.slot r).connections = 0) (hactive : 0 ≤ s.world.active)
    (hconfig : ∀ e ∈ es, e.KeepsConfig)
    (hcond : Along (slotStep workers base proxyProtocolEnabled)
      (BlockCond workers base (FirstTrySucceeds workers base)) s es) :
    Throughout (slotStep workers base proxyProtocolEnabled) Conserved s es ∧
      Along (slotStep workers base proxyProtocolEnabled)
        (fun s e => LedgerStep s e (slotStep workers base proxyProtocolEnabled s e)) s es := by
  have hstart : ConservedInv s := by
    refine ⟨hstarted, ?_, fun r => ?_, ?_⟩
    · rw [hclients]
      exact fun c hc => absurd hc List.not_mem_nil
    · rw [hcounts, hclients, tally_nil]
      rfl
    · rw [hclients, tally_nil]
      exact hactive
  clear hstarted hclients hcounts hactive
  induction es generalizing s with
  | nil => exact ⟨hstart.counts, trivial⟩
  | cons e es ih =>
    obtain ⟨hhere, hrest⟩ := hcond
    obtain ⟨hledger, hnext⟩ := slotStep_conserves workers base proxyProtocolEnabled hstart
      (hconfig e List.mem_cons_self) hhere
    obtain ⟨hthrough, halong⟩ := ih _ (fun e' he' => hconfig e' (List.mem_cons_of_mem e he')) hrest
      hnext
    exact ⟨⟨hstart.counts, hthrough⟩, hledger, halong⟩

end Conserved

/-! ### A plain client -/

theorem sampleSlots_connections (r : ℕ) : (sampleSlots.table.slot r).connections = 0 := by
  have hslot : sampleSlots.table.slot r =
      Function.update (fun _ => SecretSlot.zero) 0 (sampleSlots.table.slot 0) r := rfl
  rw [hslot]
  by_cases hr : r = 0
  · rw [hr]
    rfl
  · rw [Function.update_of_ne hr]
    rfl

/-- A client whose data centre is reached at once, and that closes. -/
theorem directRun_conserves_plain :
    Throughout (slotStep 1 (directServer (some ⟨0x95, [], 443, []⟩)) false) Conserved
        (sampleServing sampleSlots []) [.accept ⟨0x7f000001, [], 50000, false⟩ 443,
          .read 0 (plainClient (some ⟨0x95, [], 443, []⟩) sampleSlots), .parse 0, .close 0] ∧
      Along (slotStep 1 (directServer (some ⟨0x95, [], 443, []⟩)) false)
        (fun s e => LedgerStep s e
          (slotStep 1 (directServer (some ⟨0x95, [], 443, []⟩)) false s e))
        (sampleServing sampleSlots []) [.accept ⟨0x7f000001, [], 50000, false⟩ 443,
          .read 0 (plainClient (some ⟨0x95, [], 443, []⟩) sampleSlots), .parse 0, .close 0] := by
  refine directRun_conserves 1 (directServer (some ⟨0x95, [], 443, []⟩)) false _ _ rfl rfl
    sampleSlots_connections (le_refl _) ?_ ⟨trivial, trivial, ?_, trivial, trivial⟩
  · intro e he
    simp only [List.mem_cons, List.not_mem_nil, or_false] at he
    rcases he with rfl | rfl | rfl | rfl <;> trivial
  · intro c hc
    rw [← Option.some.inj hc]
    refine lineBlock_eachBlock (some ⟨0x95, [], 443, []⟩) (w := sampleSlots) lineOpened_secret rfl
      (by decide) ?_
    exact fun pr _ _ _ _ => rfl

/-- **A slot can go on counting a connection that has ended**: the first attempt to reach its data
centre failed, and it was the only client. -/
theorem directRun_not_conserved :
    ¬ ∀ (s : SlotServer Unit) (es : List (SlotEvent Unit)), s.started = true → s.clients = [] →
      (∀ r, (s.world.table.slot r).connections = 0) → 0 ≤ s.world.active →
        (∀ e ∈ es, e.KeepsConfig) →
          Throughout (slotStep 1 (directServer none) false) Conserved s es := by
  intro hall
  have hrun := (hall (sampleServing sampleSlots [])
    ([.accept ⟨0x7f000001, [], 50000, false⟩ 443, .read 0 (plainClient none sampleSlots)] ++
      [.parse 0, .close 0]) rfl rfl sampleSlots_connections (le_refl _) fun e he => by
      simp only [List.mem_append, List.mem_cons, List.not_mem_nil, or_false] at he
      rcases he with (rfl | rfl) | rfl | rfl <;> trivial).finish
  have hparse := lineBlock_parse none (w := sampleSlots) lineOpened_secret rfl (by decide)
  have hstep : slotStep 1 (directServer none) false
      (sampleServing sampleSlots [plainClient none sampleSlots]) (.parse 0) =
    (sampleServing sampleSlots [plainClient none sampleSlots]).put 0
      (plainTried none sampleSlots (lineOpened (some (List.replicate 16 0)))) :=
    slotStep_parse 1 (directServer none) false (i := 0) (c := plainClient none sampleSlots) rfl rfl
      rfl hparse
  rw [finish_append, show finish (slotStep 1 (directServer none) false)
    (sampleServing sampleSlots []) [.accept ⟨0x7f000001, [], 50000, false⟩ 443,
      .read 0 (plainClient none sampleSlots)] =
        sampleServing sampleSlots [plainClient none sampleSlots] from rfl, finish_cons, hstep]
    at hrun
  exact absurd (hrun 0) (by decide)

end Server
end Teleproto3
