/-
# The quota of a secret in direct mode

Every connection of a secret, and every connection to a data centre behind one, counts what it
is about to relay and then asks `secret_over_quota`.  What is counted is never less than what
was relayed, and where something was relayed the question was just answered with no; so what
all connections of a secret have relayed stays below its quota (`quotaRun_below`).

A step is one call of `parse_execute`, on any connection in any state.
-/

import Teleproto3.Lib.Runs
import Teleproto3.Server.SlotServer
import Teleproto3.Server.Surroundings

namespace Teleproto3
namespace Server

open Lib

/-! ### The counters of one server -/

variable {X : Type*}

/-- The surroundings of a connection to a data centre whose secrets are in the table. -/
def dcServer (workers : ℕ) (base : ExtServerEnv X) (direct : DirectEnv X) :
    DirectEnv (SlotWorld X) :=
  { direct.lift SlotWorld.rest (fun w x => { w with rest := x })
      (slotServer workers base).toOutboundEnv with
    accountSent := fun w s _ n =>
      let x := { w.table.slot s with bytesSent := (w.table.slot s).bytesSent + n }
      (decide (x.OverQuota workers), w.setSlot s x) }

/-- The number of bytes queued on the connection behind `extra`. -/
def Conn.queuedBytes {W : Type*} (c : Conn W) : ℕ :=
  match c.extra with
  | .job e => e.outQueue.flatten.length
  | _ => 0

/-- The bytes counted under a slot, in both directions. -/
def SecretSlot.used (x : SecretSlot) : ℤ := x.bytesReceived + x.bytesSent

/-- A call of `parse_execute`, or anything else that happens to the table. -/
inductive DirectEvent (X : Type*)
  | client (c : Conn (SlotWorld X))
  | dc (d : Conn Unit) (c : Conn (SlotWorld X))
  | other (w : SlotWorld X)

/-- The world, and the number of bytes relayed so far by connections that are counted under one
slot. -/
structure Relayed (X : Type*) where
  world : SlotWorld X
  bytes : ℕ

section Step

variable (workers : ℕ) (base : ExtServerEnv X) (direct : DirectEnv X) (s : ℕ)

/-- What a call has relayed under the slot. -/
def relayedUnder {U V : Type*} (client : Conn (SlotWorld X)) (c : Conn U) (c' : Conn V) : ℕ :=
  if client.secretSlot = some s then c'.queuedBytes - c.queuedBytes else 0

/-- One event. -/
def relayStep (r : Relayed X) : DirectEvent X → Relayed X
  | .client c =>
    let c := c.inWorld r.world
    match tcpDirectClientParseExecute (dcServer workers base direct).toOutboundEnv c with
    | .ok (c', _) => ⟨c'.world, r.bytes + relayedUnder s c c c'⟩
    | .error _ => r
  | .dc d c =>
    let d := d.over (c.inWorld r.world)
    match tcpDirectDcParseExecute (dcServer workers base direct) d with
    | .ok (d', _) => ⟨d'.world.world, r.bytes + relayedUnder s d.world d d'⟩
    | .error _ => r
  | .other w => { r with world := w }

end Step

/-- Nothing but a call of `parse_execute` changes the quota of the slot, or takes from its
counters. -/
def KeepsQuota (s : ℕ) (r : Relayed X) : DirectEvent X → Prop
  | .other w =>
    (w.table.slot s).quota = (r.world.table.slot s).quota ∧
      (r.world.table.slot s).used ≤ (w.table.slot s).used
  | _ => True

/-! ### One call -/

/-- What a call that relays `n` bytes under a slot does to its counters. -/
structure Metered (workers s n : ℕ) (w w' : SlotWorld X) : Prop where
  quota : (w'.table.slot s).quota = (w.table.slot s).quota
  counted : (w.table.slot s).used + n ≤ (w'.table.slot s).used
  under : 0 < n → ¬ (w'.table.slot s).OverQuota workers

/-- A call that changes nothing in the table and relays nothing under the slot. -/
theorem Metered.of_table {workers s : ℕ} {w w' : SlotWorld X} (h : w'.table = w.table) :
    Metered workers s 0 w w' where
  quota := by rw [h]
  counted := by rw [h]; omega
  under := fun h0 => absurd h0 (Nat.lt_irrefl 0)

/-- Bytes are counted under one slot, and relayed where that leaves it under its quota. -/
theorem Metered.of_setSlot {workers s t n : ℕ} {w : SlotWorld X} (x : SecretSlot)
    (hquota : x.quota = (w.table.slot t).quota) (hused : x.used = (w.table.slot t).used + n) :
    Metered workers s 0 w (w.setSlot t x) ∧
      (¬ x.OverQuota workers → Metered workers s (if t = s then n else 0) w (w.setSlot t x)) := by
  by_cases hts : t = s
  · subst hts
    have hself : (w.setSlot t x).table.slot t = x := SecretTable.set_slot_self ..
    rw [if_pos rfl]
    constructor
    · exact ⟨by rw [hself, hquota], by rw [hself, hused]; omega, fun h => absurd h (Nat.lt_irrefl 0)⟩
    · intro hunder
      exact ⟨by rw [hself, hquota], by rw [hself, hused], fun _ => by rw [hself]; exact hunder⟩
  · have hother : (w.setSlot t x).table.slot s = w.table.slot s :=
      SecretTable.set_slot_of_ne _ _ (Ne.symm hts)
    rw [if_neg hts]
    have hzero : Metered workers s 0 w (w.setSlot t x) :=
      ⟨by rw [hother], by rw [hother]; omega, fun h => absurd h (Nat.lt_irrefl 0)⟩
    exact ⟨hzero, fun _ => hzero⟩

/-- A relay queues what `in` holds. -/
theorem relayTo_queuedBytes {W : Type*} {c : Conn W} {e : Outbound} (h : c.extra = .job e) :
    (relayTo c e).queuedBytes = c.queuedBytes + c.inp.length := by
  unfold Conn.queuedBytes relayTo
  rw [h]
  simp

theorem relayedUnder_of_queued {U V : Type*} {s : ℕ} {client : Conn (SlotWorld X)} (c : Conn U)
    {c' : Conn V} (h : c'.queuedBytes = c.queuedBytes) : relayedUnder s client c c' = 0 := by
  unfold relayedUnder
  rw [h, Nat.sub_self, ite_self]

/-- A connection that is not counted relays under no slot. -/
theorem relayedUnder_of_none {U V : Type*} {s : ℕ} {client : Conn (SlotWorld X)} {c : Conn U}
    {c' : Conn V} (h : client.secretSlot = none) : relayedUnder s client c c' = 0 := by
  refine if_neg fun hsome => ?_
  rw [h] at hsome
  exact nomatch hsome

/-- A connection that is counted relays under its own slot. -/
theorem relayedUnder_of_counted {U V : Type*} {s n : ℕ} {client : Conn (SlotWorld X)} {c : Conn U}
    {c' : Conn V} (hsid : 0 < client.rpc.extraInt2 ∧ client.rpc.extraInt2 ≤ EXT_SECRET_MAX_SLOTS)
    (h : c'.queuedBytes = c.queuedBytes + n) :
    relayedUnder s client c c' = if client.rpc.extraInt2 - 1 = s then n else 0 := by
  unfold relayedUnder Conn.secretSlot
  rw [if_pos hsid, h, Nat.add_sub_cancel_left]
  simp only [Option.some.injEq]

section Call

variable (workers : ℕ) (base : ExtServerEnv X) (direct : DirectEnv X) (s : ℕ)

/-- The limit for the rate, which the table does not hold. -/
theorem dcServer_rate {w w' : SlotWorld X} {t : ℕ} {remote : RemoteAddr} {n : ℕ}
    {delay : Option ℚ}
    (h : (dcServer workers base direct).rateLimitAfterRelay w t remote n = (delay, w')) :
    w'.table = w.table := by
  cases h
  rfl

/-- Bytes from a client are counted. -/
theorem dcServer_accountBytes {w w' : SlotWorld X} {t : ℕ} {remote : RemoteAddr} {n : ℕ}
    {exceeded : Bool} (h : (dcServer workers base direct).accountBytes w t remote n = (exceeded, w')) :
    Metered workers s 0 w w' ∧
      (exceeded = false → Metered workers s (if t = s then n else 0) w w') := by
  cases h
  obtain ⟨hrefused, hrelayed⟩ := Metered.of_setSlot (s := s) (w := w) (t := t) (n := n)
    { w.table.slot t with bytesReceived := (w.table.slot t).bytesReceived + n } rfl
    (by simp only [SecretSlot.used]; omega)
  exact ⟨hrefused, fun h => hrelayed (of_decide_eq_false h)⟩

/-- Bytes to a client are counted. -/
theorem dcServer_accountSent {w w' : SlotWorld X} {t : ℕ} {remote : RemoteAddr} {n : ℕ}
    {exceeded : Bool} (h : (dcServer workers base direct).accountSent w t remote n = (exceeded, w')) :
    Metered workers s 0 w w' ∧
      (exceeded = false → Metered workers s (if t = s then n else 0) w w') := by
  cases h
  obtain ⟨hrefused, hrelayed⟩ := Metered.of_setSlot (s := s) (w := w) (t := t) (n := n)
    { w.table.slot t with bytesSent := (w.table.slot t).bytesSent + n } rfl
    (by simp only [SecretSlot.used]; omega)
  exact ⟨hrefused, fun h => hrelayed (of_decide_eq_false h)⟩

/-- A change outside the table does not matter. -/
theorem Metered.trans_table {workers s n : ℕ} {w w' w'' : SlotWorld X}
    (h : Metered workers s n w w') (htable : w''.table = w'.table) :
    Metered workers s n w w'' where
  quota := by rw [htable, h.quota]
  counted := by rw [htable]; exact h.counted
  under := by rw [htable]; exact h.under

/-- A relay that is not counted is none under the slot. -/
theorem relayedUnder_of_uncounted {U : Type*} {client : Conn (SlotWorld X)} {c : Conn U}
    {e : Outbound} (h : c.extra = .job e) (hcount : ¬ Counts client c.inp.length) :
    relayedUnder s client c (relayTo c e) = 0 := by
  by_cases hsid : 0 < client.rpc.extraInt2 ∧ client.rpc.extraInt2 ≤ EXT_SECRET_MAX_SLOTS
  · have hempty : c.inp.length = 0 := by
      by_contra hne
      exact hcount ⟨hsid.1, hsid.2, Nat.pos_of_ne_zero hne⟩
    refine relayedUnder_of_queued c ?_
    rw [relayTo_queuedBytes h, hempty]
    rfl
  · exact relayedUnder_of_none (if_neg hsid)

/-- **A client's call is metered.** -/
theorem ClientCall.metered {c c' : Conn (SlotWorld X)} {res : ℤ}
    (h : ClientCall (dcServer workers base direct).toOutboundEnv c c' res) :
    Metered workers s (relayedUnder s c c c') c.world c'.world := by
  cases h with
  | waits h =>
    rw [relayedUnder_of_queued c rfl]
    exact .of_table rfl
  | gone h =>
    have hnone : relayedUnder s c c (failConnection c (-1)) = 0 := relayedUnder_of_queued c rfl
    rw [hnone]
    exact .of_table rfl
  | uncounted h hready hcount =>
    rw [relayedUnder_of_uncounted s h hcount]
    exact .of_table rfl
  | @refused e h hready hcount w haccount =>
    have hnone : relayedUnder s c c (failConnection (c.over w) (-1)) = 0 :=
      relayedUnder_of_queued c rfl
    rw [hnone]
    exact (dcServer_accountBytes workers base direct s haccount).1
  | @relayed e h hready hcount w w' delay haccount hrate =>
    have hqueued : (pauseFor (dcServer workers base direct).toOutboundEnv
        (relayTo (c.over w') e) delay).queuedBytes = c.queuedBytes + c.inp.length := by
      have hrelay := relayTo_queuedBytes (c := c.over w') (e := e) h
      cases delay <;> exact hrelay
    have hworld : (pauseFor (dcServer workers base direct).toOutboundEnv
        (relayTo (c.over w') e) delay).world = w' := by
      cases delay <;> rfl
    rw [relayedUnder_of_counted ⟨hcount.1, hcount.2.1⟩ hqueued, hworld]
    exact ((dcServer_accountBytes workers base direct s haccount).2 rfl).trans_table
      (dcServer_rate workers base direct hrate)

/-- An init changes nothing in the table. -/
theorem tcpDirectDcSendObfs2Init_table (c : Conn (Conn (SlotWorld X))) :
    (tcpDirectDcSendObfs2Init (dcServer workers base direct) c).world.world.table =
        c.world.world.table ∧
      (tcpDirectDcSendObfs2Init (dcServer workers base direct) c).extra = c.extra := by
  unfold tcpDirectDcSendObfs2Init
  dsimp only
  split <;> exact ⟨rfl, rfl⟩

theorem Conn.queuedBytes_congr {U V : Type*} {c : Conn U} {c' : Conn V} (h : c'.extra = c.extra) :
    c'.queuedBytes = c.queuedBytes := by
  unfold Conn.queuedBytes
  rw [h]

/-- **A call of the data centre's connection is metered.** -/
theorem DcCall.metered {c c' : Conn (Conn (SlotWorld X))} {res : ℤ}
    (h : DcCall (dcServer workers base direct) c c' res) :
    Metered workers s (relayedUnder s c.world c c') c.world.world c'.world.world := by
  cases h with
  | greets h hsocks =>
    have hkeeps := socks5HandleResponse_keeps direct.socks5 c
    rw [show socks5HandleResponse direct.socks5 c = _ from hsocks] at hkeeps
    rw [relayedUnder_of_queued c (Conn.queuedBytes_congr hkeeps.extra), hkeeps.world]
    exact .of_table rfl
  | @rejected h d hsocks =>
    have hkeeps := socks5HandleResponse_keeps direct.socks5 c
    rw [show socks5HandleResponse direct.socks5 c = _ from hsocks] at hkeeps
    have hnone : relayedUnder s c.world c (failConnection d (-1)) = 0 :=
      relayedUnder_of_queued c (Conn.queuedBytes_congr hkeeps.extra)
    have hworld : (failConnection d (-1)).world = c.world := hkeeps.world
    rw [hnone, hworld]
    exact .of_table rfl
  | @starts h d hsocks =>
    have hkeeps := socks5HandleResponse_keeps direct.socks5 c
    rw [show socks5HandleResponse direct.socks5 c = _ from hsocks] at hkeeps
    obtain ⟨htable, hextra⟩ := tcpDirectDcSendObfs2Init_table workers base direct d
    rw [relayedUnder_of_queued c (Conn.queuedBytes_congr (hextra.trans hkeeps.extra))]
    exact .of_table (htable.trans (by rw [hkeeps.world]))
  | gone hdone h =>
    have hnone : relayedUnder s c.world c (failConnection c (-1)) = 0 :=
      relayedUnder_of_queued c rfl
    rw [hnone]
    exact .of_table rfl
  | uncounted hdone h hcount =>
    rw [relayedUnder_of_uncounted s h hcount]
    exact .of_table rfl
  | @refused hdone h hcount w haccount =>
    have hnone : relayedUnder s c.world c (failConnection (c.over (c.world.over w)) (-1)) = 0 :=
      relayedUnder_of_queued c rfl
    rw [hnone]
    exact (dcServer_accountSent workers base direct s haccount).1
  | @relayed hdone e h hcount w w' delay haccount hrate =>
    have hqueued : (pauseDcFor (dcServer workers base direct)
        (relayTo (c.over (c.world.over w')) e) delay).queuedBytes =
          c.queuedBytes + c.inp.length := by
      have hrelay := relayTo_queuedBytes (c := c.over (c.world.over w')) (e := e) h
      cases delay <;> exact hrelay
    have hworld : (pauseDcFor (dcServer workers base direct)
        (relayTo (c.over (c.world.over w')) e) delay).world.world = w' := by
      cases delay <;> rfl
    rw [relayedUnder_of_counted ⟨hcount.1, hcount.2.1⟩ hqueued, hworld]
    exact ((dcServer_accountSent workers base direct s haccount).2 rfl).trans_table
      (dcServer_rate workers base direct hrate)

end Call

/-! ### Runs -/

/-- What has been relayed under the slot is counted and below its quota. -/
structure BelowQuota (workers s : ℕ) (quota : ℤ) (r : Relayed X) : Prop where
  quota_eq : (r.world.table.slot s).quota = quota
  counted : r.bytes ≤ (r.world.table.slot s).used
  below : (r.bytes : ℤ) < effectiveLimit workers quota

/-- A metered call keeps it so. -/
theorem BelowQuota.metered {workers s n : ℕ} {quota : ℤ} {r : Relayed X} {w : SlotWorld X}
    (hpos : 0 < quota) (h : BelowQuota workers s quota r) (hcall : Metered workers s n r.world w) :
    BelowQuota workers s quota ⟨w, r.bytes + n⟩ := by
  have hcounted := h.counted
  have hbelow := h.below
  have hmore := hcall.counted
  refine ⟨hcall.quota.trans h.quota_eq, ?_, ?_⟩
  · push_cast
    omega
  · rcases Nat.eq_zero_or_pos n with rfl | hn
    · simpa using hbelow
    · have hunder := hcall.under hn
      rw [SecretSlot.OverQuota, hcall.quota, h.quota_eq] at hunder
      unfold SecretSlot.used at hmore hcounted
      push_cast
      omega

section Run

variable (workers : ℕ) (base : ExtServerEnv X) (direct : DirectEnv X) (s : ℕ)

/-- **A step keeps what is relayed below the quota.** -/
theorem relayStep_below {quota : ℤ} {r : Relayed X} {e : DirectEvent X} (hpos : 0 < quota)
    (h : BelowQuota workers s quota r) (hkeeps : KeepsQuota s r e) :
    BelowQuota workers s quota (relayStep workers base direct s r e) := by
  cases e with
  | client c =>
    unfold relayStep
    dsimp only
    split
    · next c' res hparse =>
      exact h.metered hpos ((ClientCall.of_parse hparse).metered workers base direct s)
    · exact h
  | dc d c =>
    unfold relayStep
    dsimp only
    split
    · next d' res hparse =>
      exact h.metered hpos ((DcCall.of_parse hparse).metered workers base direct s)
    · exact h
  | other w =>
    obtain ⟨hquota, hgrows⟩ := hkeeps
    exact ⟨hquota.trans h.quota_eq, h.counted.trans hgrows, h.below⟩

/-- **What a secret relays stays below its quota.**  From counters at zero, whatever connections
of whatever secrets call `parse_execute` in whatever order, the bytes relayed under a slot with a
quota are at all times fewer than what the quota comes to for one worker. -/
theorem quotaRun_below (w : SlotWorld X) (es : List (DirectEvent X))
    (hquota : 0 < (w.table.slot s).quota) (hreceived : (w.table.slot s).bytesReceived = 0)
    (hsent : (w.table.slot s).bytesSent = 0)
    (hkeeps : Along (relayStep workers base direct s) (KeepsQuota s) ⟨w, 0⟩ es) :
    Throughout (relayStep workers base direct s)
      (fun r => (r.bytes : ℤ) < effectiveLimit workers (w.table.slot s).quota) ⟨w, 0⟩ es := by
  have hstart : BelowQuota workers s (w.table.slot s).quota ⟨w, 0⟩ := by
    refine ⟨rfl, ?_, ?_⟩
    · simp [SecretSlot.used, hreceived, hsent]
    · unfold effectiveLimit
      dsimp only
      split_ifs <;> omega
  have hrun := throughout_of_along (I := BelowQuota workers s (w.table.slot s).quota)
    (fun r e h hk => relayStep_below workers base direct s hquota h hk) hstart hkeeps
  exact hrun.imp fun r h => h.below

end Run

/-! ### A secret with a quota of ten bytes -/

/-- A server whose data centres are always ready. -/
def readyServer : ExtServerEnv Unit := { sampleServer with dcReady := fun _ => true }

/-- Its connections to data centres, without a proxy. -/
def readyDirect : DirectEnv Unit :=
  { readyServer.toOutboundEnv with
    prim := readyServer.prim
    socks5 := ⟨false, [], [], false, fun _ _ => ⟨[127, 0, 0, 1], List.replicate 16 0, 443⟩⟩
    addrIndex := fun _ => 0
    outboundDc := id
    randInit := fun w => (List.replicate 64 1, w)
    accountSent := fun w _ _ _ => (false, w) }

/-- The world with this secret in slot 0. -/
def tenBytes : SlotWorld Unit :=
  ⟨tcpRpcsSetExtSecret SecretTable.empty ⟨List.replicate 16 0, [], 0, 10, 0, 0, 0⟩, 0, 0, 0, (), []⟩

/-- A client of this secret with six bytes for its data centre. -/
def sixBytes : Conn (SlotWorld Unit) :=
  { Conn.allocated ⟨0x7f000001, [], 50000, false⟩ 443 tenBytes with
    type := .directClient
    extra := .job ⟨1, [], 443, []⟩
    inp := [1, 2, 3, 4, 5, 6]
    rpc := ⟨⟨false, false, false, false, false⟩, 0, 0, 1, 0, 2⟩ }

/-- Six bytes from one client are relayed, and those from the next are refused. -/
theorem quotaRun_below_sample :
    Throughout (relayStep 1 readyServer readyDirect 0) (fun r => (r.bytes : ℤ) < 10)
      ⟨tenBytes, 0⟩ [.client sixBytes, .client sixBytes] :=
  quotaRun_below 1 readyServer readyDirect 0 tenBytes _ (by decide +kernel) (by decide +kernel)
    (by decide +kernel) ⟨trivial, trivial, trivial⟩

end Server
end Teleproto3
