/-
# The gauge of direct mode

`direct_dc_connections_active` of `server/src/net/net-tcp-direct-dc.c`, for the clients of data
centres alone: every order of connecting, alarms, closes of data centres' connections and
closes of clients.

`direct_connect_to_dc` and `direct_retry_dc_connection` raise the gauge where they link a client
to a connection.  `tcp_direct_close` of a client lowers it, as long as it is positive, without
asking whether the client is linked; and where a connection that has not had its init yet
closes, the client is unlinked for another attempt and the gauge stays.  `gaugeStep_exact_iff`
says that a gauge that is right goes wrong at these two steps and at no other.
-/

import Teleproto3.Server.DirectRelay
import Teleproto3.Server.SlotRuns

namespace Teleproto3
namespace Server

open Lib

variable {X : Type*}

/-! ### Clients and their gauge -/

/-- A client that is linked to a connection to a data centre, and has not been closed. -/
def Conn.linked {W : Type*} (c : Conn W) : Option Unit :=
  if c.IsDirect ∧ c.extra.isJob = true then some () else none

/-- **The gauge is exact.** -/
def GaugeExact (s : SlotServer X) : Prop := s.world.active = tally Conn.linked s.clients ()

/-- A server that has just begun to serve. -/
def SlotServer.serving (w : SlotWorld X) : SlotServer X := ⟨true, { w with active := 0 }, [], none⟩

/-- What happens to the clients of data centres. -/
inductive GaugeEvent (X : Type*)
  /-- a client whose header has been accepted comes to `direct_connect_to_dc` -/
  | connect (c : Conn (SlotWorld X)) (h : AtSession c)
  /-- the clock moves, and so may everything the table does not hold -/
  | tick (now : ℤ) (preciseNow : ℚ) (rest : X)
  /-- reading and writing change what they change, and may fail the client -/
  | relay (i : ℕ) (d : Conn (SlotWorld X))
  | alarm (i : ℕ)
  /-- the connection to the client's data centre is closed, with its cipher set up or without -/
  | dcClose (i : ℕ) (ready : Bool)
  | close (i : ℕ)

section Step

variable (workers : ℕ) (base : ExtServerEnv X) (proxyProtocolEnabled : Bool)

/-- One event. -/
def gaugeStep (s : SlotServer X) : GaugeEvent X → SlotServer X
  | .connect c _ =>
    if s.fault.isSome then s
    else
      let d := directConnectToDc (slotServer workers base).toOutboundEnv (c.inWorld s.world)
      { s with world := d.world, clients := s.clients ++ [d] }
  | .tick now preciseNow rest =>
    slotStep workers base proxyProtocolEnabled s (.tick now preciseNow rest)
  | .relay i d => slotStep workers base proxyProtocolEnabled s (.read i d)
  | .alarm i => slotStep workers base proxyProtocolEnabled s (.alarm i)
  | .dcClose i ready => slotStep workers base proxyProtocolEnabled s (.dcClose i ready)
  | .close i => slotStep workers base proxyProtocolEnabled s (.close i)

/-- **The gauge keeps up with this event**: a client is not unlinked for another attempt, and no
client without a connection is closed while others have one. -/
def GaugeSafe (s : SlotServer X) : GaugeEvent X → Prop
  | .dcClose i ready =>
    s.fault = none → ∀ c, s.clients[i]? = some c → c.linked = some () →
      ready = true ∨ DIRECT_MAX_RETRIES ≤ c.rpc.extraInt
  | .close i =>
    s.fault = none → ∀ c, s.clients[i]? = some c → c.IsDirect → c.linked = none →
      tally Conn.linked s.clients () = 0
  | _ => True

/-! ### What one call does -/

/-- A call that moves the gauge by what it moves the link of its client. -/
structure Gauges (c d : Conn (SlotWorld X)) : Prop where
  gauge : d.world.active + weight Conn.linked c () = c.world.active + weight Conn.linked d ()
  num : d.rpc.inPacketNum = c.rpc.inPacketNum

theorem Conn.linked_congr {W W' : Type*} {c : Conn W} {d : Conn W'} (htype : d.type = c.type)
    (hextra : d.extra = c.extra) : d.linked = c.linked := by
  have hiff : d.IsDirect ∧ d.extra.isJob = true ↔ c.IsDirect ∧ c.extra.isJob = true := by
    unfold Conn.IsDirect
    rw [htype, hextra]
  simp only [Conn.linked, hiff]

theorem Conn.linked_of_not_isJob {W : Type*} {c : Conn W} (h : c.extra.isJob = false) :
    c.linked = none := by
  refine if_neg fun hlinked => ?_
  rw [h] at hlinked
  exact nomatch hlinked.2

theorem Conn.linked_of_isJob {W : Type*} {c : Conn W} (hdirect : c.IsDirect)
    (h : c.extra.isJob = true) : c.linked = some () := if_pos ⟨hdirect, h⟩

namespace Gauges

variable {b c d : Conn (SlotWorld X)}

theorem trans (h : Gauges b c) (h' : Gauges c d) : Gauges b d := by
  refine ⟨?_, h'.num.trans h.num⟩
  have h1 := h.gauge
  have h2 := h'.gauge
  omega

theorem of_same (hactive : d.world.active = c.world.active) (htype : d.type = c.type)
    (hextra : d.extra = c.extra) (hnum : d.rpc.inPacketNum = c.rpc.inPacketNum) : Gauges c d := by
  refine ⟨?_, hnum⟩
  rw [hactive, weight_congr _ (Conn.linked_congr htype hextra)]

theorem of_unlinked (hactive : d.world.active = c.world.active) (hc : c.extra.isJob = false)
    (hd : d.extra.isJob = false) (hnum : d.rpc.inPacketNum = c.rpc.inPacketNum) : Gauges c d := by
  refine ⟨?_, hnum⟩
  rw [hactive, weight_of_none _ (Conn.linked_of_not_isJob hc),
    weight_of_none _ (Conn.linked_of_not_isJob hd)]

/-- A link that comes with a raised gauge. -/
theorem of_link (hactive : d.world.active = c.world.active + 1) (hc : c.extra.isJob = false)
    (hdirect : d.IsDirect) (hd : d.extra.isJob = true)
    (hnum : d.rpc.inPacketNum = c.rpc.inPacketNum) : Gauges c d := by
  refine ⟨?_, hnum⟩
  rw [hactive, weight_of_none _ (Conn.linked_of_not_isJob hc),
    weight_self _ (Conn.linked_of_isJob hdirect hd), Nat.cast_zero, Nat.cast_one, add_zero]

end Gauges

theorem slotServer_try {w w' : SlotWorld X} {dc : ℤ} {r : Option Outbound}
    (h : (slotServer workers base).directTryDcAddrs w dc = (r, w')) :
    w'.active = if r.isSome then w.active + 1 else w.active := by
  obtain ⟨rfl, rfl⟩ := Prod.mk.inj h.symm
  rfl

theorem directScheduleRetry_gauges (c : Conn (SlotWorld X)) (attempt : ℕ) :
    Gauges c (directScheduleRetry (slotServer workers base).toOutboundEnv c attempt) := by
  unfold directScheduleRetry
  split_ifs <;> exact .of_same rfl rfl rfl rfl

/-- **Connecting.** -/
theorem directConnectToDc_gauges {c : Conn (SlotWorld X)} (hextra : c.extra.isJob = false) :
    Gauges c (directConnectToDc (slotServer workers base).toOutboundEnv c) := by
  have hdirect (w : SlotWorld X) (e : Outbound) : ({ c with
      type := directClientType c, world := w, extra := .job e } : Conn (SlotWorld X)).IsDirect := by
    unfold Conn.IsDirect directClientType
    split_ifs
    · exact Or.inr rfl
    · exact Or.inl rfl
  unfold directConnectToDc
  split_ifs
  · exact .of_same rfl rfl rfl rfl
  · dsimp only
    rcases htry : (slotServer workers base).directTryDcAddrs c.world c.rpc.extraInt4 with
      ⟨_ | e, w⟩
    · have htried : Gauges c { c with type := directClientType c, world := w } :=
        .of_unlinked (slotServer_try workers base htry) hextra hextra rfl
      exact htried.trans (directScheduleRetry_gauges workers base _ 0)
    · exact .of_link (slotServer_try workers base htry) hextra (hdirect w e) rfl rfl

/-- **The next attempt.** -/
theorem directRetryDcConnection_gauges {c : Conn (SlotWorld X)} (hdirect : c.IsDirect)
    (hextra : c.extra = .null) :
    Gauges c (directRetryDcConnection (slotServer workers base).toOutboundEnv c) := by
  have hjob : c.extra.isJob = false := by
    rw [hextra]
    rfl
  unfold directRetryDcConnection
  split_ifs
  · exact .of_same rfl rfl rfl rfl
  · rcases htry : (slotServer workers base).directTryDcAddrs c.world c.rpc.extraInt4 with
      ⟨_ | e, w⟩
    · have htried : Gauges c { c with world := w } :=
        .of_unlinked (slotServer_try workers base htry) hjob hjob rfl
      exact htried.trans (directScheduleRetry_gauges workers base _ _)
    · exact .of_link (slotServer_try workers base htry) hjob hdirect rfl rfl

/-- A decoy is for clients whose header has not been accepted. -/
theorem tcpRpcsExtAlarm_gauges {c : Conn (SlotWorld X)} (hnum : c.rpc.inPacketNum ≠ -3) :
    Gauges c (tcpRpcsExtAlarm (slotServer workers base) c) := by
  unfold tcpRpcsExtAlarm
  simp only [if_neg hnum]
  split_ifs
  · exact .of_same rfl rfl rfl rfl
  · cases (slotServer workers base).defaultDomainInfo <;> exact .of_same rfl rfl rfl rfl

theorem rateLimitResume_gauges {c d : Conn (SlotWorld X)} (h : rateLimitResume c = some d) :
    Gauges c d := by
  unfold rateLimitResume at h
  split_ifs at h
  rw [← Option.some.inj h]
  exact .of_same rfl rfl rfl rfl

theorem tcpRpcsExtDrsAlarm_gauges {c : Conn (SlotWorld X)} (hnum : c.rpc.inPacketNum ≠ -3) :
    Gauges c (tcpRpcsExtDrsAlarm (slotServer workers base) c) := by
  unfold tcpRpcsExtDrsAlarm
  cases hresume : rateLimitResume c with
  | some d => exact rateLimitResume_gauges hresume
  | none =>
    dsimp only
    split_ifs with hretry
    · exact directRetryDcConnection_gauges workers base (Or.inr hretry.1) hretry.2.1
    · exact tcpRpcsExtAlarm_gauges workers base hnum

theorem tcpDirectClientAlarm_gauges {c : Conn (SlotWorld X)} (hdirect : c.IsDirect) :
    Gauges c (tcpDirectClientAlarm (slotServer workers base) c) := by
  unfold tcpDirectClientAlarm
  cases hresume : rateLimitResume c with
  | some d => exact rateLimitResume_gauges hresume
  | none =>
    dsimp only
    split_ifs with hretry
    · exact directRetryDcConnection_gauges workers base hdirect hretry.1
    · exact .of_same rfl rfl rfl rfl

/-- **An alarm** of a client whose header has been accepted. -/
theorem jsAlarm_gauges {c : Conn (SlotWorld X)} (hnum : c.rpc.inPacketNum ≠ -3) :
    Gauges c (jsAlarm (slotServer workers base) c) := by
  have halarm (d : Conn (SlotWorld X)) (hd : d.rpc.inPacketNum ≠ -3) :
      Gauges d (clientAlarm (slotServer workers base) d) := by
    unfold clientAlarm
    cases htype : d.type with
    | rpcExtServer => exact tcpRpcsExtAlarm_gauges workers base hd
    | rpcExtServerDrs => exact tcpRpcsExtDrsAlarm_gauges workers base hd
    | directClientDrs => exact tcpRpcsExtDrsAlarm_gauges workers base hd
    | directClient => exact tcpDirectClientAlarm_gauges workers base (Or.inl htype)
    | proxyPass => exact .of_same rfl rfl rfl rfl
  have hdue : Gauges c { c with timer := none } := .of_same rfl rfl rfl rfl
  unfold jsAlarm
  split_ifs
  · exact hdue
  · exact hdue.trans (halarm _ hnum)

/-- **The end of a data centre's connection** leaves the gauge as it is, and the link too, unless
there is to be another attempt. -/
theorem dcClosed_gauge (c : Conn (SlotWorld X)) (ready : Bool) :
    (dcClosed (slotServer workers base).toOutboundEnv c ready).world.active = c.world.active ∧
      (dcClosed (slotServer workers base).toOutboundEnv c ready).rpc.inPacketNum =
        c.rpc.inPacketNum ∧
      (dcClosed (slotServer workers base).toOutboundEnv c ready).linked =
        if ready = false ∧ c.rpc.extraInt < DIRECT_MAX_RETRIES then none else c.linked := by
  unfold dcClosed
  cases hextra : c.extra with
  | null =>
    have hnone : c.linked = none := Conn.linked_of_not_isJob (hextra ▸ rfl)
    exact ⟨rfl, rfl, by rw [hnone, ite_self]⟩
  | methods =>
    have hnone : c.linked = none := Conn.linked_of_not_isJob (hextra ▸ rfl)
    exact ⟨rfl, rfl, by rw [hnone, ite_self]⟩
  | job e =>
    dsimp only
    by_cases hdirect : c.IsDirect
    · rw [if_neg (not_not.mpr hdirect)]
      by_cases hretry : ready = false ∧ c.rpc.extraInt < DIRECT_MAX_RETRIES
      · rw [if_pos hretry, if_pos hretry]
        unfold directScheduleRetry
        rw [if_neg (not_le.mpr hretry.2)]
        exact ⟨rfl, rfl, Conn.linked_of_not_isJob rfl⟩
      · rw [if_neg hretry, if_neg hretry]
        exact ⟨rfl, rfl, Conn.linked_congr rfl rfl⟩
    · have hnone : c.linked = none := if_neg fun h => hdirect h.1
      rw [if_pos hdirect]
      exact ⟨rfl, rfl, by rw [hnone, ite_self]⟩

/-- **The end of a client** lowers the gauge, where it is positive, whether the client is linked or
not. -/
theorem clientClose_gauge (c : Conn (SlotWorld X)) :
    (clientClose c).active =
      if c.IsDirect ∧ 0 < c.world.active then c.world.active - 1 else c.world.active := by
  have hkeep (d : Conn (SlotWorld X)) : (mtprotoExtRpcClose d).active = d.world.active := by
    unfold mtprotoExtRpcClose
    split <;> rfl
  have hdirect (h : c.IsDirect) : (tcpDirectClose c).active =
      if c.IsDirect ∧ 0 < c.world.active then c.world.active - 1 else c.world.active := by
    unfold tcpDirectClose
    by_cases hpos : 0 < c.world.active
    · rw [if_pos hpos, if_pos ⟨h, hpos⟩]
      exact hkeep _
    · rw [if_neg hpos, if_neg fun hand => hpos hand.2]
  unfold clientClose
  cases htype : c.type with
  | rpcExtServer => exact (hkeep c).trans (if_neg fun h => by simp [Conn.IsDirect, htype] at h).symm
  | rpcExtServerDrs =>
    exact (hkeep c).trans (if_neg fun h => by simp [Conn.IsDirect, htype] at h).symm
  | directClient => exact hdirect (Or.inl htype)
  | directClientDrs => exact hdirect (Or.inr htype)
  | proxyPass => exact (if_neg fun h => by simp [Conn.IsDirect, htype] at h).symm

/-! ### One event -/

/-- The server serves, and its clients' headers have been accepted. -/
structure GaugeInv (s : SlotServer X) : Prop where
  started : s.started = true
  sessions : ∀ c ∈ s.clients, c.rpc.inPacketNum ≠ -3

theorem slotStep_serving {s : SlotServer X} (hfault : s.fault = none) (hstarted : s.started = true)
    (e : SlotEvent X) :
    slotStep workers base proxyProtocolEnabled s e =
      slotServe workers base proxyProtocolEnabled s e := by
  unfold slotStep
  rw [hfault, hstarted]
  rfl

theorem slotStep_faulted {s : SlotServer X} {a : Abort} (hfault : s.fault = some a)
    (e : SlotEvent X) : slotStep workers base proxyProtocolEnabled s e = s := by
  unfold slotStep
  rw [hfault]
  rfl

/-- A server that has faulted stays as it is. -/
theorem gaugeStep_faulted {s : SlotServer X} {a : Abort} (hfault : s.fault = some a)
    (e : GaugeEvent X) : gaugeStep workers base proxyProtocolEnabled s e = s := by
  cases e with
  | connect c h => exact if_pos (hfault ▸ rfl)
  | tick now preciseNow rest => exact slotStep_faulted workers base _ hfault _
  | relay i d => exact slotStep_faulted workers base _ hfault _
  | alarm i => exact slotStep_faulted workers base _ hfault _
  | dcClose i ready => exact slotStep_faulted workers base _ hfault _
  | close i => exact slotStep_faulted workers base _ hfault _

theorem gaugeSafe_faulted {s : SlotServer X} {a : Abort} (hfault : s.fault = some a)
    (e : GaugeEvent X) : GaugeSafe s e := by
  cases e with
  | dcClose i ready => exact fun hnone => nomatch hnone.symm.trans hfault
  | close i => exact fun hnone => nomatch hnone.symm.trans hfault
  | _ => trivial

namespace GaugeInv

variable {s : SlotServer X} {i : ℕ} {c d : Conn (SlotWorld X)}

/-- A client is replaced. -/
theorem put (h : GaugeInv s) (hi : s.clients[i]? = some c)
    (hnum : d.rpc.inPacketNum = c.rpc.inPacketNum) : GaugeInv (s.put i d) := by
  refine ⟨h.started, fun a ha => ?_⟩
  rcases List.mem_or_eq_of_mem_set ha with ha | rfl
  · exact h.sessions a ha
  · rw [hnum]
    exact h.sessions c (List.mem_of_getElem? hi)

/-- A client is replaced by one whose link has moved with the gauge. -/
theorem exact_put (hi : s.clients[i]? = some c) (hexact : GaugeExact s)
    (hd : Gauges (c.inWorld s.world) d) : GaugeExact (s.put i d) := by
  have hset := tally_set Conn.linked hi d ()
  have hgauge : d.world.active + weight Conn.linked c () =
    s.world.active + weight Conn.linked d () := hd.gauge
  show d.world.active = (tally Conn.linked (s.clients.set i d) () : ℤ)
  have hactive : s.world.active = (tally Conn.linked s.clients () : ℤ) := hexact
  omega

end GaugeInv

/-- **One event** keeps the headers accepted. -/
theorem gaugeStep_inv {s : SlotServer X} (h : GaugeInv s) (e : GaugeEvent X) :
    GaugeInv (gaugeStep workers base proxyProtocolEnabled s e) := by
  cases hfault : s.fault with
  | some a =>
    rw [gaugeStep_faulted workers base _ hfault]
    exact h
  | none =>
    have hserve := slotStep_serving workers base proxyProtocolEnabled hfault h.started
    have hat (i : ℕ) (f : Conn (SlotWorld X) → Conn (SlotWorld X))
        (hf : ∀ c ∈ s.clients,
          (f (c.inWorld s.world)).rpc.inPacketNum = c.rpc.inPacketNum) :
        GaugeInv (s.atClient i fun c => s.put i (f c)) := by
      cases hi : s.clients[i]? with
      | none =>
        rw [SlotServer.atClient_none hi]
        exact h
      | some c =>
        rw [SlotServer.atClient_some hi]
        exact h.put hi (hf c (List.mem_of_getElem? hi))
    cases e with
    | connect c hc =>
      have hd := directConnectToDc_gauges workers base (c := c.inWorld s.world) hc.extra
      unfold gaugeStep
      rw [hfault]
      refine ⟨h.started, fun a ha => ?_⟩
      rcases List.mem_append.mp ha with ha | ha
      · exact h.sessions a ha
      · rw [List.mem_singleton.mp ha, hd.num]
        show c.rpc.inPacketNum ≠ -3
        rw [hc.inPacketNum]
        decide
    | tick now preciseNow rest =>
      show GaugeInv (slotStep _ _ _ _ _)
      rw [hserve]
      exact ⟨h.started, h.sessions⟩
    | relay i d =>
      show GaugeInv (slotStep _ _ _ _ _)
      rw [hserve]
      exact hat i (fun c => c.keepSession d) fun c _ => rfl
    | alarm i =>
      show GaugeInv (slotStep _ _ _ _ _)
      rw [hserve]
      exact hat i (jsAlarm (slotServer workers base)) fun c hc =>
        (jsAlarm_gauges workers base (c := c.inWorld s.world) (h.sessions c hc)).num
    | dcClose i ready =>
      show GaugeInv (slotStep _ _ _ _ _)
      rw [hserve]
      exact hat i (fun c => dcClosed (slotServer workers base).toOutboundEnv c ready) fun c _ =>
        (dcClosed_gauge workers base (c.inWorld s.world) ready).2.1
    | close i =>
      show GaugeInv (slotStep _ _ _ _ _)
      rw [hserve]
      simp only [slotServe]
      cases hi : s.clients[i]? with
      | none =>
        rw [SlotServer.atClient_none hi]
        exact h
      | some c =>
        rw [SlotServer.atClient_some hi]
        exact ⟨h.started, fun a ha => h.sessions a (List.mem_of_mem_eraseIdx ha)⟩

/-- A client loses its data centre's connection. -/
theorem exact_dcClose_iff {s : SlotServer X} (hfault : s.fault = none) (hexact : GaugeExact s)
    {i : ℕ} {ready : Bool} {c d : Conn (SlotWorld X)} (hi : s.clients[i]? = some c)
    (hworld : d.world.active = s.world.active)
    (hlinked : d.linked = if ready = false ∧ c.rpc.extraInt < DIRECT_MAX_RETRIES then none
      else c.linked) :
    GaugeExact (s.put i d) ↔ GaugeSafe s (.dcClose i ready) := by
  have hactive : s.world.active = (tally Conn.linked s.clients () : ℤ) := hexact
  have hset := tally_set Conn.linked hi d ()
  have hput : GaugeExact (s.put i d) ↔ weight Conn.linked d () = weight Conn.linked c () := by
    show d.world.active = (tally Conn.linked (s.clients.set i d) () : ℤ) ↔ _
    omega
  have hsafe : GaugeSafe s (.dcClose i ready) ↔
      (c.linked = some () → ready = true ∨ DIRECT_MAX_RETRIES ≤ c.rpc.extraInt) := by
    constructor
    · exact fun h => h hfault c hi
    · intro h _ c' hc'
      rw [hi] at hc'
      rw [← Option.some.inj hc']
      exact h
  rw [hput, hsafe]
  by_cases hretry : ready = false ∧ c.rpc.extraInt < DIRECT_MAX_RETRIES
  · rw [if_pos hretry] at hlinked
    rw [weight_of_none _ hlinked]
    constructor
    · intro hzero hsome
      rw [weight_self _ hsome] at hzero
      exact absurd hzero (by decide)
    · intro hsome
      refine (weight_of_ne _ fun hlink => ?_).symm
      rcases hsome hlink with hready | hle
      · exact nomatch hready.symm.trans hretry.1
      · exact absurd hretry.2 (not_lt.mpr hle)
  · rw [if_neg hretry] at hlinked
    refine iff_of_true (weight_congr _ hlinked ()) fun _ => ?_
    cases hready : ready with
    | true => exact Or.inl rfl
    | false => exact Or.inr (not_lt.mp fun hlt => hretry ⟨hready, hlt⟩)

/-- A client is closed. -/
theorem exact_close_iff {s : SlotServer X} (hfault : s.fault = none) (hexact : GaugeExact s)
    {i : ℕ} {c : Conn (SlotWorld X)} (hi : s.clients[i]? = some c) :
    GaugeExact { s with
      world := clientClose (c.inWorld s.world)
      clients := s.clients.eraseIdx i
      fault := closeFault (c.inWorld s.world) } ↔ GaugeSafe s (.close i) := by
  have hactive : s.world.active = (tally Conn.linked s.clients () : ℤ) := hexact
  have herase := tally_eraseIdx Conn.linked hi ()
  have hclose := clientClose_gauge (c.inWorld s.world)
  have hexact' : GaugeExact { s with
      world := clientClose (c.inWorld s.world)
      clients := s.clients.eraseIdx i
      fault := closeFault (c.inWorld s.world) } ↔
    (clientClose (c.inWorld s.world)).active = s.world.active - weight Conn.linked c () := by
    show (clientClose (c.inWorld s.world)).active =
      (tally Conn.linked (s.clients.eraseIdx i) () : ℤ) ↔ _
    omega
  have hsafe : GaugeSafe s (.close i) ↔
      (c.IsDirect → c.linked = none → tally Conn.linked s.clients () = 0) := by
    constructor
    · exact fun h => h hfault c hi
    · intro h _ c' hc'
      rw [hi] at hc'
      rw [← Option.some.inj hc']
      exact h
  rw [hexact', hsafe, hclose]
  show (if c.IsDirect ∧ 0 < s.world.active then s.world.active - 1 else s.world.active) = _ ↔ _
  cases hlinked : c.linked with
  | some u =>
    have hdirect : c.IsDirect := by
      unfold Conn.linked at hlinked
      split_ifs at hlinked with hand
      exact hand.1
    have hpos := tally_pos Conn.linked (List.mem_of_getElem? hi) hlinked
    have hraised : 0 < s.world.active := by
      rw [hactive]
      exact Int.natCast_pos.mpr hpos
    rw [if_pos ⟨hdirect, hraised⟩, weight_self _ hlinked]
    exact iff_of_true rfl fun _ hnone => nomatch hnone
  | none =>
    rw [weight_of_none _ hlinked]
    by_cases hdirect : c.IsDirect
    · by_cases hpos : 0 < s.world.active
      · rw [if_pos ⟨hdirect, hpos⟩]
        constructor
        · intro h
          omega
        · intro h
          have hzero := h hdirect rfl
          omega
      · rw [if_neg fun hand => hpos hand.2]
        refine iff_of_true (by omega) fun _ _ => ?_
        omega
    · rw [if_neg fun hand => hdirect hand.1]
      exact iff_of_true (by omega) fun hd => absurd hd hdirect

/-- **One event keeps an exact gauge exact if and only if it is safe.** -/
theorem gaugeStep_exact_iff {s : SlotServer X} (h : GaugeInv s) (hexact : GaugeExact s)
    (e : GaugeEvent X) :
    GaugeExact (gaugeStep workers base proxyProtocolEnabled s e) ↔ GaugeSafe s e := by
  cases hfault : s.fault with
  | some a =>
    rw [gaugeStep_faulted workers base _ hfault]
    exact iff_of_true hexact (gaugeSafe_faulted hfault e)
  | none =>
    have hserve := slotStep_serving workers base proxyProtocolEnabled hfault h.started
    have hactive : s.world.active = (tally Conn.linked s.clients () : ℤ) := hexact
    have hat (i : ℕ) (f : Conn (SlotWorld X) → Conn (SlotWorld X))
        (hf : ∀ c ∈ s.clients, Gauges (c.inWorld s.world) (f (c.inWorld s.world))) :
        GaugeExact (s.atClient i fun c => s.put i (f c)) := by
      cases hi : s.clients[i]? with
      | none =>
        rw [SlotServer.atClient_none hi]
        exact hexact
      | some c =>
        rw [SlotServer.atClient_some hi]
        exact GaugeInv.exact_put hi hexact (hf c (List.mem_of_getElem? hi))
    cases e with
    | connect c hc =>
      refine iff_of_true ?_ trivial
      have hd := directConnectToDc_gauges workers base (c := c.inWorld s.world) hc.extra
      have hgauge := hd.gauge
      have hnone : (c.inWorld s.world).linked = none := Conn.linked_of_not_isJob hc.extra
      rw [weight_of_none _ hnone] at hgauge
      unfold gaugeStep
      rw [hfault]
      show _ = (tally Conn.linked (s.clients ++ [_]) () : ℤ)
      rw [tally_concat, Nat.cast_add, ← hactive]
      exact (add_zero _).symm.trans hgauge
    | tick now preciseNow rest =>
      refine iff_of_true ?_ trivial
      show GaugeExact (slotStep _ _ _ _ _)
      rw [hserve]
      exact hexact
    | relay i d =>
      refine iff_of_true ?_ trivial
      show GaugeExact (slotStep _ _ _ _ _)
      rw [hserve]
      exact hat i (fun c => c.keepSession d) fun c _ => .of_same rfl rfl rfl rfl
    | alarm i =>
      refine iff_of_true ?_ trivial
      show GaugeExact (slotStep _ _ _ _ _)
      rw [hserve]
      exact hat i (jsAlarm (slotServer workers base)) fun c hc =>
        jsAlarm_gauges workers base (h.sessions c hc)
    | dcClose i ready =>
      show GaugeExact (slotStep _ _ _ _ _) ↔ _
      rw [hserve]
      simp only [slotServe]
      cases hi : s.clients[i]? with
      | none =>
        rw [SlotServer.atClient_none hi]
        refine iff_of_true hexact fun _ c hc => ?_
        exact nomatch hc.symm.trans hi
      | some c =>
        rw [SlotServer.atClient_some hi]
        obtain ⟨hworld, -, hlinked⟩ := dcClosed_gauge workers base (c.inWorld s.world) ready
        exact exact_dcClose_iff hfault hexact hi hworld hlinked
    | close i =>
      show GaugeExact (slotStep _ _ _ _ _) ↔ _
      rw [hserve]
      simp only [slotServe]
      cases hi : s.clients[i]? with
      | none =>
        rw [SlotServer.atClient_none hi]
        refine iff_of_true hexact fun _ c hc => ?_
        exact nomatch hc.symm.trans hi
      | some c =>
        rw [SlotServer.atClient_some hi]
        exact exact_close_iff hfault hexact hi

/-! ### Every run -/

/-- **The gauge is exact throughout a run if and only if every event of it is safe.** -/
theorem gaugeRun_exact_iff (w : SlotWorld X) (es : List (GaugeEvent X)) :
    Throughout (gaugeStep workers base proxyProtocolEnabled) GaugeExact (.serving w) es ↔
      Along (gaugeStep workers base proxyProtocolEnabled) GaugeSafe (.serving w) es := by
  have hinv : GaugeInv (SlotServer.serving w) := ⟨rfl, fun c hc => (nomatch hc)⟩
  have hexact : GaugeExact (SlotServer.serving w) := rfl
  refine throughout_iff_along (I := GaugeInv) (R := fun _ _ => True)
    (fun s e hs _ => gaugeStep_inv workers base _ hs e)
    (fun s e hs _ hq => gaugeStep_exact_iff workers base _ hs hq e) hinv hexact ?_
  exact along_of_throughout (Q := fun _ => True) (fun _ _ _ => trivial)
    (throughout_of_step (fun _ _ _ => trivial) trivial)

end Step

/-- A world without secrets. -/
def plainSlots : SlotWorld Unit := ⟨SecretTable.empty, 0, 0, 0, (), []⟩

/-- A client whose header has just been accepted. -/
def plainSession : Conn (SlotWorld Unit) :=
  { Conn.allocated ⟨0x7f000001, [], 50000, false⟩ 443 plainSlots with
    crypto := some ⟨⟨fun _ => 0, 66⟩, ⟨fun _ => 0, 0⟩⟩
    rpc := ⟨⟨false, false, false, false, false⟩, 0, 0, 0, 0, 2⟩ }

/-- **A client whose data centre's connection closes before its init** is counted, and is linked to
none. -/
theorem gaugeRun_not_exact :
    ¬ ∀ es, Throughout (gaugeStep 1 reachableServer false) GaugeExact (.serving plainSlots) es := by
  intro hall
  have hrun := (hall [.connect plainSession ⟨rfl, rfl, rfl, rfl⟩, .dcClose 0 false]).finish
  have hone : (1 : ℤ) = (0 : ℕ) := hrun
  exact absurd hone (by decide)

end Server
end Teleproto3
