/-
# Runs of a server and its clients

The events of a run, sorted by what they can do: events about one client's connection
(`slotServe_client`), the end of a connection, and changes to the table.  For each kind there is
one lemma that says what it leaves alone; what holds over whole runs is proved from these.

A run's condition is about the blocks the parser gets to: `BlockCond`.
-/

import Teleproto3.Lib.Runs
import Teleproto3.Server.SlotTurn

namespace Teleproto3
namespace Server

open Lib

variable {X : Type*}

/-! ### The end of a connection -/

/-- A slot whose connections and addresses alone have changed. -/
def SecretSlot.Counts (x y : SecretSlot) (connections : ℤ) : Prop :=
  ∃ ips n, y = { x with connections := connections, ips := ips, uniqueIpCount := n }

theorem SecretSlot.Counts.refl (x : SecretSlot) : x.Counts x x.connections :=
  ⟨x.ips, x.uniqueIpCount, rfl⟩

theorem mtprotoExtRpcClose_slot (c : Conn (SlotWorld X)) (r : ℕ) :
    (c.world.table.slot r).Counts ((mtprotoExtRpcClose c).table.slot r)
      ((c.world.table.slot r).connections - weight Conn.secretSlot c r) := by
  unfold mtprotoExtRpcClose
  cases hslot : c.secretSlot with
  | none =>
    rw [weight_of_none _ hslot, Nat.cast_zero, sub_zero]
    exact .refl _
  | some s =>
    by_cases hr : r = s
    · rw [hr, weight_self _ hslot]
      obtain ⟨ips, n, heq⟩ := (c.world.table.slot s).disconnect_eq c.remote
      exact ⟨ips, n, (c.world.table.set_slot_self s _).trans heq⟩
    · have hne : c.secretSlot ≠ some r := by
        rw [hslot]
        exact fun h => hr (Option.some.inj h).symm
      rw [weight_of_ne _ hne, Nat.cast_zero, sub_zero]
      have hother : (c.world.setSlot s ((c.world.table.slot s).disconnect c.remote)).table.slot r =
          c.world.table.slot r := c.world.table.set_slot_of_ne _ hr
      dsimp only
      rw [hother]
      exact .refl _

/-- **The end of a connection** takes at most its own count from a slot, and nothing else. -/
theorem clientClose_slot (c : Conn (SlotWorld X)) (r : ℕ) :
    ∃ k, k ≤ weight Conn.secretSlot c r ∧
      (c.world.table.slot r).Counts ((clientClose c).table.slot r)
        ((c.world.table.slot r).connections - k) := by
  have hsame : (c.world.table.slot r).Counts (c.world.table.slot r)
      ((c.world.table.slot r).connections - (0 : ℕ)) := by
    rw [Nat.cast_zero, sub_zero]
    exact .refl _
  have hdirect : ∃ k, k ≤ weight Conn.secretSlot c r ∧
      (c.world.table.slot r).Counts ((tcpDirectClose c).table.slot r)
        ((c.world.table.slot r).connections - k) := by
    unfold tcpDirectClose
    split_ifs
    · exact ⟨_, le_refl _, mtprotoExtRpcClose_slot
        { c with world := { c.world with active := c.world.active - 1 } } r⟩
    · exact ⟨0, Nat.zero_le _, hsame⟩
  unfold clientClose
  split
  · exact ⟨_, le_refl _, mtprotoExtRpcClose_slot c r⟩
  · exact ⟨_, le_refl _, mtprotoExtRpcClose_slot c r⟩
  · exact hdirect
  · exact hdirect
  · exact ⟨0, Nat.zero_le _, hsame⟩

/-- What else the end of a connection leaves alone. -/
theorem clientClose_rest (c : Conn (SlotWorld X)) :
    (clientClose c).counted = c.world.counted ∧
      (clientClose c).table.pinned = c.world.table.pinned := by
  have hrpc (c : Conn (SlotWorld X)) : (mtprotoExtRpcClose c).counted = c.world.counted ∧
      (mtprotoExtRpcClose c).table.pinned = c.world.table.pinned := by
    unfold mtprotoExtRpcClose
    split <;> exact ⟨rfl, rfl⟩
  have hdirect : (tcpDirectClose c).counted = c.world.counted ∧
      (tcpDirectClose c).table.pinned = c.world.table.pinned := by
    unfold tcpDirectClose
    split_ifs
    · exact hrpc _
    · exact ⟨rfl, rfl⟩
  unfold clientClose
  split
  · exact hrpc c
  · exact hrpc c
  · exact hdirect
  · exact hdirect
  · exact ⟨rfl, rfl⟩

/-! ### A call of the parser -/

theorem Conn.secretSlot_congr {W W' : Type*} {c : Conn W} {d : Conn W'}
    (h : d.rpc.extraInt2 = c.rpc.extraInt2) : d.secretSlot = c.secretSlot := by
  unfold Conn.secretSlot
  rw [h]

/-- The conditions on a session are about what the connection keeps. -/
theorem SessionOk.inWorld {c : Conn (SlotWorld X)} (h : SessionOk c) (w : SlotWorld X) :
    SessionOk (c.inWorld w) := ⟨h.num_lt, h.waiting, h.proxied⟩

/-- The slot of an accepted connection is the one its block was matched with. -/
theorem Accepted.secretSlot {workers : ℕ} {base : ExtServerEnv X} {c d : Conn (SlotWorld X)}
    {pr : Obfs2ParseResult} (h : Accepted workers base c d pr) :
    d.secretSlot = if matchedSlot base c pr < EXT_SECRET_MAX_SLOTS then
      some (matchedSlot base c pr) else none := by
  unfold Conn.secretSlot
  rw [h.sid]
  by_cases hlt : matchedSlot base c pr < EXT_SECRET_MAX_SLOTS
  · rw [if_pos hlt, if_pos ⟨Nat.succ_pos _, hlt⟩, Nat.add_sub_cancel]
  · rw [if_neg hlt, if_neg (fun hle => hlt hle.2)]

/-- **An accepted connection** counts where it stands. -/
theorem Accepted.slot {workers : ℕ} {base : ExtServerEnv X} {c d : Conn (SlotWorld X)}
    {pr : Obfs2ParseResult} (h : Accepted workers base c d pr) (r : ℕ) :
    (c.world.table.slot r).Counts
      ((countedWorld workers base c.world (matchedSlot base c pr) c.remote).table.slot r)
      ((c.world.table.slot r).connections + weight Conn.secretSlot d r) := by
  unfold countedWorld
  by_cases hlt : matchedSlot base c pr < EXT_SECRET_MAX_SLOTS
  · have hsome := h.secretSlot
    rw [if_pos hlt] at hsome ⊢
    show (c.world.table.slot r).Counts
      ((c.world.table.set (matchedSlot base c pr)
        ((c.world.table.slot (matchedSlot base c pr)).connect c.remote)).slot r) _
    by_cases hr : r = matchedSlot base c pr
    · rw [hr, weight_self _ hsome, SecretTable.set_slot_self]
      exact (c.world.table.slot (matchedSlot base c pr)).connect_eq c.remote
    · have hne : d.secretSlot ≠ some r := by
        rw [hsome]
        exact fun heq => hr (Option.some.inj heq).symm
      rw [weight_of_ne _ hne, Nat.cast_zero, add_zero, SecretTable.set_slot_of_ne _ _ hr]
      exact .refl _
  · have hnone := h.secretSlot
    rw [if_neg hlt] at hnone ⊢
    rw [weight_of_none _ hnone, Nat.cast_zero, add_zero]
    exact .refl _

/-- The slot a connection was counted for. -/
def countSlot (p : ℕ × Bool) : Option ℕ := some p.1

/-- **What a call of `parse_execute` does to the slots and to the place of its connection among
them.** -/
structure SlotMove (c d : Conn (SlotWorld X)) : Prop where
  ok : SessionOk d
  log : c.log <+: d.log
  pinned : d.world.table.pinned = c.world.table.pinned
  state : ∀ r, (d.world.table.slot r).state = (c.world.table.slot r).state
  key : ∀ r, (d.world.table.slot r).key = (c.world.table.slot r).key
  connections : ∀ r, (d.world.table.slot r).connections + weight Conn.secretSlot c r =
    (c.world.table.slot r).connections + weight Conn.secretSlot d r
  counted : ∀ r, tally countSlot d.world.counted r + weight Conn.secretSlot c r =
    tally countSlot c.world.counted r + weight Conn.secretSlot d r

theorem Quiet.secretSlot {c d : Conn (SlotWorld X)} (h : Quiet c d) (hok : SessionOk c) :
    d.secretSlot = c.secretSlot := Conn.secretSlot_congr (h.sid hok)

theorem Quiet.slotMove {c d : Conn (SlotWorld X)} (h : Quiet c d) (hok : SessionOk c) :
    SlotMove c d where
  ok := h.ok hok
  log := h.log
  pinned := h.world.pinned
  state := h.world.state
  key := h.world.key
  connections r := by rw [h.world.connections, weight_congr _ (h.secretSlot hok)]
  counted r := by rw [h.world.counted, weight_congr _ (h.secretSlot hok)]

theorem SlotMove.trans {b c d : Conn (SlotWorld X)} (h : SlotMove b c) (h' : SlotMove c d) :
    SlotMove b d where
  ok := h'.ok
  log := h.log.trans h'.log
  pinned := h'.pinned.trans h.pinned
  state r := (h'.state r).trans (h.state r)
  key r := (h'.key r).trans (h.key r)
  connections r := by
    have h1 := h.connections r
    have h2 := h'.connections r
    omega
  counted r := by
    have h1 := h.counted r
    have h2 := h'.counted r
    omega

theorem Accepted.slotMove {workers : ℕ} {base : ExtServerEnv X} {c d : Conn (SlotWorld X)}
    {pr : Obfs2ParseResult} (h : Accepted workers base c d pr) (hslot : c.secretSlot = none) :
    SlotMove c d := by
  have hpinned : (countedWorld workers base c.world (matchedSlot base c pr) c.remote).table.pinned =
      c.world.table.pinned := by
    unfold countedWorld
    split_ifs <;> rfl
  have hcounted (r : ℕ) :
      tally countSlot (countedWorld workers base c.world (matchedSlot base c pr) c.remote).counted r =
        tally countSlot c.world.counted r + weight Conn.secretSlot d r := by
    have hsecret := h.secretSlot
    unfold countedWorld
    split_ifs at hsecret ⊢
    · refine (tally_concat countSlot c.world.counted _ r).trans ?_
      unfold weight
      rw [hsecret]
      rfl
    · rw [weight_of_none _ hsecret, Nat.add_zero]
  refine ⟨h.ok, h.log, h.world.pinned.trans hpinned, fun r => ?_, fun r => ?_, fun r => ?_,
    fun r => ?_⟩
  · obtain ⟨ips, n, heq⟩ := h.slot r
    rw [h.world.state, heq]
  · obtain ⟨ips, n, heq⟩ := h.slot r
    rw [h.world.key, heq]
  · obtain ⟨ips, n, heq⟩ := h.slot r
    rw [h.world.connections, heq, weight_of_none _ hslot, Nat.cast_zero, add_zero]
  · rw [h.world.counted, hcounted, weight_of_none _ hslot, Nat.add_zero]

/-- **A call of `parse_execute` counts its connection where it stands.** -/
theorem ParseEffect.slotMove {workers : ℕ} {base : ExtServerEnv X}
    {cond : Conn (SlotWorld X) → Prop} {c d : Conn (SlotWorld X)}
    (h : ParseEffect workers base cond c d) (hok : SessionOk c) : SlotMove c d := by
  cases h with
  | quiet h => exact h.slotMove hok
  | @counted c1 d1 pr hfresh hfront hcond hblock hback =>
    have hnone : c1.secretSlot = none := by
      unfold Conn.secretSlot
      rw [hfront.sid hok, hfresh hok]
      exact if_neg fun h => lt_irrefl 0 h.1
    exact ((hfront.slotMove hok).trans (hblock.slotMove hnone)).trans (hback.slotMove hblock.ok)

/-- The end by force keeps a connection's session, type and log. -/
theorem tcpRpcsDrainForceClose_keeps {W : Type*} (forced : List ℕ) (c : Conn W) :
    (tcpRpcsDrainForceClose forced c).rpc = c.rpc ∧
      (tcpRpcsDrainForceClose forced c).type = c.type ∧
        (tcpRpcsDrainForceClose forced c).log = c.log := by
  unfold tcpRpcsDrainForceClose
  split
  · split_ifs <;> exact ⟨rfl, rfl, rfl⟩
  · exact ⟨rfl, rfl, rfl⟩

theorem tcpRpcsDrainForceClose_secretSlot {W : Type*} (forced : List ℕ) (c : Conn W) :
    (tcpRpcsDrainForceClose forced c).secretSlot = c.secretSlot :=
  Conn.secretSlot_congr (by rw [(tcpRpcsDrainForceClose_keeps forced c).1])

theorem SessionOk.forceClose {c : Conn (SlotWorld X)} (h : SessionOk c) (forced : List ℕ) :
    SessionOk (tcpRpcsDrainForceClose forced c) := by
  obtain ⟨hrpc, htype, -⟩ := tcpRpcsDrainForceClose_keeps forced c
  refine ⟨?_, ?_, ?_⟩
  · rw [hrpc]
    exact h.num_lt
  · rw [hrpc]
    exact h.waiting
  · rw [hrpc, htype]
    exact h.proxied

/-- A connection that has just been accepted waits for its header. -/
theorem accepted_sessionOk {W : SlotWorld X} (env : ExtServerEnv (SlotWorld X))
    (proxyProtocolEnabled : Bool) (remote : RemoteAddr) (ourPort : ℕ) :
    SessionOk (tcpRpcsExtInitAccepted env proxyProtocolEnabled
      (Conn.allocated remote ourPort W)) :=
  ⟨show (-3 : ℤ) < 2 ^ 31 by decide, fun _ => rfl, fun _ => rfl⟩

/-! ### The kinds of events -/

/-- An event about one client's connection, which stays open. -/
def SlotEvent.IsClient : SlotEvent X → Prop
  | .read _ _ | .parse _ | .alarm _ | .dcClose _ _ => True
  | _ => False

/-- An event about no client that is there. -/
def SlotEvent.IsOther : SlotEvent X → Prop
  | .read _ _ | .parse _ | .alarm _ | .dcClose _ _ | .close _ => False
  | _ => True

/-- Every event is about a client's connection, the end of one, or neither. -/
theorem SlotEvent.kinds (e : SlotEvent X) : e.IsClient ∨ (∃ i, e = .close i) ∨ e.IsOther := by
  cases e with
  | close i => exact Or.inr (Or.inl ⟨i, rfl⟩)
  | read i d => exact Or.inl trivial
  | parse i => exact Or.inl trivial
  | alarm i => exact Or.inl trivial
  | dcClose i ready => exact Or.inl trivial
  | _ => exact Or.inr (Or.inr trivial)

section Step

variable (workers : ℕ) (base : ExtServerEnv X) (proxyProtocolEnabled : Bool)

/-- The condition on the blocks the parser gets to in an event. -/
def BlockCond (cond : Conn (SlotWorld X) → Prop) (s : SlotServer X) : SlotEvent X → Prop
  | .parse i =>
    ∀ c, s.clients[i]? = some c → EachBlock workers base cond (c.inWorld s.world)
  | _ => True

/-- What an event about one client's connection does. -/
inductive ClientStep (cond : Conn (SlotWorld X) → Prop) (s s' : SlotServer X) : Prop
  | same (hstarted : s'.started = s.started) (hworld : s'.world = s.world)
      (hclients : s'.clients = s.clients)
  | moved {i : ℕ} {c d : Conn (SlotWorld X)} (hi : s.clients[i]? = some c)
      (heffect : ParseEffect workers base cond (c.inWorld s.world) d)
      (hs' : s' = s.put i d)

/-- What happens to a client that is there. -/
theorem SlotServer.atClient_some {s : SlotServer X} {i : ℕ} {c : Conn (SlotWorld X)}
    (h : s.clients[i]? = some c) (f : Conn (SlotWorld X) → SlotServer X) :
    s.atClient i f = f (c.inWorld s.world) := by
  unfold atClient
  rw [h]

theorem SlotServer.atClient_none {s : SlotServer X} {i : ℕ} (h : s.clients[i]? = none)
    (f : Conn (SlotWorld X) → SlotServer X) : s.atClient i f = s := by
  unfold atClient
  rw [h]

/-- **An event about one client's connection** is quiet, or a call of the parser that accepts a
block. -/
theorem slotServe_client {cond : Conn (SlotWorld X) → Prop} {s : SlotServer X} {e : SlotEvent X}
    (he : e.IsClient) (hcond : BlockCond workers base cond s e) :
    ClientStep workers base cond s (slotServe workers base proxyProtocolEnabled s e) := by
  have hat (i : ℕ) (f : Conn (SlotWorld X) → SlotServer X)
      (hf : ∀ c, s.clients[i]? = some c →
        ClientStep workers base cond s (f (c.inWorld s.world))) :
      ClientStep workers base cond s (s.atClient i f) := by
    cases hi : s.clients[i]? with
    | none =>
      rw [SlotServer.atClient_none hi]
      exact .same rfl rfl rfl
    | some c =>
      rw [SlotServer.atClient_some hi]
      exact hf c hi
  cases e with
  | read i d =>
    exact hat i (fun c => s.put i (c.keepSession d)) fun c hi =>
      .moved hi (.quiet (keepSession_quiet _ d)) rfl
  | parse i =>
    refine hat i _ fun c hi => ?_
    unfold slotParse
    cases hparse : clientParseExecute (slotServer workers base) (c.inWorld s.world) with
    | error a => exact .same rfl rfl rfl
    | ok p =>
      obtain ⟨d, res⟩ := p
      exact .moved hi (clientParseExecute_effect workers base (hcond c hi) hparse) rfl
  | alarm i =>
    exact hat i (fun c => s.put i (jsAlarm (slotServer workers base) c)) fun c hi =>
      .moved hi (.quiet (jsAlarm_quiet workers base _)) rfl
  | dcClose i ready =>
    exact hat i (fun c => s.put i (dcClosed (slotServer workers base).toOutboundEnv c ready))
      fun c hi => .moved hi (.quiet (dcClosed_quiet workers base _ ready)) rfl
  | register cfg => exact he.elim
  | start => exact he.elim
  | tick now preciseNow rest => exact he.elim
  | traffic r received sent => exact he.elim
  | accept remote ourPort => exact he.elim
  | close i => exact he.elim
  | reload cfgs => exact he.elim
  | sweep timeout => exact he.elim

/-! ### Other events -/

/-- What an event about no client that is there does. -/
inductive OtherStep (s s' : SlotServer X) (e : SlotEvent X) : Prop
  | calm (hworld : Calm s.world s'.world) (hclients : s'.clients = s.clients)
  | accepted {remote : RemoteAddr} {ourPort : ℕ} (hworld : s'.world = s.world)
      (hclients : s'.clients = s.clients ++ [tcpRpcsExtInitAccepted (slotServer workers base)
        proxyProtocolEnabled (Conn.allocated remote ourPort s.world)])
  | reloaded {cfgs : List SecretConfig} (he : e = .reload cfgs)
      (htable : s.world.table.Reloads s'.world.table) (hactive : s'.world.active = s.world.active)
      (hcounted : s'.world.counted = s.world.counted) (hclients : s'.clients = s.clients)
  | swept {forced : List ℕ} (htable : s.world.table.Sweeps s'.world.table)
      (hactive : s'.world.active = s.world.active)
      (hcounted : s'.world.counted = s.world.counted)
      (hclients : s'.clients = s.clients.map (tcpRpcsDrainForceClose forced))

/-- **An event about no client that is there** is calm, or one of three. -/
theorem slotServe_other {s : SlotServer X} {e : SlotEvent X} (he : e.IsOther) :
    OtherStep workers base proxyProtocolEnabled s
        (slotServe workers base proxyProtocolEnabled s e) e ∧
      (slotServe workers base proxyProtocolEnabled s e).started = s.started := by
  cases e with
  | read i d => exact he.elim
  | parse i => exact he.elim
  | alarm i => exact he.elim
  | dcClose i ready => exact he.elim
  | close i => exact he.elim
  | register cfg => exact ⟨.calm (.refl _) rfl, rfl⟩
  | start => exact ⟨.calm (.refl _) rfl, rfl⟩
  | tick now preciseNow rest =>
    exact ⟨.calm ⟨rfl, fun _ => ⟨_, _, rfl⟩, le_refl _, rfl⟩ rfl, rfl⟩
  | traffic r received sent =>
    refine ⟨.calm ⟨rfl, fun q => ?_, le_refl _, rfl⟩ rfl, rfl⟩
    by_cases hq : q = r
    · rw [hq]
      exact ⟨received, sent, s.world.table.set_slot_self r _⟩
    · exact ⟨_, _, s.world.table.set_slot_of_ne _ hq⟩
  | accept remote ourPort => exact ⟨.accepted rfl rfl, rfl⟩
  | reload cfgs =>
    exact ⟨.reloaded rfl (tcpRpcsReloadExtSecrets_reloads _ _ cfgs) rfl rfl rfl, rfl⟩
  | sweep timeout =>
    exact ⟨.swept (drainSweepGw_sweeps s.world.table s.world.preciseNow timeout) rfl rfl rfl, rfl⟩

/-- The server behind the end of a client's connection. -/
def SlotServer.closed (s : SlotServer X) (i : ℕ) (c : Conn (SlotWorld X)) : SlotServer X :=
  { s with
    world := clientClose (c.inWorld s.world)
    clients := s.clients.eraseIdx i
    fault := closeFault (c.inWorld s.world) }

/-- What a step of a server that serves and has met no fault is. -/
theorem slotStep_serve {s : SlotServer X} {e : SlotEvent X} (hfault : s.fault.isSome = false)
    (hstarted : s.started = true) :
    slotStep workers base proxyProtocolEnabled s e =
      slotServe workers base proxyProtocolEnabled s e := by
  unfold slotStep
  rw [if_neg (by rw [hfault]; exact Bool.false_ne_true), if_pos hstarted]

theorem slotStep_setup {s : SlotServer X} {e : SlotEvent X} (hfault : s.fault.isSome = false)
    (hstarted : s.started = false) :
    slotStep workers base proxyProtocolEnabled s e = slotSetup s e := by
  unfold slotStep
  rw [if_neg (by rw [hfault]; exact Bool.false_ne_true),
    if_neg (by rw [hstarted]; exact Bool.false_ne_true)]

/-- Behind a fault nothing happens. -/
theorem slotStep_fault {s : SlotServer X} {e : SlotEvent X} (hfault : s.fault.isSome = true) :
    slotStep workers base proxyProtocolEnabled s e = s := by
  unfold slotStep
  rw [if_pos hfault]

/-- **One event, by its kind**: nothing happens, the server does not serve yet, or the event is
about one client's connection, the end of one, or anything else. -/
theorem slotStep_kinds {cond : Conn (SlotWorld X) → Prop} {P : SlotServer X → Prop}
    {s : SlotServer X} {e : SlotEvent X} (hcond : BlockCond workers base cond s e)
    (hsame : s.fault.isSome = true ∨ (∃ i, e = .close i ∧ s.clients[i]? = none) → P s)
    (hclient : e.IsClient → s.started = true → ∀ s', ClientStep workers base cond s s' → P s')
    (hclose : s.fault.isSome = false → s.started = true → ∀ i c, e = .close i →
      s.clients[i]? = some c → P (s.closed i c))
    (hother : e.IsOther → s.started = true → ∀ s', s'.started = true →
      OtherStep workers base proxyProtocolEnabled s s' e → P s')
    (hsetup : s.started = false → P (slotSetup s e)) :
    P (slotStep workers base proxyProtocolEnabled s e) := by
  cases hfault : s.fault.isSome with
  | true =>
    rw [slotStep_fault workers base proxyProtocolEnabled hfault]
    exact hsame (Or.inl hfault)
  | false =>
    cases hstarted : s.started with
    | false =>
      rw [slotStep_setup workers base proxyProtocolEnabled hfault hstarted]
      exact hsetup hstarted
    | true =>
      rw [slotStep_serve workers base proxyProtocolEnabled hfault hstarted]
      rcases e.kinds with he | ⟨i, rfl⟩ | he
      · exact hclient he hstarted _ (slotServe_client workers base proxyProtocolEnabled he hcond)
      · show P (s.atClient i (fun c =>
          { s with world := clientClose c, clients := s.clients.eraseIdx i, fault := closeFault c }))
        cases hi : s.clients[i]? with
        | none =>
          rw [SlotServer.atClient_none hi]
          exact hsame (Or.inr ⟨i, rfl, hi⟩)
        | some c =>
          rw [SlotServer.atClient_some hi]
          exact hclose hfault hstarted i c rfl hi
      · obtain ⟨hstep, hkept⟩ := slotServe_other workers base proxyProtocolEnabled (s := s) he
        exact hother he hstarted _ (hkept.trans hstarted) hstep

/-- **The invariant rule for one event**, by its kind. -/
theorem slotStep_inv {cond : Conn (SlotWorld X) → Prop} {I : SlotServer X → Prop}
    {s : SlotServer X} {e : SlotEvent X} (hI : I s) (hcond : BlockCond workers base cond s e)
    (hclient : s.started = true → ∀ s', ClientStep workers base cond s s' → I s')
    (hclose : s.started = true → ∀ i c, s.clients[i]? = some c → I (s.closed i c))
    (hother : s.started = true → ∀ s', s'.started = true →
      OtherStep workers base proxyProtocolEnabled s s' e → I s')
    (hsetup : s.started = false → I (slotSetup s e)) :
    I (slotStep workers base proxyProtocolEnabled s e) :=
  slotStep_kinds workers base proxyProtocolEnabled hcond (fun _ => hI) (fun _ => hclient)
    (fun _ hstarted i c _ hi => hclose hstarted i c hi) (fun _ => hother) hsetup

/-- A call of the parser that returns, as a step. -/
theorem slotStep_parse {s : SlotServer X} {i : ℕ} {c d : Conn (SlotWorld X)} {res : ℤ}
    (hfault : s.fault = none) (hstarted : s.started = true) (hi : s.clients[i]? = some c)
    (h : clientParseExecute (slotServer workers base) (c.inWorld s.world) = .ok (d, res)) :
    slotStep workers base proxyProtocolEnabled s (.parse i) = s.put i d := by
  have hnone : s.fault.isSome = false := by rw [hfault]; rfl
  rw [slotStep_serve workers base proxyProtocolEnabled hnone hstarted]
  show s.atClient i (fun c => slotParse workers base s i c) = _
  rw [SlotServer.atClient_some hi]
  unfold slotParse
  rw [h]

/-- Where nothing is asked of the blocks, nothing is asked of the events. -/
theorem blockCond_trivial (s : SlotServer X) (e : SlotEvent X) :
    BlockCond workers base (fun _ => True) s e := by
  cases e with
  | parse i =>
    intro c _ _
    exact eachTurn_of_forall (parseTurn_shrinks _) (fun _ _ _ => trivial) _
  | _ => trivial

/-- A server that serves goes on serving. -/
theorem slotStep_started {s : SlotServer X} {e : SlotEvent X} (h : s.started = true) :
    (slotStep workers base proxyProtocolEnabled s e).started = true := by
  refine slotStep_inv workers base proxyProtocolEnabled (I := fun s => s.started = true) h
    (blockCond_trivial workers base s e) ?_ (fun _ _ _ _ => h) (fun _ _ hs _ => hs) ?_
  · rintro - s' (⟨hstarted, -, -⟩ | ⟨-, -, rfl⟩)
    · exact hstarted.trans h
    · exact h
  · intro hnot
    rw [h] at hnot
    exact absurd hnot (by decide)

end Step

end Server
end Teleproto3
