/-
# What a call of the parser does to the table of secrets

Almost all of `parse_execute` counts nothing: `Quiet` says what such code leaves alone, about the
shared world and about the session a connection is in.  The one stage that counts is the
obfuscated2 header; `Accepted` says everything it does where it accepts.

A call is quiet throughout, or it is quiet up to one block that is accepted and quiet behind it
(`clientParseExecute_effect`): after the block the number of packets is never again -3.
-/

import Teleproto3.Server.CipherStart
import Teleproto3.Server.SlotServer

namespace Teleproto3
namespace Server

open Lib

variable {X : Type*}

/-! ### The shared world -/

/-- Nothing is counted, and of the slots only the bytes change. -/
structure Calm (w w' : SlotWorld X) : Prop where
  pinned : w'.table.pinned = w.table.pinned
  slot : ∀ s, ∃ received sent, w'.table.slot s =
    { w.table.slot s with bytesReceived := received, bytesSent := sent }
  active : w.active ≤ w'.active
  counted : w'.counted = w.counted

namespace Calm

variable {w w' w'' : SlotWorld X}

theorem refl (w : SlotWorld X) : Calm w w := ⟨rfl, fun _ => ⟨_, _, rfl⟩, le_refl _, rfl⟩

theorem trans (h : Calm w w') (h' : Calm w' w'') : Calm w w'' where
  pinned := h'.pinned.trans h.pinned
  slot s := by
    obtain ⟨received, sent, hs⟩ := h.slot s
    obtain ⟨received', sent', hs'⟩ := h'.slot s
    refine ⟨received', sent', ?_⟩
    rw [hs', hs]
  active := h.active.trans h'.active
  counted := h'.counted.trans h.counted

/-- The rest of the world is free to change. -/
theorem withRest (w : SlotWorld X) (x : X) : Calm w { w with rest := x } :=
  ⟨rfl, fun _ => ⟨_, _, rfl⟩, le_refl _, rfl⟩

/-- What is kept of a slot. -/
theorem connections (h : Calm w w') (s : ℕ) :
    (w'.table.slot s).connections = (w.table.slot s).connections := by
  obtain ⟨_, _, hs⟩ := h.slot s
  rw [hs]

theorem limit (h : Calm w w') (s : ℕ) : (w'.table.slot s).limit = (w.table.slot s).limit := by
  obtain ⟨_, _, hs⟩ := h.slot s
  rw [hs]

theorem state (h : Calm w w') (s : ℕ) : (w'.table.slot s).state = (w.table.slot s).state := by
  obtain ⟨_, _, hs⟩ := h.slot s
  rw [hs]

theorem key (h : Calm w w') (s : ℕ) : (w'.table.slot s).key = (w.table.slot s).key := by
  obtain ⟨_, _, hs⟩ := h.slot s
  rw [hs]

end Calm

/-! ### Sessions -/

/-- A connection that waits for its obfuscated2 header, or was handed to a decoy, is under no
slot. -/
structure SessionOk (c : Conn (SlotWorld X)) : Prop where
  num_lt : c.rpc.inPacketNum < 2 ^ 31
  waiting : c.rpc.inPacketNum = -3 → c.rpc.extraInt2 = 0
  proxied : c.type = .proxyPass → c.rpc.extraInt2 = 0

/-- **Nothing is counted**: the connection stays under its slot, in the type it has or with a
decoy, and does not wait for its header again. -/
structure Quiet (c d : Conn (SlotWorld X)) : Prop where
  world : Calm c.world d.world
  log : c.log <+: d.log
  type : d.type = c.type ∨ d.type = .proxyPass
  ok : SessionOk c → SessionOk d
  sid : SessionOk c → d.rpc.extraInt2 = c.rpc.extraInt2
  num : SessionOk c → d.rpc.inPacketNum = -3 → c.rpc.inPacketNum = -3

namespace Quiet

variable {a b c d : Conn (SlotWorld X)}

theorem trans (h : Quiet a b) (h' : Quiet b c) : Quiet a c where
  world := h.world.trans h'.world
  log := h.log.trans h'.log
  type := by
    rcases h'.type with heq | hproxy
    · rw [heq]
      exact h.type
    · exact Or.inr hproxy
  ok ha := h'.ok (h.ok ha)
  sid ha := (h'.sid (h.ok ha)).trans (h.sid ha)
  num ha hc := h.num ha (h'.num (h.ok ha) hc)

/-- What changes neither the session nor the table. -/
theorem of_session (hnum : d.rpc.inPacketNum = c.rpc.inPacketNum)
    (hsid : d.rpc.extraInt2 = c.rpc.extraInt2) (htype : d.type = c.type)
    (hworld : Calm c.world d.world) (hlog : c.log <+: d.log) : Quiet c d where
  world := hworld
  log := hlog
  type := Or.inl htype
  ok hc := ⟨hnum ▸ hc.num_lt, fun h => hsid.trans (hc.waiting (hnum ▸ h)),
    fun h => hsid.trans (hc.proxied (htype ▸ h))⟩
  sid _ := hsid
  num _ h := hnum ▸ h

theorem of_rpc (hrpc : d.rpc = c.rpc) (htype : d.type = c.type) (hworld : Calm c.world d.world)
    (hlog : c.log <+: d.log) : Quiet c d :=
  of_session (congrArg RpcData.inPacketNum hrpc) (congrArg RpcData.extraInt2 hrpc) htype hworld hlog

theorem of_same (hrpc : d.rpc = c.rpc) (htype : d.type = c.type) (hworld : d.world = c.world)
    (hlog : d.log = c.log) : Quiet c d :=
  of_rpc hrpc htype (hworld ▸ Calm.refl _) (hlog ▸ List.prefix_refl _)

theorem refl (c : Conn (SlotWorld X)) : Quiet c c := of_same rfl rfl rfl rfl

theorem failConnection (h : Quiet a b) (err : ℤ) : Quiet a (failConnection b err) :=
  h.trans (of_same rfl rfl rfl rfl)

theorem record (c : Conn (SlotWorld X)) (e : StageEvent) : Quiet c (c.record e) :=
  of_rpc rfl rfl (Calm.refl _) (List.prefix_append _ _)

end Quiet

/-- A stage that is passed with the session as it is, and left quietly. -/
def Passes (c : Conn (SlotWorld X)) (x : Except (ParseExit (SlotWorld X)) (Conn (SlotWorld X))) :
    Prop :=
  Ends (fun d => Quiet c d ∧ d.rpc = c.rpc ∧ d.type = c.type) (ExitFrame Quiet c) x

namespace Passes

variable {b c d : Conn (SlotWorld X)}
  {x : Except (ParseExit (SlotWorld X)) (Conn (SlotWorld X))} {f : Stage (SlotWorld X)}

theorem ok (h : Quiet c d) (hrpc : d.rpc = c.rpc) (htype : d.type = c.type) :
    Passes c (.ok d) := ⟨h, hrpc, htype⟩

theorem refl (c : Conn (SlotWorld X)) : Passes c (.ok c) := ⟨.refl c, rfl, rfl⟩

theorem ret {res : ℤ} (h : Quiet c d) : Passes c (.error (.ret d res)) := h

theorem abort {a : Abort} : Passes c (.error (.abort a)) := trivial

theorem passed (h : Passes c x) (hx : x = .ok d) :
    Quiet c d ∧ d.rpc = c.rpc ∧ d.type = c.type := by
  rw [hx] at h
  exact h

theorem left {exit : ParseExit (SlotWorld X)} (h : Passes c x) (hx : x = .error exit) :
    ExitFrame Quiet c exit := by
  rw [hx] at h
  exact h

/-- A stage that begins where code has got to that left the session as it is. -/
theorem after (h : Quiet b c) (hrpc : c.rpc = b.rpc) (htype : c.type = b.type) (hx : Passes c x) :
    Passes b x := by
  refine Ends.mono hx ?_ ?_
  · rintro e ⟨he, hrpc', htype'⟩
    exact ⟨h.trans he, hrpc'.trans hrpc, htype'.trans htype⟩
  · rintro (⟨e, res⟩ | _) he
    · exact h.trans he
    · trivial

theorem bind (hx : Passes c x) (hf : ∀ d, d.rpc = c.rpc → Passes d (f d)) :
    Passes c (x.bind f) := by
  refine Ends.bind hx ?_
  rintro d ⟨hd, hrpc, htype⟩
  exact after hd hrpc htype (hf d hrpc)

end Passes

/-! ### The stages before the block -/

section Stages

variable (workers : ℕ) (base : ExtServerEnv X)

theorem needInput_passes (c : Conn (SlotWorld X)) : Passes c (needInput c) := by
  unfold needInput
  split_ifs
  · exact .ret (.refl c)
  · exact .refl c

theorem transitionUnwrap_passes (c : Conn (SlotWorld X)) : Passes c (transitionUnwrap c) := by
  unfold transitionUnwrap
  by_cases hframed : c.inp.length > 0 ∧ c.transportMode = .httpStream
  · rw [if_pos hframed]
    generalize unwrapLoop transitionChunkHeader
      ⟨c.inp, [], T3_PRECRYPTO_BYTES, c.httpChunkRemaining, c.httpChunkHeaderState⟩ = r
    obtain ⟨u, failure⟩ := r
    cases failure with
    | none => exact .ok (.of_same rfl rfl rfl rfl) rfl rfl
    | some err => exact .ret (.of_same rfl rfl rfl rfl)
  · rw [if_neg hframed]
    exact .refl c

theorem httpStreamRequest_passes (c : Conn (SlotWorld X)) : Passes c (httpStreamRequest c) := by
  unfold httpStreamRequest
  cases findSub headersEnd (peekBuf c.inp) with
  | none =>
    dsimp only
    split_ifs
    · exact .ret ((Quiet.refl c).failConnection _)
    · exact .ret (.refl c)
  | some headersLen =>
    exact .after (c := enterHttpStream c (peekBuf c.inp) headersLen) (.of_same rfl rfl rfl rfl)
      rfl rfl (.bind (transitionUnwrap_passes _) fun d _ => needInput_passes d)

theorem wsHandshake_passes (acceptKey : Bytes → Option Bytes) (c : Conn (SlotWorld X)) :
    Passes c (wsHandshake acceptKey c) := by
  unfold wsHandshake
  cases wsParseUpgradeRequest c.inp with
  | needMore => exact .ret (.refl c)
  | refused => exact .ok (.of_same rfl rfl rfl rfl) rfl rfl
  | upgrade wsKey =>
    dsimp only
    cases acceptKey wsKey with
    | none => exact .ret ((Quiet.refl c).failConnection _)
    | some accept =>
      exact .after (c := enterWs c accept) (.of_same rfl rfl rfl rfl) rfl rfl (needInput_passes _)

theorem detect_passes (acceptKey : Bytes → Option Bytes) (c : Conn (SlotWorld X)) :
    Passes c (detect acceptKey c) := by
  unfold detect
  by_cases hws : c.wsState = .handshake
  · rw [if_pos hws]
    refine .bind ?_ fun d _ => ?_
    · split_ifs
      · exact httpStreamRequest_passes c
      · exact .refl c
    · split_ifs
      · exact wsHandshake_passes acceptKey d
      · exact .refl d
  · rw [if_neg hws]
    exact .refl c

theorem wsPreCrypto_passes (c : Conn (SlotWorld X)) : Passes c (wsPreCrypto c) := by
  unfold wsPreCrypto
  cases wsUnwrapLoop ⟨⟨c.inp, c.wsFrameRemaining, c.wsMask, c.wsMaskOffset⟩, []⟩ with
  | error a => exact .abort
  | ok p =>
    obtain ⟨u, alive⟩ := p
    cases alive with
    | false => exact .ret (.of_same rfl rfl rfl rfl)
    | true => exact .ok (.of_same rfl rfl rfl rfl) rfl rfl

theorem dispatchHook_passes (c : Conn (SlotWorld X)) :
    Passes c (dispatchHook (slotServer workers base) c) := by
  have hdrop (d : Conn (SlotWorld X)) :
      Quiet d (type3Drop (slotServer workers base).toDispatchEnv d) :=
    .of_rpc rfl rfl (Calm.withRest _ _) (List.prefix_refl _)
  have hskip (e : StageEvent) : Quiet c ((c.record e).skipData 4) :=
    (Quiet.record c e).trans (.of_same rfl rfl rfl rfl)
  unfold dispatchHook
  rcases type3DispatchOnCryptoInit_cases (slotServer workers base).toDispatchEnv c with
    ⟨-, heq⟩ | ⟨-, -, heq⟩ | ⟨-, -, ⟨r, -, heq⟩ | ⟨-, heq⟩ | ⟨-, heq⟩⟩
  · rw [heq]
    exact .ret (hdrop c)
  · rw [heq]
    exact .refl c
  · rw [heq]
    exact .ret ((Quiet.record c _).trans (hdrop _))
  · rw [heq]
    exact .ret (hskip _)
  · rw [heq]
    exact .ok (hskip _) rfl rfl

theorem preCrypto_passes (c : Conn (SlotWorld X)) :
    Passes c (preCrypto (slotServer workers base) c) := by
  unfold preCrypto
  split_ifs
  · exact .bind (.bind (wsPreCrypto_passes c) fun d _ => needInput_passes d)
      fun d _ => dispatchHook_passes workers base d
  · exact .bind (needInput_passes c) fun d _ => dispatchHook_passes workers base d
  · exact .refl c

theorem parseFlags_passes (c : Conn (SlotWorld X)) : Passes c (parseFlags c) := by
  unfold parseFlags
  dsimp only
  split_ifs
  · exact .ret (.of_same rfl rfl rfl rfl)
  · exact .ret (.of_same rfl rfl rfl rfl)
  · exact .ok (.of_same rfl rfl rfl rfl) rfl rfl
  · exact .ok (.of_same rfl rfl rfl rfl) rfl rfl

theorem parseLength_passes (c : Conn (SlotWorld X)) : Passes c (parseLength c) := by
  unfold parseLength
  split_ifs
  · exact .ret (.refl c)
  · exact .ret (.refl c)
  · exact .abort
  · exact .refl c

theorem proxyHeader_passes (c : Conn (SlotWorld X)) :
    Passes c (proxyHeader (slotServer workers base) c) := by
  unfold proxyHeader
  by_cases hproxy : c.cProxyProtocol = true
  · rw [if_pos hproxy]
    cases (slotServer workers base).proxyProtocolParse c.inp with
    | needMore => exact .ret (.refl c)
    | malformed => exact .ret ((Quiet.refl c).failConnection _)
    | header consumed addr =>
      have hdrop : Quiet c
          { (c.record (.proxyHeader (c.inp.take consumed))).skipData consumed with
            cProxyProtocol := false
            remote := addr.getD c.remote } :=
        (Quiet.record c _).trans (.of_same rfl rfl rfl rfl)
      dsimp only
      split_ifs
      · exact .ret (hdrop.failConnection _)
      · exact .after hdrop rfl rfl (parseLength_passes _)
  · rw [if_neg hproxy]
    exact .refl c

theorem firstTlsPacket_passes (c : Conn (SlotWorld X)) : Passes c (firstTlsPacket c) := by
  unfold firstTlsPacket
  split_ifs
  · exact .ret (.refl c)
  · exact .ret ((Quiet.refl c).failConnection _)
  · dsimp only
    split_ifs
    · exact .ret (.refl c)
    · exact .ret (.of_same rfl rfl rfl rfl)
    · exact .ok (.of_same rfl rfl rfl rfl) rfl rfl

/-- A connection that still waits for its header goes to a decoy without a count. -/
theorem proxyConnection_quiet (c : Conn (SlotWorld X)) (info : DomainInfo)
    (hnum : c.rpc.inPacketNum = -3) :
    Quiet c (proxyConnection (slotServer workers base).toOutboundEnv c info) := by
  have hsession {d : Conn (SlotWorld X)} (hworld : Calm c.world d.world) (hlog : c.log = d.log)
      (htype : d.type = c.type ∨ d.type = .proxyPass)
      (hrpc : d.rpc = { c.rpc with extraInt2 := 0 }) : Quiet c d := by
    refine ⟨hworld, hlog ▸ List.prefix_refl _, htype, fun hc => ⟨?_, ?_, ?_⟩, fun hc => ?_, ?_⟩
    · rw [hrpc]
      exact hc.num_lt
    · rw [hrpc]
      exact fun _ => rfl
    · rw [hrpc]
      exact fun _ => rfl
    · rw [hrpc, hc.waiting hnum]
    · exact fun _ _ => hnum
  have hpass (d : Conn (SlotWorld X)) : Quiet d (tcpProxyPassParseExecute d) := by
    unfold tcpProxyPassParseExecute
    cases d.extra <;> exact .of_same rfl rfl rfl rfl
  unfold proxyConnection
  dsimp only
  split_ifs
  · exact hsession (Calm.refl _) rfl (Or.inl rfl) rfl
  · exact hsession (Calm.withRest _ _) rfl (Or.inl rfl) rfl
  · exact hsession ((Calm.withRest _ _).trans (Calm.withRest _ _)) rfl (Or.inl rfl) rfl
  · refine Quiet.trans ?_ (hpass _)
    exact hsession ((Calm.withRest _ _).trans (Calm.withRest _ _)) rfl (Or.inr rfl) rfl

/-- So does one whose ClientHello is turned down. -/
theorem clientHello_quiet (dflt : DomainInfo) (c : Conn (SlotWorld X))
    (hnum : c.rpc.inPacketNum = -3) :
    ExitFrame Quiet c (clientHello (slotServer workers base) dflt c) := by
  have hhello (e : StageEvent) (x : X) :
      Quiet c { c.record e with world := { c.world with rest := x } } :=
    (Quiet.record c e).trans (.of_rpc rfl rfl (Calm.withRest _ _) (List.prefix_refl _))
  have hdecoy (d : Conn (SlotWorld X)) (info : DomainInfo) (h : Quiet c d)
      (hd : d.rpc.inPacketNum = -3) :
      ExitFrame Quiet c (returnTlsError (slotServer workers base) d info) :=
    h.trans (proxyConnection_quiet workers base d info hd)
  unfold clientHello
  dsimp only
  split_ifs
  · exact Quiet.refl c
  · generalize (slotServer workers base).getSniDomainInfo (c.inp.take 4096) = sni
    cases sni with
    | none => exact hdecoy _ dflt (Quiet.record c _) hnum
    | some info =>
      dsimp only
      have hcheck : ∃ x, (checkHello (slotServer workers base)
          (c.record (.clientHello (c.inp.take 4096))) (c.inp.take 4096)
          (5 + beValue ((c.inp.drop 3).take 2))).2 = { c.world with rest := x } := by
        unfold checkHello
        dsimp only
        split_ifs
        · exact ⟨_, rfl⟩
        · split
          · exact ⟨_, rfl⟩
          · split_ifs
            · exact ⟨_, rfl⟩
            · exact ⟨_, rfl⟩
            · exact ⟨_, rfl⟩
      generalize checkHello (slotServer workers base)
        (c.record (.clientHello (c.inp.take 4096))) (c.inp.take 4096)
        (5 + beValue ((c.inp.drop 3).take 2)) = r at hcheck
      obtain ⟨checked, world⟩ := r
      obtain ⟨x, hx⟩ := hcheck
      have hworld : world = { c.world with rest := x } := hx
      subst hworld
      cases checked with
      | none => exact hdecoy _ info (hhello _ x) hnum
      | some found =>
        exact Quiet.trans (hhello _ x) (.of_rpc rfl rfl (Calm.withRest _ _) (List.prefix_refl _))

theorem fakeTls_passes (c : Conn (SlotWorld X)) (hnum : c.rpc.inPacketNum = -3) :
    Passes c (fakeTls (slotServer workers base) c) := by
  unfold fakeTls
  by_cases htls : c.cIsTls = true
  · rw [if_pos htls]
    exact firstTlsPacket_passes c
  · rw [if_neg htls]
    cases (slotServer workers base).defaultDomainInfo with
    | none => exact .refl c
    | some dflt =>
      dsimp only
      split_ifs
      · exact clientHello_quiet workers base dflt c hnum
      · exact .ret (proxyConnection_quiet workers base c dflt hnum)
      · exact .refl c

/-! ### The block -/

/-- The world after a connection was counted under a slot that is one. -/
def countedWorld (w : SlotWorld X) (s : ℕ) (remote : RemoteAddr) : SlotWorld X :=
  if s < EXT_SECRET_MAX_SLOTS then (slotServer workers base).countConnection w s remote else w

/-- What `obfs2_parse_header` makes of the block at the front of `in`. -/
def openBlock (c : Conn (SlotWorld X)) : Option Obfs2ParseResult :=
  obfs2ParseHeader base.prim (c.inp.take 64)
    ((slotsInUse c.world.table.secrets).map Prod.snd) base.extRandPadOnly

/-- The slot a match of `obfs2_parse_header` stands for. -/
def matchedSlot (c : Conn (SlotWorld X)) (pr : Obfs2ParseResult) : ℕ :=
  ((slotsInUse c.world.table.secrets).map Prod.fst).getD pr.secretId base.staleSlot

/-- **What the stage of the block does where it accepts.** -/
structure Accepted (c d : Conn (SlotWorld X)) (pr : Obfs2ParseResult) : Prop where
  opened : openBlock base c = some pr
  checked : matchedSlot base c pr < EXT_SECRET_MAX_SLOTS → c.cIsTls = false →
    (c.world.table.slot (matchedSlot base c pr)).Admissible workers c.world.now c.remote
  world : Calm (countedWorld workers base c.world (matchedSlot base c pr) c.remote) d.world
  /-- a client of a data centre, whose connection was opened at once -/
  direct : d.IsDirect → (base.directTryDcAddrs c.world.rest pr.dc).1.isSome →
    c.world.active + 1 ≤ d.world.active
  tried : d.IsDirect → base.directMode = true ∧ base.directDcKnown c.world.rest pr.dc = true
  sid : d.rpc.extraInt2 = matchedSlot base c pr + 1
  num : d.rpc.inPacketNum = 0
  type : d.type ≠ .proxyPass
  remote : d.remote = c.remote
  log : c.log <+: d.log
  header : .obfs2Header (c.inp.take 64) ∈ d.log
  keys : .cryptoInit pr.keys ∈ d.log

/-- A connection of the external server, before it goes anywhere else. -/
def Conn.IsExt {W : Type*} (c : Conn W) : Prop :=
  c.type = .rpcExtServer ∨ c.type = .rpcExtServerDrs

theorem Accepted.ok {c d : Conn (SlotWorld X)} {pr : Obfs2ParseResult}
    (h : Accepted workers base c d pr) : SessionOk d :=
  ⟨by rw [h.num]; decide, fun hnum => absurd (h.num.symm.trans hnum) (by decide),
    fun htype => absurd htype h.type⟩

theorem Conn.IsExt.not_direct {W : Type*} {c : Conn W} (h : c.IsExt) : ¬ c.IsDirect := by
  rintro (hdirect | hdirect)
  all_goals
    rcases h with h | h
    all_goals
      rw [h] at hdirect
      exact nomatch hdirect

theorem Conn.IsExt.not_proxied {W : Type*} {c : Conn W} (h : c.IsExt) : c.type ≠ .proxyPass := by
  rcases h with h | h
  all_goals
    rw [h]
    exact ConnType.noConfusion

@[simp] theorem countedWorld_rest (w : SlotWorld X) (s : ℕ) (remote : RemoteAddr) :
    (countedWorld workers base w s remote).rest = w.rest := by
  unfold countedWorld
  split_ifs <;> rfl

@[simp] theorem countedWorld_active (w : SlotWorld X) (s : ℕ) (remote : RemoteAddr) :
    (countedWorld workers base w s remote).active = w.active := by
  unfold countedWorld
  split_ifs <;> rfl

variable {workers base}

/-- A connection to a data centre is opened for an accepted client, or not. -/
theorem Accepted.connect {c d : Conn (SlotWorld X)} {pr : Obfs2ParseResult}
    (h : Accepted workers base c d pr) (hext : d.IsExt) (hdc : d.rpc.extraInt4 = pr.dc)
    (hworld : d.world = countedWorld workers base c.world (matchedSlot base c pr) c.remote)
    (hmode : base.directMode = true) :
    Accepted workers base c (directConnectToDc (slotServer workers base).toOutboundEnv d) pr := by
  have hrest : d.world.rest = c.world.rest := by rw [hworld, countedWorld_rest]
  have hactive : d.world.active = c.world.active := by rw [hworld, countedWorld_active]
  unfold directConnectToDc
  by_cases hknown : (slotServer workers base).directDcKnown d.world d.rpc.extraInt4 = false
  · rw [if_pos hknown]
    exact
      { h with
        direct := fun hdirect => absurd hdirect hext.not_direct
        tried := fun hdirect => absurd hdirect hext.not_direct }
  rw [if_neg hknown]
  have hfound : base.directDcKnown c.world.rest pr.dc = true := by
    rw [← hrest, ← hdc]
    exact Bool.eq_true_of_not_eq_false hknown
  have htype : directClientType d ≠ .proxyPass := by
    unfold directClientType
    split_ifs <;> exact ConnType.noConfusion
  have htry : (slotServer workers base).directTryDcAddrs d.world d.rpc.extraInt4 =
      ((base.directTryDcAddrs c.world.rest pr.dc).1,
        { d.world with
          rest := (base.directTryDcAddrs c.world.rest pr.dc).2
          active := if (base.directTryDcAddrs c.world.rest pr.dc).1.isSome then
            d.world.active + 1 else d.world.active }) := by
    rw [← hrest, ← hdc]
    rfl
  dsimp only
  rw [htry]
  rcases htried : base.directTryDcAddrs c.world.rest pr.dc with ⟨e, x⟩
  cases e with
  | none =>
    have hretry : directScheduleRetry (slotServer workers base).toOutboundEnv
        { d with
          type := directClientType d
          world := { d.world with rest := x } } 0 =
        { d with
          type := directClientType d
          world := { d.world with rest := x }
          rpc := { d.rpc with extraInt := 1 }
          timer := some (d.world.preciseNow + DIRECT_RETRY_BASE_SEC * 2 ^ 0) } :=
      if_neg (by decide)
    show Accepted workers base c (directScheduleRetry _ { d with
      type := directClientType d
      world := { d.world with rest := x } } 0) pr
    rw [hretry]
    exact
      { h with
        world := h.world.trans (Calm.withRest _ x)
        direct := fun _ hsome => by
          rw [htried] at hsome
          exact absurd hsome Bool.false_ne_true
        tried := fun _ => ⟨hmode, hfound⟩
        type := htype }
  | some e =>
    exact
      { h with
        world := h.world.trans ⟨rfl, fun _ => ⟨_, _, rfl⟩, by
          show d.world.active ≤ d.world.active + 1
          omega, rfl⟩
        direct := fun _ _ => by
          show c.world.active + 1 ≤ d.world.active + 1
          omega
        tried := fun _ => ⟨hmode, hfound⟩
        type := htype }

/-- Accepted in this turn, or left quietly. -/
def BlockExit (workers : ℕ) (base : ExtServerEnv X) (c : Conn (SlotWorld X))
    (pr : Obfs2ParseResult) : ParseExit (SlotWorld X) → Prop
  | .ret d _ => Quiet c d ∨ Accepted workers base c d pr
  | .abort _ => True

/-- A connection whose block a secret has opened, with its first bytes decrypted. -/
structure Deciphered (c d : Conn (SlotWorld X)) (pr : Obfs2ParseResult) : Prop where
  rpc : d.rpc = { c.rpc with inPacketNum := 0, flags := tagFlags c.rpc.flags pr.tag }
  log : d.log = c.log ++ [.obfs2Header (c.inp.take 64)] ++ [.cryptoInit pr.keys]
  type : d.type = c.type
  world : d.world = c.world
  cIsTls : d.cIsTls = c.cIsTls
  remote : d.remote = c.remote

theorem deciphered_of_decrypt {c d : Conn (SlotWorld X)} {pr : Obfs2ParseResult} {r : ℤ}
    (h : cpuTcpAesCryptoCtr128DecryptInput (startCrypto (slotServer workers base)
      (c.record (.obfs2Header (c.inp.take 64))) pr) = .ok (d, r)) : Deciphered c d pr := by
  have hframe := (cpuTcpAesCryptoCtr128DecryptInput_frame h).rest
  constructor
  all_goals
    rw [hframe]
    rfl

section Deciphered

variable {c d : Conn (SlotWorld X)} {pr : Obfs2ParseResult}

theorem Deciphered.inPacketNum (h : Deciphered c d pr) : d.rpc.inPacketNum = 0 := by rw [h.rpc]

theorem Deciphered.log_prefix (h : Deciphered c d pr) : c.log <+: d.log := by
  rw [h.log, List.append_assoc]
  exact List.prefix_append _ _

/-- What leaves without a count has number 0 and is under no slot. -/
theorem Deciphered.quiet {e : Conn (SlotWorld X)} (h : Deciphered c d pr)
    (hnum : c.rpc.inPacketNum = -3) (hworld : e.world = d.world) (hlog : e.log = d.log)
    (htype : e.type = d.type) (hzero : e.rpc.inPacketNum = 0)
    (hslot : e.rpc.extraInt2 = c.rpc.extraInt2 ∨ e.rpc.extraInt2 = 0) : Quiet c e := by
  have hnone (hc : SessionOk c) : e.rpc.extraInt2 = 0 := by
    rcases hslot with hslot | hslot
    · rw [hslot, hc.waiting hnum]
    · exact hslot
  refine ⟨?_, hlog ▸ h.log_prefix, Or.inl (htype.trans h.type), fun hc => ⟨?_, fun _ => hnone hc,
    fun _ => hnone hc⟩, fun hc => ?_, fun _ _ => hnum⟩
  · rw [hworld, h.world]
    exact .refl _
  · rw [hzero]
    decide
  · rw [hnone hc, hc.waiting hnum]

/-- What has been counted is accepted. -/
theorem Deciphered.accepted (h : Deciphered c d pr) (hopened : openBlock base c = some pr)
    (hext : c.IsExt)
    (hchecked : matchedSlot base c pr < EXT_SECRET_MAX_SLOTS → c.cIsTls = false →
      (c.world.table.slot (matchedSlot base c pr)).Admissible workers c.world.now c.remote)
    {session : Conn (SlotWorld X)}
    (hsession : countSession (slotServer workers base) (setTarget d pr (matchedSlot base c pr))
      (matchedSlot base c pr) = session) :
    Accepted workers base c session pr ∧ session.IsExt ∧
      session.world = countedWorld workers base c.world (matchedSlot base c pr) c.remote ∧
      session.rpc.extraInt4 = pr.dc := by
  have hworld : session.world =
      countedWorld workers base c.world (matchedSlot base c pr) c.remote := by
    rw [← h.world, ← h.remote, ← hsession]
    rfl
  have htype : session.IsExt := by
    rw [← hsession]
    unfold Conn.IsExt countSession
    dsimp only
    split_ifs
    · exact Or.inr rfl
    · show d.type = _ ∨ d.type = _
      rw [h.type]
      exact hext
  have hrpc : session.rpc.inPacketNum = d.rpc.inPacketNum ∧
      session.rpc.extraInt2 = matchedSlot base c pr + 1 ∧ session.rpc.extraInt4 = pr.dc := by
    rw [← hsession]
    exact ⟨rfl, rfl, rfl⟩
  have hkept : session.log = d.log ∧ session.remote = d.remote := by
    rw [← hsession]
    exact ⟨rfl, rfl⟩
  refine ⟨?_, htype, hworld, hrpc.2.2⟩
  exact
    { opened := hopened
      checked := hchecked
      world := by
        rw [hworld]
        exact .refl _
      direct := fun hdirect => absurd hdirect htype.not_direct
      tried := fun hdirect => absurd hdirect htype.not_direct
      sid := hrpc.2.1
      num := hrpc.1.trans h.inPacketNum
      type := htype.not_proxied
      remote := hkept.2.trans h.remote
      log := hkept.1 ▸ h.log_prefix
      header := by simp [hkept.1, h.log]
      keys := by simp [hkept.1, h.log] }

/-- A connection that is admitted is counted, and goes to its data centre in direct mode. -/
theorem Deciphered.enter (h : Deciphered c d pr) (hopened : openBlock base c = some pr)
    (hext : c.IsExt)
    (hchecked : matchedSlot base c pr < EXT_SECRET_MAX_SLOTS → c.cIsTls = false →
      (c.world.table.slot (matchedSlot base c pr)).Admissible workers c.world.now c.remote) :
    Ends (fun d => Accepted workers base c d pr ∧ d.IsExt) (BlockExit workers base c pr)
      (enterSession (slotServer workers base) (matchedSlot base c pr)
        (setTarget d pr (matchedSlot base c pr))) := by
  unfold enterSession
  generalize hsession : countSession (slotServer workers base)
    (setTarget d pr (matchedSlot base c pr)) (matchedSlot base c pr) = session
  obtain ⟨haccepted, htype, hworld, hdc⟩ := h.accepted hopened hext hchecked hsession
  by_cases hmode : (slotServer workers base).directMode = true
  · rw [if_pos hmode]
    exact Or.inr (haccepted.connect htype hdc hworld hmode)
  · rw [if_neg hmode]
    exact ⟨haccepted, htype⟩

/-- The checks of the slot. -/
theorem Deciphered.admit (h : Deciphered c d pr) (hopened : openBlock base c = some pr)
    (hext : c.IsExt) (hnum : c.rpc.inPacketNum = -3) :
    Ends (fun d => Accepted workers base c d pr ∧ d.IsExt) (BlockExit workers base c pr)
      ((admitSlot (slotServer workers base) (matchedSlot base c pr)
        (setTarget d pr (matchedSlot base c pr))).bind
          (enterSession (slotServer workers base) (matchedSlot base c pr))) := by
  unfold admitSlot
  by_cases hskip : (setTarget d pr (matchedSlot base c pr)).cIsTls ∨
      EXT_SECRET_MAX_SLOTS ≤ matchedSlot base c pr
  · rw [if_pos hskip]
    refine h.enter hopened hext fun hslot hplain => ?_
    rcases hskip with hskip | hskip
    · have htls : c.cIsTls = true := h.cIsTls ▸ hskip
      rw [hplain] at htls
      exact absurd htls Bool.false_ne_true
    · omega
  rw [if_neg hskip]
  have hadmits : (slotServer workers base).admits (setTarget d pr (matchedSlot base c pr)).world
      (matchedSlot base c pr) (setTarget d pr (matchedSlot base c pr)).remote =
      (decide ((c.world.table.slot (matchedSlot base c pr)).Admissible workers c.world.now
        c.remote), d.world) := by
    rw [← h.world, ← h.remote]
    rfl
  rw [hadmits]
  by_cases hadmissible : (c.world.table.slot (matchedSlot base c pr)).Admissible workers
      c.world.now c.remote
  · rw [decide_eq_true hadmissible]
    exact h.enter hopened hext fun _ _ => hadmissible
  · rw [decide_eq_false hadmissible]
    exact Or.inl (h.quiet hnum rfl rfl rfl h.inPacketNum (Or.inr rfl))

end Deciphered

/-- A block that a secret opens. -/
theorem acceptObfs2_effect {c : Conn (SlotWorld X)} {pr : Obfs2ParseResult}
    (hopened : openBlock base c = some pr) (hext : c.IsExt) (hnum : c.rpc.inPacketNum = -3) :
    Ends (fun d => Accepted workers base c d pr ∧ d.IsExt) (BlockExit workers base c pr)
      (acceptObfs2 (slotServer workers base) pr (matchedSlot base c pr)
        (c.record (.obfs2Header (c.inp.take 64)))) := by
  unfold acceptObfs2
  cases hdec : cpuTcpAesCryptoCtr128DecryptInput (startCrypto (slotServer workers base)
    (c.record (.obfs2Header (c.inp.take 64))) pr) with
  | error a => trivial
  | ok p =>
    obtain ⟨d, r⟩ := p
    have hd := deciphered_of_decrypt hdec
    dsimp only
    by_cases hr : r < 0
    · rw [if_pos hr]
      refine Or.inl (hd.quiet (e := failConnection d (-1)) hnum rfl rfl rfl hd.inPacketNum
        (Or.inl ?_))
      show d.rpc.extraInt2 = c.rpc.extraInt2
      rw [hd.rpc]
    · rw [if_neg hr]
      exact hd.admit hopened hext hnum

variable (workers base) in
/-- **The stage of the block** counts a connection it accepts and no other. -/
theorem obfs2Header_effect {c : Conn (SlotWorld X)} (hext : c.IsExt)
    (hnum : c.rpc.inPacketNum = -3) :
    Ends (fun d => ∃ pr, Accepted workers base c d pr ∧ d.IsExt)
      (fun exit => ExitFrame Quiet c exit ∨ ∃ pr, BlockExit workers base c pr exit)
      (obfs2Header (slotServer workers base) c) := by
  unfold obfs2Header
  by_cases hshort : c.inp.length < 64
  · rw [if_pos hshort]
    exact Or.inl (Quiet.refl c)
  rw [if_neg hshort]
  have haccept {pr : Obfs2ParseResult} (hopened : openBlock base c = some pr) :
      Ends (fun d => ∃ pr, Accepted workers base c d pr ∧ d.IsExt)
        (fun exit => ExitFrame Quiet c exit ∨ ∃ pr, BlockExit workers base c pr exit)
        (acceptObfs2 (slotServer workers base) pr (matchedSlot base c pr)
          (c.record (.obfs2Header (c.inp.take 64)))) :=
    (acceptObfs2_effect hopened hext hnum).mono (fun d hd => ⟨pr, hd⟩)
      fun exit hexit => Or.inr ⟨pr, hexit⟩
  have hopen : obfs2ParseHeader (slotServer workers base).prim (c.inp.take 64)
      ((slotsInUse ((slotServer workers base).secrets c.world)).map Prod.snd)
      (slotServer workers base).extRandPadOnly = openBlock base c := rfl
  dsimp only
  cases hopened : openBlock base c with
  | none =>
    rw [hopened] at hopen
    rw [hopen]
    refine Or.inl ((Quiet.record c (.obfs2Header (c.inp.take 64))).trans ?_)
    refine ⟨.refl _, List.prefix_refl _, Or.inl rfl,
      fun hc => ⟨hc.num_lt, fun _ => ?_, fun htype => ?_⟩, fun hc => ?_, fun _ h => h⟩
    · have hzero := hc.waiting hnum
      dsimp only
      split_ifs
      · rfl
      · exact hzero
    · have hzero := hc.proxied htype
      dsimp only
      split_ifs
      · rfl
      · exact hzero
    · have hzero := hc.waiting hnum
      dsimp only
      split_ifs
      · exact hzero.symm
      · rfl
  | some pr =>
    rw [hopened] at hopen
    rw [hopen]
    dsimp only
    cases (slotServer workers base).defaultDomainInfo with
    | none => exact haccept hopened
    | some dflt =>
      dsimp only
      by_cases hws : pr.tag ≠ OBFS2_TAG_PAD ∧
          (c.record (.obfs2Header (c.inp.take 64))).transportMode = .ws
      · rw [if_pos hws]
        refine Or.inl ((Quiet.record c (.obfs2Header (c.inp.take 64))).trans ?_)
        exact proxyConnection_quiet workers base _ dflt hnum
      · rw [if_neg hws]
        exact haccept hopened

/-! ### Packets -/

variable (workers base)

/-- What quiet code has done that keeps the type. -/
def QuietExt (c d : Conn (SlotWorld X)) : Prop := Quiet c d ∧ d.type = c.type

/-- A packet's number, behind the handshake. -/
theorem setInPacketNum_quiet (c : Conn (SlotWorld X)) (n : ℤ) (hlt : n < 2 ^ 31)
    (hn : SessionOk c → n ≠ -3) : QuietExt c (c.setInPacketNum n) :=
  ⟨⟨.refl _, List.prefix_refl _, Or.inl rfl,
    fun hc => ⟨hlt, fun h => absurd h (hn hc), hc.proxied⟩, fun _ => rfl,
    fun hc h => absurd h (hn hc)⟩, rfl⟩

theorem executePacket_quiet (c : Conn (SlotWorld X)) (msg : Bytes) :
    QuietExt c (executePacket (slotServer workers base) c msg) ∧
      (executePacket (slotServer workers base) c msg).rpc = c.rpc := by
  unfold executePacket
  dsimp only
  split_ifs
  · unfold tcpRpcsDefaultExecute
    split_ifs
    · exact ⟨⟨(Quiet.record c _).trans (.of_same rfl rfl rfl rfl), rfl⟩, rfl⟩
    · exact ⟨⟨Quiet.record c _, rfl⟩, rfl⟩
  · unfold extRpcsExecute
    split_ifs
    · exact ⟨⟨Quiet.record c _, rfl⟩, rfl⟩
    · exact ⟨⟨(Quiet.record c _).failConnection _, rfl⟩, rfl⟩
    · exact ⟨⟨(Quiet.record c _).trans (.of_rpc rfl rfl (Calm.withRest _ _) (List.prefix_refl _)),
        rfl⟩, rfl⟩

theorem takePacket_quiet (packetLen packetLenBytes : ℕ) (c : Conn (SlotWorld X))
    (hnum : c.rpc.inPacketNum ≠ -3) :
    Ends (QuietExt c) (ExitFrame Quiet c)
      (takePacket (slotServer workers base) packetLen packetLenBytes c) := by
  unfold takePacket
  by_cases hlen : c.inp.length < packetLenBytes
  · rw [if_pos hlen]
    trivial
  rw [if_neg hlen]
  dsimp only
  by_cases hmsg : (packetMsg c.rpc.flags packetLen
      ((c.inp.drop packetLenBytes).take packetLen)).length < 4
  · rw [if_pos hmsg]
    trivial
  rw [if_neg hmsg]
  by_cases hbad : c.rpc.inPacketNum < 0 ∧ c.rpc.inPacketNum ≠ -3
  · rw [if_pos hbad]
    trivial
  have hpos : ¬ c.rpc.inPacketNum < 0 := fun h => hbad ⟨h, hnum⟩
  rw [if_neg hbad, if_neg hpos]
  have hskip : Quiet c ((c.skipData (packetLenBytes + packetLen)).setInPacketNum
      c.rpc.inPacketNum) := .of_same rfl rfl rfl rfl
  generalize hd : (c.skipData (packetLenBytes + packetLen)).setInPacketNum c.rpc.inPacketNum = d
    at hskip
  have hdnum : d.rpc.inPacketNum = c.rpc.inPacketNum := hd ▸ rfl
  have hdtype : d.type = c.type := hd ▸ rfl
  obtain ⟨⟨hexec, hexecType⟩, hexecRpc⟩ := executePacket_quiet workers base d
    (packetMsg c.rpc.flags packetLen ((c.inp.drop packetLenBytes).take packetLen))
  generalize executePacket (slotServer workers base) d
    (packetMsg c.rpc.flags packetLen ((c.inp.drop packetLenBytes).take packetLen)) = e
    at hexec hexecType hexecRpc
  obtain ⟨hnext, hnextType⟩ := setInPacketNum_quiet e (wrap32 (e.rpc.inPacketNum + 1))
    (wrap32_lt _) fun he => by
      have hlt := he.num_lt
      have hfit : 0 ≤ e.rpc.inPacketNum := by
        rw [hexecRpc, hdnum]
        omega
      rcases wrap32_succ hfit hlt with ⟨h, -⟩ | h <;> omega
  exact ⟨(hskip.trans hexec).trans hnext, hexecType.trans hdtype⟩

theorem parsePacket_quiet (c : Conn (SlotWorld X)) (hnum : c.rpc.inPacketNum ≠ -3) :
    Ends (QuietExt c) (ExitFrame Quiet c) (parsePacket (slotServer workers base) c) := by
  have hquick (b : Bool) : Quiet c (c.setQuickack b) :=
    ⟨.refl _, List.prefix_refl _, Or.inl rfl, fun hc => ⟨hc.num_lt, hc.waiting, hc.proxied⟩,
      fun _ => rfl, fun _ h => h⟩
  unfold parsePacket
  dsimp only
  split_ifs
  · exact (Quiet.refl c).failConnection _
  · cases packetLength (c.setQuickack (packetQuickack c.rpc.flags (readLe32 c.inp))).rpc.flags
      (readLe32 c.inp) with
    | none => exact (hquick _).failConnection _
    | some p =>
      obtain ⟨packetLen, packetLenBytes⟩ := p
      dsimp only
      split_ifs
      · exact (hquick _).failConnection _
      · exact hquick _
      · refine Ends.mono (takePacket_quiet workers base packetLen packetLenBytes _ hnum) ?_ ?_
        · rintro d ⟨hd, htype⟩
          exact ⟨(hquick _).trans hd, htype⟩
        · rintro (⟨d, res⟩ | a) hd
          · exact (hquick _).trans hd
          · trivial

/-! ### A turn, and a call -/

/-- What a turn does to the table: nothing, or it gets to a block and accepts it. -/
inductive TurnEffect (c d : Conn (SlotWorld X)) : Prop
  | quiet (h : Quiet c d)
  | accepted {c1 : Conn (SlotWorld X)} {pr : Obfs2ParseResult} (hnum : c.rpc.inPacketNum = -3)
      (hfront : Quiet c c1) (hreach : ReachesBlock (slotServer workers base) c c1)
      (hblock : Accepted workers base c1 d pr)

/-- How a turn is left. -/
def TurnExit (c : Conn (SlotWorld X)) : ParseExit (SlotWorld X) → Prop
  | .ret d _ => TurnEffect workers base c d
  | .abort _ => True

theorem TurnExit.of_quiet {c : Conn (SlotWorld X)} {exit : ParseExit (SlotWorld X)}
    (h : ExitFrame Quiet c exit) : TurnExit workers base c exit := by
  cases exit with
  | ret d res => exact .quiet h
  | abort a => trivial

/-- An exit behind code that left the session as it is. -/
theorem exitFrame_after {b c : Conn (SlotWorld X)} {exit : ParseExit (SlotWorld X)} (h : Quiet b c)
    (hexit : ExitFrame Quiet c exit) : ExitFrame Quiet b exit := by
  cases exit with
  | ret d res => exact h.trans hexit
  | abort a => trivial

/-- **A turn of the loop** is quiet, or accepts the block it gets to. -/
theorem parseStages_effect {c : Conn (SlotWorld X)} (hext : c.IsExt) :
    Ends (fun d => d.IsExt ∧ TurnEffect workers base c d) (TurnExit workers base c)
      (parseStages (slotServer workers base) c) := by
  unfold parseStages
  have h1 := detect_passes (slotServer workers base).acceptKey c
  cases hdetect : detect (slotServer workers base).acceptKey c with
  | error exit =>
    exact TurnExit.of_quiet workers base (h1.left hdetect)
  | ok c1 =>
    obtain ⟨q1, rpc1, type1⟩ := h1.passed hdetect
    show Ends _ _ ((preCrypto (slotServer workers base) c1).bind _)
    have h2 := preCrypto_passes workers base c1
    cases hpre : preCrypto (slotServer workers base) c1 with
    | error exit =>
      exact TurnExit.of_quiet workers base (exitFrame_after q1 (h2.left hpre))
    | ok c2 =>
      obtain ⟨q2, rpc2, type2⟩ := h2.passed hpre
      show Ends _ _ (parseSession (slotServer workers base) c2)
      unfold parseSession
      have h3 : Passes c2 ((parseFlags c2).bind parseLength) :=
        .bind (parseFlags_passes c2) fun d _ => parseLength_passes d
      cases hflags : (parseFlags c2).bind parseLength with
      | error exit =>
        exact TurnExit.of_quiet workers base
          (exitFrame_after (q1.trans q2) (h3.left hflags))
      | ok c3 =>
        obtain ⟨q3, rpc3, type3⟩ := h3.passed hflags
        have q : Quiet c c3 := (q1.trans q2).trans q3
        have hrpc : c3.rpc = c.rpc := (rpc3.trans rpc2).trans rpc1
        have htype : c3.type = c.type := (type3.trans type2).trans type1
        show Ends _ _ (if c3.rpc.inPacketNum = -3 then handshake (slotServer workers base) c3
          else parsePacket (slotServer workers base) c3)
        by_cases hnum : c3.rpc.inPacketNum = -3
        · rw [if_pos hnum]
          unfold handshake
          have h4 : Passes c3 ((proxyHeader (slotServer workers base) c3).bind
              (fakeTls (slotServer workers base))) :=
            .bind (proxyHeader_passes workers base c3) fun d hd =>
              fakeTls_passes workers base d (hd ▸ hnum)
          cases htls : (proxyHeader (slotServer workers base) c3).bind
              (fakeTls (slotServer workers base)) with
          | error exit =>
            exact TurnExit.of_quiet workers base (exitFrame_after q (h4.left htls))
          | ok c4 =>
            obtain ⟨q4, rpc4, type4⟩ := h4.passed htls
            have hreach : ReachesBlock (slotServer workers base) c c4 :=
              ⟨c1, c2, c3, hdetect, hpre, hflags, hnum, htls⟩
            have hnum0 : c.rpc.inPacketNum = -3 := hrpc ▸ hnum
            have hext4 : c4.IsExt := by
              unfold Conn.IsExt
              rw [type4, htype]
              exact hext
            show Ends _ _ (obfs2Header (slotServer workers base) c4)
            refine (obfs2Header_effect workers base hext4 (rpc4 ▸ hnum)).mono ?_ ?_
            · rintro d ⟨pr, hblock, hd⟩
              exact ⟨hd, .accepted hnum0 (q.trans q4) hreach hblock⟩
            · rintro (⟨d, res⟩ | a) hexit
              · rcases hexit with hquiet | ⟨pr, hquiet | hblock⟩
                · exact .quiet ((q.trans q4).trans hquiet)
                · exact .quiet ((q.trans q4).trans hquiet)
                · exact .accepted hnum0 (q.trans q4) hreach hblock
              · trivial
        · rw [if_neg hnum]
          refine (parsePacket_quiet workers base c3 hnum).mono ?_ ?_
          · rintro d ⟨hd, hdtype⟩
            refine ⟨?_, .quiet (q.trans hd)⟩
            unfold Conn.IsExt
            rw [hdtype, htype]
            exact hext
          · intro exit hexit
            exact TurnExit.of_quiet workers base (exitFrame_after q hexit)

/-- **What a call of `parse_execute` does to the table**: nothing, or one block is accepted, which
a condition on the blocks it gets to holds of. -/
inductive ParseEffect (cond : Conn (SlotWorld X) → Prop) (c d : Conn (SlotWorld X)) : Prop
  | quiet (h : Quiet c d)
  | counted {c1 d1 : Conn (SlotWorld X)} {pr : Obfs2ParseResult}
      (hfresh : SessionOk c → c.rpc.extraInt2 = 0) (hfront : Quiet c c1) (hcond : cond c1)
      (hblock : Accepted workers base c1 d1 pr) (hback : Quiet d1 d)

/-- The condition on the blocks a call gets to. -/
def EachBlock (cond : Conn (SlotWorld X) → Prop) (c : Conn (SlotWorld X)) : Prop :=
  c.IsExt → EachTurn (parseTurn (slotServer workers base))
    (fun c0 => ∀ c1, ReachesBlock (slotServer workers base) c0 c1 → cond c1) c

variable {workers base}

/-- A turn behind other turns. -/
theorem ParseEffect.turn {cond : Conn (SlotWorld X) → Prop} {b c d : Conn (SlotWorld X)}
    (h : ParseEffect workers base cond b c)
    (hcond : ∀ c1, ReachesBlock (slotServer workers base) c c1 → cond c1)
    (hturn : TurnEffect workers base c d) : ParseEffect workers base cond b d := by
  cases hturn with
  | quiet hd =>
    cases h with
    | quiet h => exact .quiet (h.trans hd)
    | counted hfresh hfront hc hblock hback =>
      exact .counted hfresh hfront hc hblock (hback.trans hd)
  | accepted hnum hfront hreach hblock =>
    cases h with
    | quiet h =>
      refine .counted (fun hb => ?_) (h.trans hfront) (hcond _ hreach) hblock (.refl _)
      rw [← h.sid hb]
      exact (h.ok hb).waiting hnum
    | counted _ _ _ hblock' hback =>
      -- Behind a block the number of packets is no longer -3.
      have hzero := hback.num hblock'.ok hnum
      rw [hblock'.num] at hzero
      exact absurd hzero (by decide)

variable (workers base)

theorem tcpRpcsCompactParseExecute_effect {cond : Conn (SlotWorld X) → Prop}
    {c d : Conn (SlotWorld X)} {res : ℤ} (hext : c.IsExt) (hcond : EachBlock workers base cond c)
    (h : tcpRpcsCompactParseExecute (slotServer workers base) c = .ok (d, res)) :
    ParseEffect workers base cond c d := by
  have hloop := loop_inv_of_eachTurn (parseTurn_shrinks (slotServer workers base))
    (I := fun e => e.IsExt ∧ ParseEffect workers base cond c e)
    (Q := fun r => ∀ d res, r = .ok (d, res) → ParseEffect workers base cond c d)
    ?_ ?_ ⟨hext, .quiet (.refl c)⟩ (hcond hext)
  · exact hloop d res h
  · rintro e e' ⟨he, heffect⟩ hblock hturn
    have hstages := parseStages_effect workers base he
    cases hresult : parseStages (slotServer workers base) e with
    | error exit =>
      rw [parseTurn_of_error _ hresult] at hturn
      exact nomatch hturn
    | ok f =>
      obtain ⟨hf, heff⟩ := hstages.ok hresult
      rw [parseTurn_of_ok _ hresult] at hturn
      rw [← Turn.again.inj hturn]
      exact ⟨hf, heffect.turn hblock heff⟩
  · rintro e r ⟨he, heffect⟩ hblock hturn d res rfl
    have hstages := parseStages_effect workers base he
    cases hresult : parseStages (slotServer workers base) e with
    | ok f =>
      rw [parseTurn_of_ok _ hresult] at hturn
      exact nomatch hturn
    | error exit =>
      have hexit := hstages.error hresult
      rw [parseTurn_of_error _ hresult] at hturn
      cases exit with
      | abort a => exact nomatch Turn.done.inj hturn
      | ret f res' =>
        have hf : f = d := (Prod.mk.inj (Except.ok.inj (Turn.done.inj hturn))).1
        exact heffect.turn hblock (hf ▸ hexit)

/-! ### The other methods of a client's types -/

theorem tcpProxyPassParseExecute_quiet (c : Conn (SlotWorld X)) :
    Quiet c (tcpProxyPassParseExecute c) := by
  unfold tcpProxyPassParseExecute
  cases c.extra <;> exact .of_same rfl rfl rfl rfl

/-- Bytes that are relayed are added to those of their slot. -/
theorem accountBytes_calm (w : SlotWorld X) (s : ℕ) (remote : RemoteAddr) (n : ℕ) :
    Calm w ((slotServer workers base).accountBytes w s remote n).2 where
  pinned := rfl
  slot r := by
    by_cases hr : r = s
    · rw [hr]
      exact ⟨_, _, w.table.set_slot_self s _⟩
    · exact ⟨_, _, w.table.set_slot_of_ne _ hr⟩
  active := le_refl _
  counted := rfl

theorem tcpDirectClientParseExecute_quiet {c d : Conn (SlotWorld X)} {res : ℤ}
    (h : tcpDirectClientParseExecute (slotServer workers base).toOutboundEnv c = .ok (d, res)) :
    Quiet c d := by
  have hok {e : Conn (SlotWorld X)} {r : ℤ}
      (heq : (.ok (e, r) : Except Abort (Conn (SlotWorld X) × ℤ)) = .ok (d, res))
      (he : Quiet c e) : Quiet c d :=
    (Prod.mk.inj (Except.ok.inj heq)).1 ▸ he
  unfold tcpDirectClientParseExecute at h
  cases hextra : c.extra with
  | null =>
    rw [hextra] at h
    dsimp only at h
    split_ifs at h
    · exact hok h (.refl c)
    · exact hok h ((Quiet.refl c).failConnection _)
  | methods =>
    rw [hextra] at h
    exact nomatch h
  | job e =>
    rw [hextra] at h
    dsimp only at h
    have haccount := accountBytes_calm workers base c.world (c.rpc.extraInt2 - 1) c.remote
      c.inp.length
    split_ifs at h
    · exact hok h (.refl c)
    · exact hok h (.of_rpc rfl rfl haccount (List.prefix_refl _))
    · refine hok h ?_
      unfold pauseFor
      split
      · exact .of_rpc rfl rfl (haccount.trans (Calm.withRest _ _)) (List.prefix_refl _)
      · exact .of_rpc rfl rfl (haccount.trans (Calm.withRest _ _)) (List.prefix_refl _)
    · exact hok h (.of_same rfl rfl rfl rfl)

/-- **What `c->type->parse_execute` does to the table.** -/
theorem clientParseExecute_effect {cond : Conn (SlotWorld X) → Prop} {c d : Conn (SlotWorld X)}
    {res : ℤ} (hcond : EachBlock workers base cond c)
    (h : clientParseExecute (slotServer workers base) c = .ok (d, res)) :
    ParseEffect workers base cond c d := by
  unfold clientParseExecute at h
  split at h
  · next htype =>
    exact tcpRpcsCompactParseExecute_effect workers base (Or.inl htype) hcond h
  · next htype =>
    exact tcpRpcsCompactParseExecute_effect workers base (Or.inr htype) hcond h
  · exact .quiet ((Prod.mk.inj (Except.ok.inj h)).1 ▸ tcpProxyPassParseExecute_quiet c)
  · exact .quiet (tcpDirectClientParseExecute_quiet workers base h)
  · exact .quiet (tcpDirectClientParseExecute_quiet workers base h)

theorem directScheduleRetry_quiet (c : Conn (SlotWorld X)) (attempt : ℕ) :
    Quiet c (directScheduleRetry (slotServer workers base).toOutboundEnv c attempt) := by
  unfold directScheduleRetry
  split_ifs
  · exact (Quiet.refl c).failConnection _
  · exact .of_session rfl rfl rfl (.refl _) (List.prefix_refl _)

theorem directRetryDcConnection_quiet (c : Conn (SlotWorld X)) :
    Quiet c (directRetryDcConnection (slotServer workers base).toOutboundEnv c) := by
  have htry : Calm c.world ((slotServer workers base).directTryDcAddrs c.world
      c.rpc.extraInt4).2 := by
    refine ⟨rfl, fun _ => ⟨_, _, rfl⟩, ?_, rfl⟩
    show c.world.active ≤
      if (base.directTryDcAddrs c.world.rest c.rpc.extraInt4).1.isSome then c.world.active + 1
      else c.world.active
    by_cases hsome : (base.directTryDcAddrs c.world.rest c.rpc.extraInt4).1.isSome = true
    · rw [if_pos hsome]
      exact (lt_add_one c.world.active).le
    · rw [if_neg hsome]
  unfold directRetryDcConnection
  by_cases hknown : (slotServer workers base).directDcKnown c.world c.rpc.extraInt4 = false
  · rw [if_pos hknown]
    exact .of_session rfl rfl rfl (.refl _) (List.prefix_refl _)
  rw [if_neg hknown]
  generalize (slotServer workers base).directTryDcAddrs c.world c.rpc.extraInt4 = r at htry
  obtain ⟨e, world⟩ := r
  cases e with
  | none =>
    refine Quiet.trans ?_ (directScheduleRetry_quiet workers base _ _)
    exact .of_session rfl rfl rfl htry (List.prefix_refl _)
  | some e => exact .of_session rfl rfl rfl htry (List.prefix_refl _)

/-- **No alarm counts anything.** -/
theorem jsAlarm_quiet (c : Conn (SlotWorld X)) : Quiet c (jsAlarm (slotServer workers base) c) := by
  have hext (d : Conn (SlotWorld X)) : Quiet d (tcpRpcsExtAlarm (slotServer workers base) d) := by
    unfold tcpRpcsExtAlarm
    by_cases hproxy : d.cProxyProtocol = true
    · rw [if_pos hproxy]
      exact (Quiet.refl d).failConnection _
    rw [if_neg hproxy]
    cases (slotServer workers base).defaultDomainInfo with
    | none => exact .refl d
    | some dflt =>
      dsimp only
      split_ifs with hnum
      · exact proxyConnection_quiet workers base d dflt hnum
      · exact .refl d
  have hresume {d e : Conn (SlotWorld X)} (h : rateLimitResume d = some e) : Quiet d e := by
    unfold rateLimitResume at h
    split_ifs at h
    rw [← Option.some.inj h]
    exact .of_same rfl rfl rfl rfl
  unfold jsAlarm
  split_ifs
  · exact .of_same rfl rfl rfl rfl
  · refine Quiet.trans (b := { c with timer := none }) (.of_same rfl rfl rfl rfl) ?_
    generalize { c with timer := none } = d
    unfold clientAlarm
    split
    · exact hext d
    · unfold tcpRpcsExtDrsAlarm
      split
      · next e h => exact hresume h
      · split_ifs
        · exact directRetryDcConnection_quiet workers base d
        · exact hext d
    · unfold tcpRpcsExtDrsAlarm
      split
      · next e h => exact hresume h
      · split_ifs
        · exact directRetryDcConnection_quiet workers base d
        · exact hext d
    · unfold tcpDirectClientAlarm
      split
      · next e h => exact hresume h
      · split_ifs
        · exact directRetryDcConnection_quiet workers base d
        · exact .refl d
    · exact .refl d

theorem dcClosed_quiet (c : Conn (SlotWorld X)) (ready : Bool) :
    Quiet c (dcClosed (slotServer workers base).toOutboundEnv c ready) := by
  unfold dcClosed
  cases c.extra with
  | null => exact .refl c
  | methods => exact .refl c
  | job e =>
    dsimp only
    by_cases hdirect : ¬ c.IsDirect
    · rw [if_pos hdirect]
      exact .refl c
    rw [if_neg hdirect]
    by_cases hretry : ready = false ∧ c.rpc.extraInt < DIRECT_MAX_RETRIES
    · rw [if_pos hretry]
      exact Quiet.trans (b := { c with extra := .null }) (.of_same rfl rfl rfl rfl)
        (directScheduleRetry_quiet workers base _ _)
    · rw [if_neg hretry]
      exact (Quiet.refl c).failConnection _

theorem keepSession_quiet (c d : Conn (SlotWorld X)) : Quiet c (c.keepSession d) :=
  .of_same rfl rfl rfl rfl

end Stages

end Server
end Teleproto3
