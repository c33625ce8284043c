/-
# A client and its data centre

A direct-mode client together with the connections to a data centre that are opened for it, one
after the other, until one gets as far as its init: connecting, the SOCKS5 handshake, failures
and retries, reads on both sides, timers and closing, in any order.

What the decryption of either side delivers is arbitrary.  What has been delivered is kept as
`clientStream` and `dcStream`; `dropped` and `gone` keep what was queued for the two sides on
connections that are no longer linked, and `failed` what connections without an init were sent.

Whatever is queued for a data centre was the next part of the client's stream, and the rest is
still in the client's `in` (`SessionSound`); before its init a data centre gets nothing.
-/

import Teleproto3.Lib.Runs
import Teleproto3.Server.ReaderRuns
import Teleproto3.Server.DirectQuota

namespace Teleproto3
namespace Server

open Lib

/-! ### The two sides -/

/-- The world of a client: whether the connection behind `extra` has its cipher, and the rest. -/
structure DcWorld (X : Type*) where
  ready : Bool
  rest : X

variable {X : Type*}

/-- The surroundings of a client whose data centre's connection is at hand. -/
def sessionServer (base : ExtServerEnv X) : ExtServerEnv (DcWorld X) :=
  { base.lift DcWorld.rest (fun w x => { w with rest := x }) with
    dcReady := DcWorld.ready
    -- A new connection has nothing queued.
    directTryDcAddrs := fun w dc =>
      let (e, x) := base.directTryDcAddrs w.rest dc
      (e.map fun e => { e with outQueue := [] }, { w with rest := x }) }

/-- The surroundings of the data centre's connection. -/
def sessionDirect (base : ExtServerEnv X) (direct : DirectEnv X) : DirectEnv (DcWorld X) :=
  direct.lift DcWorld.rest (fun w x => { w with rest := x }) (sessionServer base).toOutboundEnv

/-- The methods a client's connection is read with, where decryption delivers these bytes. -/
def directClientMethods {W : Type*} (env : OutboundEnv W) (decrypted : Bytes) :
    ReaderMethods W where
  parseExecute := tcpDirectClientParseExecute env
  cryptoDecryptInput c := .ok ({ c with inp := c.inp ++ decrypted }, 0)
  parseExecute_skipBytes _ _ _ h := (ClientCall.of_parse h).movesFrom.skipBytes
  cryptoDecryptInput_skipBytes := by
    intro c c' res h
    cases h
    rfl

/-- The methods of the connection to a data centre, where decryption delivers these bytes. -/
def directDcMethods {W : Type*} (env : DirectEnv W) (decrypted : Bytes) :
    ReaderMethods (Conn W) where
  parseExecute := tcpDirectDcParseExecute env
  cryptoDecryptInput c := .ok ({ c with inp := c.inp ++ decrypted }, 0)
  parseExecute_skipBytes _ _ _ h := (DcCall.of_parse h).skipBytes
  cryptoDecryptInput_skipBytes := by
    intro c c' res h
    cases h
    rfl

/-- A connection to a data centre as `direct_try_dc_addrs` and what follows it leave it, for a
client that has just been linked to it. -/
def newDcConn {W : Type*} (env : DirectEnv W) (client : Conn W) : Conn Unit :=
  { Conn.allocated client.remote 0 () with
    extra := .job ⟨client.remote.ip, client.remote.ipv6, client.remote.port, []⟩
    rpc :=
      { flags := ⟨false, false, false, false, false⟩
        inPacketNum := 0
        extraInt := SOCKS5_NONE
        extraInt2 := if env.socks5.enabled then env.addrIndex client.world else 0
        extraInt3 := client.rpc.extraInt3
        extraInt4 := env.outboundDc client.rpc.extraInt4 } }

/-! ### The session -/

/-- A client and its data centre.  `fault` is set where a call ended in a failed assertion. -/
structure DirectSession (X : Type*) where
  client : Conn (DcWorld X)
  dc : Option (Conn Unit)
  clientStream : Bytes
  dcStream : Bytes
  /-- what the client was linked to before -/
  dropped : List Extra
  /-- what the connections that are gone had for the client -/
  gone : List Extra
  /-- what the client was linked to when a connection failed before its init -/
  failed : List Extra
  fault : Bool

/-- What can happen to a session. -/
inductive SessionEvent (X : Type*)
  /-- anything else in the process -/
  | elsewhere (x : X)
  | clientRead (decrypted : Bytes) (turns : ℕ)
  | clientAlarm
  | clientClose
  | dcConnected
  /-- `raw` arrives; decryption, where there is a cipher, makes `decrypted` of what there is -/
  | dcRead (raw decrypted : Bytes) (turns : ℕ)
  | dcAlarm
  | dcClose

namespace DirectSession

/-- The client in its world as it is. -/
def meet (s : DirectSession X) : Conn (DcWorld X) :=
  s.client.inWorld ⟨s.dc.any (·.crypto.isSome), s.client.world.rest⟩

/-- The client is replaced; where it has just been linked to a connection, there is one. -/
def withClient (direct : DirectEnv (DcWorld X)) (s : DirectSession X) (c : Conn (DcWorld X)) :
    DirectSession X :=
  { s with
    client := c
    dc :=
      match s.client.extra, c.extra with
      | .job _, _ => s.dc
      | _, .job _ => some (newDcConn direct c)
      | _, _ => s.dc }

/-- What the client is linked to, if the connection behind it has no cipher. -/
def unready (s : DirectSession X) : List Extra :=
  match s.dc with
  | some d => if d.crypto.isSome then [] else [s.client.extra]
  | none => []

/-- Both sides are replaced. -/
def withDc (s : DirectSession X) (d : Conn (Conn (DcWorld X))) : DirectSession X :=
  { s with client := d.world, dc := some (d.over ()) }

/-- What has been queued for data centres. -/
def relayedOut (s : DirectSession X) : Bytes :=
  (s.dropped.flatMap Extra.queue ++ s.client.extra.queue).flatten

/-- What has been queued for the client. -/
def relayedIn (s : DirectSession X) : Bytes :=
  (s.gone.flatMap Extra.queue ++ (s.dc.map (·.extra.queue)).getD []).flatten

end DirectSession

section Step

variable (base : ExtServerEnv X) (direct : DirectEnv X)

/-- A session begins: `direct_connect_to_dc` on a client, with what is left in `in` behind its
obfuscated2 header. -/
def startSession (c : Conn (DcWorld X)) : DirectSession X :=
  let s : DirectSession X := ⟨c, none, c.inp, [], [], [], [], false⟩
  s.withClient (sessionDirect base direct) (directConnectToDc (sessionServer base).toOutboundEnv c)

/-- The client's reader is called. -/
def sessionClientRead (s : DirectSession X) (decrypted : Bytes) (turns : ℕ) : DirectSession X :=
  if s.client.cError then s
  else
    match jobRun (directClientMethods (sessionServer base).toOutboundEnv decrypted) s.meet []
      turns with
    | .ok r => { s with client := r.conn, clientStream := s.clientStream ++ decrypted }
    | .error _ => { s with fault := true }

/-- The reader of the data centre's connection is called. -/
def sessionDcRead (s : DirectSession X) (d : Conn Unit) (raw decrypted : Bytes) (turns : ℕ) :
    DirectSession X :=
  if d.cError then s
  else
    match jobRun (directDcMethods (sessionDirect base direct) decrypted) (d.over s.meet) [raw]
      turns with
    | .ok r =>
      { s.withDc r.conn with
        dcStream := if d.crypto.isSome then s.dcStream ++ decrypted else s.dcStream }
    | .error _ => { s with fault := true }

/-- The connection to the data centre is closed: before its cipher is set up, the client is
unlinked and another attempt scheduled, as long as there are any left. -/
def sessionDcClose (s : DirectSession X) (d : Conn Unit) : DirectSession X :=
  let c := dcClosed (sessionServer base).toOutboundEnv s.meet d.crypto.isSome
  { s with
    client := c
    dc := none
    dropped := if c.extra = s.client.extra then s.dropped else s.dropped ++ [s.client.extra]
    gone := s.gone ++ [d.extra]
    failed := s.failed ++ s.unready }

/-- The client's connection is closed, and the data centre's, which `fail_connection` is called
for, after it. -/
def sessionClientClose (s : DirectSession X) : DirectSession X :=
  { s with
    client := failConnection { s.client with extra := .null } (-1)
    dc := none
    dropped := s.dropped ++ [s.client.extra]
    gone := s.gone ++ (s.dc.map (·.extra)).toList
    failed := s.failed ++ s.unready }

/-- One event. -/
def sessionStep (s : DirectSession X) (e : SessionEvent X) : DirectSession X :=
  if s.fault then s
  else
    match e with
    | .elsewhere x => { s with client := s.client.inWorld { s.client.world with rest := x } }
    | .clientRead decrypted turns => sessionClientRead base s decrypted turns
    | .clientAlarm =>
      s.withClient (sessionDirect base direct) (jsAlarm (sessionServer base) s.meet)
    | .clientClose => sessionClientClose s
    | .dcConnected =>
      match s.dc with
      | some d =>
        if d.crypto.isSome ∨ d.rpc.extraInt ≠ SOCKS5_NONE ∨ d.cError then s
        else s.withDc (tcpDirectDcConnected (sessionDirect base direct) (d.over s.meet))
      | none => s
    | .dcRead raw decrypted turns =>
      match s.dc with
      | some d => sessionDcRead base direct s d raw decrypted turns
      | none => s
    | .dcAlarm => { s with dc := s.dc.map fun d => { d with cStopRead := false, timer := none } }
    | .dcClose =>
      match s.dc with
      | some d => sessionDcClose base s d
      | none => s

end Step

/-! ### A call of the reader -/

section Read

variable {W : Type*}

/-- Bytes are appended to `in`. -/
def Conn.deliver (c : Conn W) (bytes : Bytes) : Conn W := { c with inp := c.inp ++ bytes }

/-- Two calls of the reader with the same `parse_execute` that come to the same before it. -/
theorem jobRun_congr {m m' : ReaderMethods W} {c d : Conn W} {queue queue' : List Bytes}
    (hparse : m.parseExecute = m'.parseExecute) (hc : c.cError = false) (hd : d.cError = false)
    (hdecode : readerDecode m (readerFill c queue) = readerDecode m' (readerFill d queue'))
    (turns : ℕ) : jobRun m c queue turns = jobRun m' d queue' turns := by
  have hturn : readerTurn m = readerTurn m' := by
    funext s
    unfold readerTurn
    rw [hparse]
  rw [jobRun_of_live hc, jobRun_of_live hd, cpuTcpServerReader, cpuTcpServerReader, readerFront,
    readerFront, hdecode, hturn]

/-- Bytes are appended to `in_u`. -/
def Conn.pend (c : Conn W) (bytes : Bytes) : Conn W := { c with inU := c.inU ++ bytes }

theorem readerFill_crypto {c : Conn W} (h : c.crypto.isSome = true) (queue : List Bytes) :
    readerFill c queue = c.pend queue.flatten := if_pos (Or.inl h)

theorem Conn.deliver_nil (c : Conn W) : c.deliver [] = c := by
  unfold Conn.deliver
  rw [List.append_nil]

/-- Decryption that delivers these bytes. -/
def Delivers (m : ReaderMethods W) (bytes : Bytes) : Prop :=
  ∀ d : Conn W, m.cryptoDecryptInput d = .ok (d.deliver bytes, 0)

theorem readerDecode_crypto {m : ReaderMethods W} {c : Conn W} {bytes : Bytes}
    (h : c.crypto.isSome = true) (hm : Delivers m bytes) :
    readerDecode m c = .ok (c.deliver bytes) := by
  unfold readerDecode
  rw [if_pos h, hm]
  rfl

/-- What decryption delivers may as well have been there before. -/
theorem readerDecode_delivered {m m' : ReaderMethods W} {c : Conn W} {bytes : Bytes}
    (h : c.crypto.isSome = true) (hm : Delivers m bytes) (hm' : Delivers m' [])
    (queue : List Bytes) :
    readerDecode m (readerFill c queue) = readerDecode m' (readerFill (c.deliver bytes) queue) := by
  rw [readerFill_crypto h, readerFill_crypto (c := c.deliver bytes) h,
    readerDecode_crypto (c := c.pend queue.flatten) h hm,
    readerDecode_crypto (c := (c.deliver bytes).pend queue.flatten) h hm', Conn.deliver_nil]
  rfl

/-- The reader does nothing to a connection that has nothing to skip. -/
theorem readerSkip_none {c : Conn W} (h : c.skipBytes = 0) : readerSkip c = .ok c := by
  unfold readerSkip
  simp [h]

end Read

section Client

variable (base : ExtServerEnv X)

/-- What a call of the client's reader comes to, from what decryption delivers on. -/
structure ClientReads (c c' : Conn (DcWorld X)) : Prop where
  moves : MovesFrom c c'
  ready : c'.world.ready = c.world.ready
  waits : c.world.ready = false → c'.extra = c.extra

theorem ClientReads.refl (c : Conn (DcWorld X)) : ClientReads c c := ⟨.refl c, rfl, fun _ => rfl⟩

theorem ClientReads.trans {c d e : Conn (DcWorld X)} (h : ClientReads c d) (h' : ClientReads d e) :
    ClientReads c e where
  moves := h.moves.trans h'.moves
  ready := h'.ready.trans h.ready
  waits hready := (h'.waits (h.ready.trans hready)).trans (h.waits hready)

theorem ClientCall.reads {c c' : Conn (DcWorld X)} {res : ℤ}
    (h : ClientCall (sessionServer base).toOutboundEnv c c' res) : ClientReads c c' where
  moves := h.movesFrom
  ready := by
    cases h with
    | waits _ => rfl
    | gone _ => rfl
    | uncounted _ _ _ => rfl
    | refused _ _ _ haccount =>
      have hworld := congrArg (fun p => p.2.ready) haccount
      exact hworld.symm
    | @relayed _ _ _ _ w w' delay haccount hrate =>
      have hworld : c.world.ready = w.ready := congrArg (fun p => p.2.ready) haccount
      have hworld' : w.ready = w'.ready := congrArg (fun p => p.2.ready) hrate
      rw [hworld, hworld']
      cases delay <;> rfl
  waits hready := (h.extra_of_not_ready hready).1

/-- **A call of the client's reader queues the next part of the stream.** -/
theorem directClient_reads {c : Conn (DcWorld X)} (hcrypto : c.crypto.isSome = true)
    (hskip : c.skipBytes = 0) (herror : c.cError = false) {decrypted : Bytes} {turns : ℕ}
    {r : ReaderResult (DcWorld X)}
    (h : jobRun (directClientMethods (sessionServer base).toOutboundEnv decrypted) c [] turns =
      .ok r) : ClientReads (c.deliver decrypted) r.conn := by
  have hdelivers : Delivers (directClientMethods (sessionServer base).toOutboundEnv decrypted)
      decrypted := fun _ => rfl
  have hnone : Delivers (directClientMethods (sessionServer base).toOutboundEnv []) [] :=
    fun _ => rfl
  have hparse : (directClientMethods (sessionServer base).toOutboundEnv decrypted).parseExecute =
      (directClientMethods (sessionServer base).toOutboundEnv []).parseExecute := rfl
  rw [jobRun_congr hparse herror (d := c.deliver decrypted) herror
    (readerDecode_delivered hcrypto hdelivers hnone []) turns] at h
  have hrule := jobRun_leaves (m := directClientMethods (sessionServer base).toOutboundEnv [])
    (I := ClientReads (c.deliver decrypted)) (P := fun _ => True) (F := fun _ => True)
    (c := c.deliver decrypted) (q := []) (n := turns)
    (fun d queue hd => by
      rw [readerFill_crypto (by rw [hd.moves.crypto]; exact hcrypto)]
      exact hd.trans ⟨.of_same rfl rfl rfl rfl rfl rfl rfl, rfl, fun _ => rfl⟩)
    (fun d hd => by
      have hsome : d.crypto.isSome = true := by rw [hd.moves.crypto]; exact hcrypto
      rw [readerDecode_crypto hsome hnone, Conn.deliver_nil]
      exact hd)
    (fun d hd => by
      rw [readerSkip_none (hd.moves.skipBytes.trans hskip)]
      exact hd)
    (fun d hd _ _ => by
      cases hres : (directClientMethods (sessionServer base).toOutboundEnv []).parseExecute d with
      | error a => trivial
      | ok p =>
        obtain ⟨d', res⟩ := p
        have hcall : ClientCall (sessionServer base).toOutboundEnv d d' res := .of_parse hres
        show ClientReads _ (storeResult d' res)
        rw [storeResult, if_pos hcall.res]
        exact hd.trans (hcall.reads base))
    (.refl _) (fun _ d _ => eachTurnFor_of_forall (fun _ _ => trivial) _ _)
  rw [h] at hrule
  exact hrule

end Client

/-! ### A read of the data centre -/

section DataCentre

/-- **A reader that calls `parse_execute` once at most**: every call asks for more or leaves a
connection that is not parsed any further. -/
theorem jobRun_once {W : Type*} {m : ReaderMethods W} {c : Conn W} {queue : List Bytes}
    {turns : ℕ} (hcrypto : c.crypto = none) (hmode : c.transportMode ≠ .httpStream)
    (hskip : c.skipBytes = 0)
    (hone : ∀ d res, ¬ ReaderStops (c.deliver queue.flatten) →
      m.parseExecute (c.deliver queue.flatten) = .ok (d, res) →
        res = 0 ∧ ReaderStops d ∨ res = NEED_MORE_BYTES)
    {r : ReaderResult W} (h : jobRun m c queue turns = .ok r) :
    r.conn = c ∨ r.conn = c.deliver queue.flatten ∨
      ∃ res, ¬ ReaderStops (c.deliver queue.flatten) ∧
        m.parseExecute (c.deliver queue.flatten) = .ok (r.conn, res) := by
  unfold jobRun at h
  split_ifs at h
  · cases h
    exact Or.inl rfl
  · refine Or.inr ?_
    have hfill : readerFill c queue = c.deliver queue.flatten := by
      unfold readerFill
      rw [if_neg]
      · rfl
      · rw [hcrypto]
        simp [hmode]
    have hdecode : readerDecode m (c.deliver queue.flatten) = .ok (c.deliver queue.flatten) := by
      unfold readerDecode Conn.deliver
      rw [hcrypto]
      simp [hmode]
    generalize hd : c.deliver queue.flatten = d at hfill hdecode hone h ⊢
    have hdskip : d.skipBytes = 0 := by
      rw [← hd]
      exact hskip
    unfold cpuTcpServerReader readerFront at h
    rw [hfill, hdecode] at h
    rcases hflags : readerFlags d with exit | d'
    · obtain ⟨ret, rfl⟩ := (readerFlags_spec d).2 exit hflags
      simp only [Except.bind, hflags] at h
      cases h
      exact Or.inl rfl
    · obtain rfl := ((readerFlags_spec d).1 d' hflags).1
      simp only [Except.bind, hflags, readerSkip_none hdskip] at h
      by_cases hstop : ReaderStops d'
      · cases turns with
        | zero =>
          cases h
          exact Or.inl rfl
        | succ n =>
          rw [loopFor_of_done (readerTurn_of_stops hstop)] at h
          cases h
          exact Or.inl rfl
      · cases turns with
        | zero =>
          cases h
          exact Or.inl rfl
        | succ n =>
          cases hparse : m.parseExecute d' with
          | error a =>
            rw [loopFor_of_done (readerTurn_of_abort hstop hparse)] at h
            exact nomatch h
          | ok p =>
            obtain ⟨e, res⟩ := p
            refine Or.inr ⟨res, hstop, ?_⟩
            rcases hone e res hstop hparse with ⟨rfl, hstops⟩ | rfl
            · rw [loopFor_of_again (readerTurn_of_zero hstop hparse)] at h
              cases n with
              | zero =>
                cases h
                rfl
              | succ n =>
                rw [loopFor_of_done (readerTurn_of_stops hstops)] at h
                cases h
                rfl
            · rw [loopFor_of_done (readerTurn_of_needMore hstop hparse)] at h
              cases h
              rfl

variable {W : Type*} (env : DirectEnv W)

theorem ClientKept.refl (client : Conn W) : ClientKept client client := ⟨rfl, Or.inl rfl⟩

theorem ClientKept.trans {a b c : Conn W} (h : ClientKept a b) (h' : ClientKept b c) :
    ClientKept a c where
  same := by
    rw [h'.same, h.same]
  skipBytes := by
    rcases h'.skipBytes with hb | hb
    · rw [hb]
      exact h.skipBytes
    · exact Or.inr hb

/-- What a call of the reader of a data centre that has its cipher comes to, from what decryption
delivers on. -/
structure DcReads (c c' : Conn (Conn W)) : Prop where
  moves : MovesFrom c c'
  client : ClientKept c.world c'.world

theorem DcReads.refl (c : Conn (Conn W)) : DcReads c c := ⟨.refl c, .refl c.world⟩

theorem DcReads.trans {c d e : Conn (Conn W)} (h : DcReads c d) (h' : DcReads d e) :
    DcReads c e :=
  ⟨h.moves.trans h'.moves, h.client.trans h'.client⟩

/-- **A call of the reader of a data centre that has its cipher queues the next part of its
stream for the client.** -/
theorem directDc_reads {c : Conn (Conn W)} (hcrypto : c.crypto.isSome = true)
    (hskip : c.skipBytes = 0) (hdone : c.rpc.extraInt = 0) (herror : c.cError = false)
    {decrypted : Bytes} {queue : List Bytes} {turns : ℕ} {r : ReaderResult (Conn W)}
    (h : jobRun (directDcMethods env decrypted) c queue turns = .ok r) :
    DcReads (c.deliver decrypted) r.conn := by
  have hdelivers : Delivers (directDcMethods env decrypted) decrypted := fun _ => rfl
  have hnone : Delivers (directDcMethods env []) [] := fun _ => rfl
  have hparse : (directDcMethods env decrypted).parseExecute =
      (directDcMethods env []).parseExecute := rfl
  rw [jobRun_congr hparse herror (d := c.deliver decrypted) herror
    (readerDecode_delivered hcrypto hdelivers hnone queue) turns] at h
  have hrule := jobRun_leaves (m := directDcMethods env []) (I := DcReads (c.deliver decrypted))
    (P := fun _ => True) (F := fun _ => True) (c := c.deliver decrypted) (q := queue)
    (n := turns)
    (fun d queue hd => by
      rw [readerFill_crypto (by rw [hd.moves.crypto]; exact hcrypto)]
      exact hd.trans ⟨.of_same rfl rfl rfl rfl rfl rfl rfl, .refl d.world⟩)
    (fun d hd => by
      have hsome : d.crypto.isSome = true := by rw [hd.moves.crypto]; exact hcrypto
      rw [readerDecode_crypto hsome hnone, Conn.deliver_nil]
      exact hd)
    (fun d hd => by
      rw [readerSkip_none (hd.moves.skipBytes.trans hskip)]
      exact hd)
    (fun d hd _ _ => by
      cases hres : (directDcMethods env []).parseExecute d with
      | error a => trivial
      | ok p =>
        obtain ⟨d', res⟩ := p
        have hcall : DcCall env d d' res := .of_parse hres
        have hdone' : d.rpc.extraInt = 0 := by
          rw [hd.moves.rpc]
          exact hdone
        show DcReads _ (storeResult d' res)
        rw [storeResult, if_pos hcall.res]
        exact hd.trans ⟨hcall.movesFrom hdone', hcall.clientKept⟩)
    (.refl _) (fun _ d _ => eachTurnFor_of_forall (fun _ _ => trivial) _ _)
  rw [h] at hrule
  exact hrule

theorem ReaderStops.of_nil {W : Type*} {c : Conn W} (h : c.inp = []) : ReaderStops c := by
  unfold ReaderStops
  rw [h]
  simp [totalBytes, wrap32]

/-- What a call of the reader of a data centre without a cipher comes to: nothing for the client,
and once the init is sent nothing is left of the handshake. -/
structure DcGreets (c c' : Conn (Conn W)) : Prop where
  extra : c'.extra = c.extra
  skipBytes : c'.skipBytes = 0
  transportMode : c'.transportMode ≠ .httpStream
  client : ClientKept c.world c'.world
  waits : c'.crypto = none → c'.rpc.extraInt = 0 → c'.inp = []
  starts : c'.crypto.isSome = true → c'.rpc.extraInt = 0 ∧ c'.inp = []

/-- A data centre that says nothing before its init: nothing arrives before it is connected, and
nothing behind the reply to the CONNECT request. -/
def SilentBeforeInit (d : Conn Unit) (raw : Bytes) : Prop :=
  (d.rpc.extraInt = SOCKS5_NONE → raw = []) ∧
    (d.rpc.extraInt = SOCKS5_CONNECT_SENT →
      ∀ total, socks5ReplyLength (d.inp ++ raw) = some total → (d.inp ++ raw).length ≤ total)

theorem directDc_greets {d : Conn Unit} {client : Conn W} {raw decrypted : Bytes} {turns : ℕ}
    (hcrypto : d.crypto = none) (hmode : d.transportMode ≠ .httpStream) (hskip : d.skipBytes = 0)
    (hidle : d.rpc.extraInt = 0 → d.inp = []) (hsilent : SilentBeforeInit d raw)
    {r : ReaderResult (Conn W)}
    (h : jobRun (directDcMethods env decrypted) (d.over client) [raw] turns = .ok r) :
    DcGreets (d.over client) r.conn := by
  have hraw : (d.over client).deliver [raw].flatten = (d.over client).deliver raw := by
    rw [List.flatten_singleton]
  have hsame : DcGreets (d.over client) (d.over client) :=
    ⟨rfl, hskip, hmode, .refl client, fun _ hdone => hidle hdone,
      fun h => by rw [show (d.over client).crypto = none from hcrypto] at h; exact nomatch h⟩
  have hdeliver : DcGreets (d.over client) ((d.over client).deliver raw) := by
    refine ⟨rfl, hskip, hmode, .refl client, fun _ hdone => ?_, fun h => ?_⟩
    · show d.inp ++ raw = []
      rw [hidle hdone, hsilent.1 hdone]
      rfl
    · rw [show ((d.over client).deliver raw).crypto = none from hcrypto] at h
      exact nomatch h
  have hcall (e : Conn (Conn W)) (res : ℤ) (hlive : ¬ ReaderStops ((d.over client).deliver raw))
      (hres : (directDcMethods env decrypted).parseExecute ((d.over client).deliver raw) =
        .ok (e, res)) :
      DcGreets (d.over client) e ∧ (res = 0 ∧ ReaderStops e ∨ res = NEED_MORE_BYTES) := by
    have hparse : DcCall env ((d.over client).deliver raw) e res := .of_parse hres
    have hsocks : 0 < ((d.over client).deliver raw).rpc.extraInt := by
      exact Nat.pos_of_ne_zero fun hdone => hlive (.of_nil (hdeliver.waits hcrypto hdone))
    rcases hparse.handshake hsocks with
      ⟨d', hkeeps, hpos, ⟨rfl, rfl⟩ | ⟨rfl, rfl⟩⟩ | ⟨total, hconnect, hlen, -, rfl, rfl⟩
    · refine ⟨⟨hkeeps.extra, hkeeps.skipBytes.trans hskip, ?_, ?_, ?_, ?_⟩, Or.inr rfl⟩
      · rw [hkeeps.transportMode]
        exact hmode
      · rw [hkeeps.world]
        exact .refl client
      · intro _ hdone
        omega
      · rw [hkeeps.crypto]
        intro h
        rw [show ((d.over client).deliver raw).crypto = none from hcrypto] at h
        exact nomatch h
    · refine ⟨⟨hkeeps.extra, hkeeps.skipBytes.trans hskip, ?_, ?_, ?_, ?_⟩, Or.inl ⟨rfl, ?_⟩⟩
      · show d'.transportMode ≠ _
        rw [hkeeps.transportMode]
        exact hmode
      · show ClientKept _ d'.world
        rw [hkeeps.world]
        exact .refl client
      · intro _ hdone
        exact absurd hdone (Nat.pos_iff_ne_zero.mp hpos)
      · show d'.crypto.isSome = true → _
        rw [hkeeps.crypto]
        intro h
        rw [show ((d.over client).deliver raw).crypto = none from hcrypto] at h
        exact nomatch h
      · exact Or.inr (Or.inl rfl)
    · obtain ⟨hclient, hcipher, hextra, hinp, hskipBytes, hrpc, hmode'⟩ :=
        tcpDirectDcSendObfs2Init_spec env
          ((((d.over client).deliver raw).skipData total).setExtraInt SOCKS5_NONE)
      have hnil : (d.inp ++ raw).drop total = [] :=
        List.drop_eq_nil_of_le (hsilent.2 hconnect total hlen)
      refine ⟨⟨hextra, hskipBytes.trans hskip, ?_, hclient, ?_, ?_⟩, Or.inl ⟨rfl, ?_⟩⟩
      · rw [hmode']
        exact hmode
      · intro hnone
        rw [hnone] at hcipher
        exact nomatch hcipher
      · intro _
        rw [hrpc, hinp]
        exact ⟨rfl, hnil⟩
      · exact .of_nil (hinp.trans hnil)
  rcases jobRun_once (c := d.over client) hcrypto hmode hskip
    (fun e res hlive hres => by
      rw [hraw] at hlive hres
      exact (hcall e res hlive hres).2) h with heq | heq | ⟨res, hlive, hres⟩
  · rw [heq]
    exact hsame
  · rw [heq, hraw]
    exact hdeliver
  · rw [hraw] at hlive hres
    exact (hcall _ res hlive hres).1

/-- The connection to a data centre stands: a SOCKS5 proxy is greeted, or the init is sent. -/
theorem tcpDirectDcConnected_greets {d : Conn Unit} (client : Conn W) (hcrypto : d.crypto = none)
    (hmode : d.transportMode ≠ .httpStream) (hskip : d.skipBytes = 0) (hinp : d.inp = [])
    (hdone : d.rpc.extraInt = 0) :
    DcGreets (d.over client) (tcpDirectDcConnected env (d.over client)) := by
  unfold tcpDirectDcConnected
  split_ifs
  · refine ⟨rfl, hskip, hmode, .refl client, fun _ _ => hinp, fun hsome => ?_⟩
    rw [show ((socks5SendGreeting env.socks5 (d.over client)).setExtraInt
      SOCKS5_GREETING_SENT).crypto = none from hcrypto] at hsome
    exact nomatch hsome
  · obtain ⟨hclient, hcipher, hextra, hinp', hskipBytes, hrpc, hmode'⟩ :=
      tcpDirectDcSendObfs2Init_spec env (d.over client)
    refine ⟨hextra, hskipBytes.trans hskip, ?_, hclient, fun _ _ => hinp'.trans hinp, fun _ => ?_⟩
    · rw [hmode']
      exact hmode
    · rw [hrpc]
      exact ⟨hdone, hinp'.trans hinp⟩

end DataCentre

/-! ### The links of a client -/

section Links

/-- What connecting and an alarm do to a client: a connection it is linked to is a new one. -/
structure Links (c c' : Conn (DcWorld X)) : Prop where
  inp : c'.inp = c.inp
  skipBytes : c'.skipBytes = c.skipBytes
  crypto : c'.crypto = c.crypto
  inPacketNum : c'.rpc.inPacketNum = c.rpc.inPacketNum
  live : c'.cError = false → c.cError = false ∧ c'.IsDirect
  extra : c'.extra = c.extra ∨
    c.cError = false ∧ c.extra.isJob = false ∧ c'.extra.isJob = true ∧ c'.extra.queue = []

variable (base : ExtServerEnv X)

/-- A connection that `direct_try_dc_addrs` returns has nothing queued. -/
theorem sessionServer_try {w w' : DcWorld X} {dc : ℤ} {e : Outbound}
    (h : (sessionServer base).directTryDcAddrs w dc = (some e, w')) : e.outQueue = [] := by
  have he := congrArg Prod.fst h
  simp only [sessionServer] at he
  obtain ⟨e', -, rfl⟩ := Option.map_eq_some_iff.mp he
  rfl

theorem failConnection_links (c : Conn (DcWorld X)) (err : ℤ) : Links c (failConnection c err) :=
  ⟨rfl, rfl, rfl, rfl, (nomatch ·), Or.inl rfl⟩

theorem directScheduleRetry_links (env : OutboundEnv (DcWorld X)) {c : Conn (DcWorld X)}
    (hdirect : c.cError = false → c.IsDirect) (w : DcWorld X) (attempt : ℕ) :
    Links c (directScheduleRetry env (c.over w) attempt) := by
  unfold directScheduleRetry
  split_ifs
  · exact ⟨rfl, rfl, rfl, rfl, (nomatch ·), Or.inl rfl⟩
  · exact ⟨rfl, rfl, rfl, rfl, fun h => ⟨h, hdirect h⟩, Or.inl rfl⟩

theorem directRetryDcConnection_links {c : Conn (DcWorld X)} (herror : c.cError = false)
    (hdirect : c.IsDirect) (hextra : c.extra = .null) :
    Links c (directRetryDcConnection (sessionServer base).toOutboundEnv c) := by
  unfold directRetryDcConnection
  split_ifs
  · exact ⟨rfl, rfl, rfl, rfl, (nomatch ·), Or.inl rfl⟩
  · rcases htry : (sessionServer base).directTryDcAddrs c.world c.rpc.extraInt4 with ⟨_ | e, w⟩
    · exact directScheduleRetry_links _ (fun _ => hdirect) w _
    · refine ⟨rfl, rfl, rfl, rfl, fun h => ⟨h, hdirect⟩, Or.inr ⟨herror, ?_, rfl, ?_⟩⟩
      · rw [hextra]
        rfl
      · exact sessionServer_try base htry

/-- **Connecting to a data centre**, for a client that may have failed already. -/
theorem directConnectToDc_links {c : Conn (DcWorld X)} (hextra : c.extra.isJob = false) :
    Links { c with cError := false }
      (directConnectToDc (sessionServer base).toOutboundEnv c) := by
  have hdirect (w : DcWorld X) :
      ({ c with type := directClientType c, world := w } : Conn (DcWorld X)).IsDirect := by
    unfold Conn.IsDirect directClientType
    split_ifs
    · exact Or.inr rfl
    · exact Or.inl rfl
  unfold directConnectToDc
  split_ifs
  · exact ⟨rfl, rfl, rfl, rfl, (nomatch ·), Or.inl rfl⟩
  · dsimp only
    rcases htry : (sessionServer base).directTryDcAddrs c.world c.rpc.extraInt4 with ⟨_ | e, w⟩
    · have hlinks := directScheduleRetry_links (sessionServer base).toOutboundEnv
        (c := { c with type := directClientType c }) (fun _ => hdirect c.world) w 0
      exact ⟨hlinks.inp, hlinks.skipBytes, hlinks.crypto, hlinks.inPacketNum,
        fun h => ⟨rfl, (hlinks.live h).2⟩,
        hlinks.extra.imp_right fun ⟨_, hlinked⟩ => ⟨rfl, hlinked⟩⟩
    · exact ⟨rfl, rfl, rfl, rfl, fun _ => ⟨rfl, hdirect w⟩,
        Or.inr ⟨rfl, hextra, rfl, sessionServer_try base htry⟩⟩

theorem tcpRpcsExtAlarm_links {c : Conn (DcWorld X)} (hdirect : c.IsDirect)
    (hnum : c.rpc.inPacketNum ≠ -3) : Links c (tcpRpcsExtAlarm (sessionServer base) c) := by
  have hsame : Links c c := ⟨rfl, rfl, rfl, rfl, fun h => ⟨h, hdirect⟩, Or.inl rfl⟩
  unfold tcpRpcsExtAlarm
  simp only [if_neg hnum]
  split_ifs
  · exact failConnection_links c (-1)
  · cases (sessionServer base).defaultDomainInfo <;> exact hsame

/-- Reading goes on, or a connection without a data centre's makes its next attempt. -/
theorem rateLimitResume_links {c d : Conn (DcWorld X)} (hdirect : c.IsDirect)
    (hd : Links c d) : Links c ((rateLimitResume c).getD d) := by
  unfold rateLimitResume
  split_ifs
  · exact ⟨rfl, rfl, rfl, rfl, fun h => ⟨h, hdirect⟩, Or.inl rfl⟩
  · exact hd

theorem tcpDirectClientAlarm_links {c : Conn (DcWorld X)} (herror : c.cError = false)
    (hdirect : c.IsDirect) :
    Links c (tcpDirectClientAlarm (sessionServer base) c) := by
  have hsame : Links c c := ⟨rfl, rfl, rfl, rfl, fun h => ⟨h, hdirect⟩, Or.inl rfl⟩
  have hretry : Links c (if c.extra = .null ∧ 0 < c.rpc.extraInt then
      directRetryDcConnection (sessionServer base).toOutboundEnv c else c) := by
    split_ifs with h
    · exact directRetryDcConnection_links base herror hdirect h.1
    · exact hsame
  have hlinks := rateLimitResume_links hdirect hretry
  unfold tcpDirectClientAlarm
  cases hresume : rateLimitResume c with
  | none =>
    rw [hresume] at hlinks
    exact hlinks
  | some d =>
    rw [hresume] at hlinks
    exact hlinks

theorem tcpRpcsExtDrsAlarm_links {c : Conn (DcWorld X)} (herror : c.cError = false)
    (hdirect : c.IsDirect) (hnum : c.rpc.inPacketNum ≠ -3) :
    Links c (tcpRpcsExtDrsAlarm (sessionServer base) c) := by
  have hretry : Links c (if c.type = .directClientDrs ∧ c.extra = .null ∧ 0 < c.rpc.extraInt then
      directRetryDcConnection (sessionServer base).toOutboundEnv c
      else tcpRpcsExtAlarm (sessionServer base) c) := by
    split_ifs with h
    · exact directRetryDcConnection_links base herror hdirect h.2.1
    · exact tcpRpcsExtAlarm_links base hdirect hnum
  have hlinks := rateLimitResume_links hdirect hretry
  unfold tcpRpcsExtDrsAlarm
  cases hresume : rateLimitResume c with
  | none =>
    rw [hresume] at hlinks
    exact hlinks
  | some d =>
    rw [hresume] at hlinks
    exact hlinks

theorem clientAlarm_links {c : Conn (DcWorld X)} (herror : c.cError = false)
    (hdirect : c.IsDirect) (hnum : c.rpc.inPacketNum ≠ -3) :
    Links c (clientAlarm (sessionServer base) c) := by
  unfold clientAlarm
  rcases id hdirect with htype | htype
  · rw [htype]
    exact tcpDirectClientAlarm_links base herror hdirect
  · rw [htype]
    exact tcpRpcsExtDrsAlarm_links base herror hdirect hnum

/-- **An alarm of a client in direct mode.** -/
theorem jsAlarm_links {c : Conn (DcWorld X)} (hdirect : c.cError = false → c.IsDirect)
    (hnum : c.rpc.inPacketNum ≠ -3) : Links c (jsAlarm (sessionServer base) c) := by
  unfold jsAlarm
  split_ifs with herror
  · exact ⟨rfl, rfl, rfl, rfl, fun h => (nomatch herror.symm.trans h), Or.inl rfl⟩
  · have hlive : c.cError = false := by simpa using herror
    have hlinks := clientAlarm_links base (c := { c with timer := none }) hlive (hdirect hlive) hnum
    exact ⟨hlinks.inp, hlinks.skipBytes, hlinks.crypto, hlinks.inPacketNum, hlinks.live,
      hlinks.extra⟩

/-- What the end of its data centre's connection does to a client. -/
theorem dcClosed_spec (env : OutboundEnv (DcWorld X)) {c : Conn (DcWorld X)}
    (hdirect : c.cError = false → c.IsDirect) (hextra : c.extra.isJob = true) (ready : Bool) :
    Links { c with extra := (dcClosed env c ready).extra } (dcClosed env c ready) ∧
      ((dcClosed env c ready).extra = c.extra ∨ (dcClosed env c ready).extra = .null) ∧
      ((dcClosed env c ready).cError = false → ready = false) := by
  unfold dcClosed
  cases hjob : c.extra with
  | null =>
    rw [hjob] at hextra
    exact nomatch hextra
  | methods =>
    rw [hjob] at hextra
    exact nomatch hextra
  | job e =>
    dsimp only
    split_ifs with hlive hretry
    · have hlinks := directScheduleRetry_links env (c := { c with extra := .null }) hdirect c.world
        c.rpc.extraInt
      have hnull : (directScheduleRetry env { c with extra := .null } c.rpc.extraInt).extra =
          .null := by
        unfold directScheduleRetry
        split_ifs <;> rfl
      rw [hnull]
      exact ⟨hlinks, Or.inr rfl, fun _ => hretry.1⟩
    · exact ⟨⟨rfl, rfl, rfl, rfl, (nomatch ·), Or.inl rfl⟩, Or.inl hjob, (nomatch ·)⟩
    · have herror : c.cError = true := by
        cases herror : c.cError with
        | true => rfl
        | false => exact absurd (hdirect herror) hlive
      exact ⟨⟨rfl, rfl, rfl, rfl, fun h => (nomatch herror.symm.trans h), Or.inl rfl⟩,
        Or.inl hjob, fun h => (nomatch herror.symm.trans h)⟩

end Links

/-! ### What a session keeps -/

/-- What has been decrypted and is not queued for the client yet. -/
def Conn.undelivered {W : Type*} (d : Conn W) : Bytes := if d.crypto.isSome then d.inp else []

/-- A data centre's connection: its handshake is behind it once it has its cipher, and before
that it has queued nothing for the client. -/
structure DcSound {W : Type*} (d : Conn W) : Prop where
  skipBytes : d.skipBytes = 0
  transportMode : d.transportMode ≠ .httpStream
  idle : d.crypto = none → d.rpc.extraInt = 0 → d.inp = []
  done : d.crypto.isSome = true → d.rpc.extraInt = 0

/-- The invariant of a session. -/
structure SessionSound (s : DirectSession X) : Prop where
  out : s.relayedOut ++ s.client.inp = s.clientStream
  inn : ∃ rest, s.relayedIn ++ rest = s.dcStream ∧ (∀ d, s.dc = some d → rest = d.undelivered) ∧
    (s.dc = none → s.client.cError = false → rest = [])
  skipBytes : s.client.skipBytes = 0
  crypto : s.client.crypto.isSome = true
  inPacketNum : s.client.rpc.inPacketNum ≠ -3
  direct : s.client.cError = false → s.client.IsDirect
  linked : s.dc.isSome = true → s.client.extra.isJob = true
  dc : ∀ d, s.dc = some d → DcSound d
  unready : ∀ extra ∈ s.unready, extra.queue = []
  failed : ∀ extra ∈ s.failed, extra.queue = []

/-- A data centre says nothing before its init. -/
def DcSilent (s : DirectSession X) (e : SessionEvent X) : Prop :=
  ∀ raw decrypted turns d, e = .dcRead raw decrypted turns → s.dc = some d → d.crypto = none →
    SilentBeforeInit d raw

theorem Extra.queue_of_not_isJob {extra : Extra} (h : extra.isJob = false) : extra.queue = [] := by
  cases extra with
  | null => rfl
  | methods => rfl
  | job e => exact nomatch h

theorem newDcConn_sound {W : Type*} (env : DirectEnv W) (c : Conn W) :
    DcSound (newDcConn env c) :=
  ⟨rfl, (nomatch ·), fun _ _ => rfl, fun _ => rfl⟩

/-- A client that keeps its link. -/
theorem DirectSession.withClient_of_same (env : DirectEnv (DcWorld X)) {s : DirectSession X}
    {c : Conn (DcWorld X)} (h : c.extra = s.client.extra) :
    s.withClient env c = { s with client := c } := by
  unfold DirectSession.withClient
  rw [h]
  cases s.client.extra <;> rfl

/-- A client that has just been linked. -/
theorem DirectSession.withClient_of_new (env : DirectEnv (DcWorld X)) {s : DirectSession X}
    {c : Conn (DcWorld X)} (hold : s.client.extra.isJob = false) (hnew : c.extra.isJob = true) :
    s.withClient env c = { s with client := c, dc := some (newDcConn env c) } := by
  unfold DirectSession.withClient
  cases hs : s.client.extra with
  | job e =>
    rw [hs] at hold
    exact nomatch hold
  | null =>
    cases hc : c.extra with
    | job e => rfl
    | _ =>
      rw [hc] at hnew
      exact nomatch hnew
  | methods =>
    cases hc : c.extra with
    | job e => rfl
    | _ =>
      rw [hc] at hnew
      exact nomatch hnew

namespace SessionSound

variable {base : ExtServerEnv X} {direct : DirectEnv X} {s : DirectSession X}

/-- The client's world is of no account. -/
theorem inWorld (h : SessionSound s) (w : DcWorld X) :
    SessionSound { s with client := s.client.inWorld w } :=
  ⟨h.out, h.inn, h.skipBytes, h.crypto, h.inPacketNum, h.direct, h.linked, h.dc, h.unready,
    h.failed⟩

/-- **Connecting and alarms.** -/
theorem withClient (h : SessionSound s) (env : DirectEnv (DcWorld X)) {c : Conn (DcWorld X)}
    (hlinks : Links s.meet c) : SessionSound (s.withClient env c) := by
  have hlive (herror : c.cError = false) : s.client.cError = false := (hlinks.live herror).1
  rcases hlinks.extra with heq | ⟨herror, hold, hnew, hqueue⟩
  · replace heq : c.extra = s.client.extra := heq
    rw [DirectSession.withClient_of_same env heq]
    refine ⟨?_, ?_, hlinks.skipBytes.trans h.skipBytes, ?_, ?_, fun he => (hlinks.live he).2, ?_,
      h.dc, ?_, h.failed⟩
    · rw [← h.out]
      show (s.dropped.flatMap Extra.queue ++ c.extra.queue).flatten ++ c.inp = _
      rw [heq, hlinks.inp]
      rfl
    · obtain ⟨rest, hrest, hdc, hnone⟩ := h.inn
      exact ⟨rest, hrest, hdc, fun hdc he => hnone hdc (hlive he)⟩
    · rw [hlinks.crypto]
      exact h.crypto
    · rw [hlinks.inPacketNum]
      exact h.inPacketNum
    · rw [heq]
      exact h.linked
    · intro extra hmem
      refine h.unready extra ?_
      rw [DirectSession.unready] at hmem ⊢
      rw [← heq]
      exact hmem
  · replace hold : s.client.extra.isJob = false := hold
    have hnone : s.dc = none := by
      cases hdc : s.dc with
      | none => rfl
      | some d => exact nomatch hold.symm.trans (h.linked (by rw [hdc]; rfl))
    rw [DirectSession.withClient_of_new env hold hnew]
    refine ⟨?_, ?_, hlinks.skipBytes.trans h.skipBytes, ?_, ?_, fun he => (hlinks.live he).2,
      fun _ => hnew, ?_, ?_, h.failed⟩
    · rw [← h.out]
      show (s.dropped.flatMap Extra.queue ++ c.extra.queue).flatten ++ c.inp = _
      rw [hqueue, DirectSession.relayedOut, Extra.queue_of_not_isJob hold, hlinks.inp]
      rfl
    · obtain ⟨rest, hrest, -, hgone⟩ := h.inn
      obtain rfl := hgone hnone herror
      refine ⟨[], ?_, fun d hd => ?_, fun _ _ => rfl⟩
      · rw [← hrest, DirectSession.relayedIn, DirectSession.relayedIn, hnone]
        rfl
      · cases hd
        rfl
    · rw [hlinks.crypto]
      exact h.crypto
    · rw [hlinks.inPacketNum]
      exact h.inPacketNum
    · intro d hd
      cases hd
      exact newDcConn_sound env c
    · intro extra hmem
      obtain rfl := List.mem_singleton.mp hmem
      exact hqueue

/-- **A read of the client.** -/
theorem clientRead (h : SessionSound s) (decrypted : Bytes) (turns : ℕ) :
    SessionSound (sessionClientRead base s decrypted turns) := by
  unfold sessionClientRead
  split_ifs with herror
  · exact h
  · replace herror : s.client.cError = false := by simpa using herror
    split
    · next r hr =>
      have hreads := directClient_reads base (c := s.meet) h.crypto h.skipBytes herror hr
      obtain ⟨m, hqueue, hinp⟩ := hreads.moves.moved
      refine ⟨?_, ?_, hreads.moves.skipBytes.trans h.skipBytes, ?_, ?_, fun _ => ?_, fun hdc => ?_,
        h.dc, ?_, h.failed⟩
      · show (s.dropped.flatMap Extra.queue ++ r.conn.extra.queue).flatten ++ r.conn.inp = _
        have hqueue' : r.conn.extra.queue = s.client.extra.queue ++ m := hqueue
        have hinp' : m.flatten ++ r.conn.inp = s.client.inp ++ decrypted := hinp
        rw [hqueue', ← List.append_assoc, List.flatten_append, List.append_assoc, hinp', ← h.out,
          DirectSession.relayedOut, List.append_assoc]
      · obtain ⟨rest, hrest, hdc, hnone⟩ := h.inn
        exact ⟨rest, hrest, hdc, fun hdc _ => hnone hdc herror⟩
      · rw [hreads.moves.crypto]
        exact h.crypto
      · rw [hreads.moves.rpc]
        exact h.inPacketNum
      · have htype : r.conn.type = s.client.type := hreads.moves.type
        have hdirect := h.direct herror
        unfold Conn.IsDirect at hdirect ⊢
        rw [htype]
        exact hdirect
      · rw [hreads.moves.isJob]
        exact h.linked hdc
      · intro extra hmem
        refine h.unready extra ?_
        unfold DirectSession.unready at hmem ⊢
        cases hdc : s.dc with
        | none =>
          simp only [hdc] at hmem
          exact nomatch hmem
        | some d =>
          simp only [hdc] at hmem ⊢
          split_ifs at hmem ⊢ with hcrypto
          · exact hmem
          · have hwaits : r.conn.extra = s.client.extra := hreads.waits (by
              simp only [DirectSession.meet, Conn.inWorld, Conn.deliver, hdc]
              simpa using hcrypto)
            rw [hwaits] at hmem
            exact hmem
    · exact ⟨h.out, h.inn, h.skipBytes, h.crypto, h.inPacketNum, h.direct, h.linked, h.dc,
        h.unready, h.failed⟩

/-- **What a data centre's connection does to a session**: what arrives is queued for the client
or waits to be. -/
theorem withDc (h : SessionSound s) {d : Conn Unit} (hd : s.dc = some d)
    {c : Conn (Conn (DcWorld X))} (hclient : ClientKept s.meet c.world)
    (hsound : DcSound (c.over ())) (delivered : Bytes)
    (hmoved : c.extra.queue.flatten ++ c.undelivered =
      d.extra.queue.flatten ++ d.undelivered ++ delivered)
    (hready : c.crypto = none → d.crypto = none) :
    SessionSound { s.withDc c with dcStream := s.dcStream ++ delivered } := by
  have hextra : c.world.extra = s.client.extra := by rw [hclient.same]; rfl
  have herror : c.world.cError = s.client.cError := by rw [hclient.same]; rfl
  refine ⟨?_, ?_, ?_, ?_, ?_, fun he => ?_, fun _ => ?_, ?_, ?_, h.failed⟩
  · show (s.dropped.flatMap Extra.queue ++ c.world.extra.queue).flatten ++ c.world.inp = _
    have hinp : c.world.inp = s.client.inp := by rw [hclient.same]; rfl
    rw [hextra, hinp]
    exact h.out
  · obtain ⟨rest, hrest, hdc, -⟩ := h.inn
    obtain rfl := hdc d hd
    refine ⟨c.undelivered, ?_, fun d' hd' => ?_, fun hnone => nomatch hnone⟩
    · show (s.gone.flatMap Extra.queue ++ c.extra.queue).flatten ++ c.undelivered =
        s.dcStream ++ delivered
      rw [List.flatten_append, List.append_assoc, hmoved, ← hrest, DirectSession.relayedIn, hd]
      simp
    · obtain rfl := Option.some.inj hd'
      rfl
  · show c.world.skipBytes = 0
    rcases hclient.skipBytes with heq | hzero
    · rw [heq]
      exact h.skipBytes
    · exact hzero
  · show c.world.crypto.isSome = true
    rw [hclient.same]
    exact h.crypto
  · show c.world.rpc.inPacketNum ≠ -3
    rw [hclient.same]
    exact h.inPacketNum
  · show c.world.IsDirect
    rw [hclient.same]
    exact h.direct (herror.symm.trans he)
  · show c.world.extra.isJob = true
    rw [hextra]
    exact h.linked (by rw [hd]; rfl)
  · intro d' hd'
    obtain rfl := Option.some.inj hd'
    exact hsound
  · intro extra hmem
    refine h.unready extra ?_
    unfold DirectSession.unready at hmem ⊢
    simp only [DirectSession.withDc, hd] at hmem ⊢
    split_ifs at hmem with hcrypto
    · exact nomatch hmem
    · rw [if_neg (by rw [hready (by simpa [Conn.over] using hcrypto)]; exact Bool.false_ne_true)]
      rw [hextra] at hmem
      exact hmem

/-- A connection without a cipher does its part of a handshake. -/
theorem withDc_greets (h : SessionSound s) {d : Conn Unit} (hd : s.dc = some d)
    (hcrypto : d.crypto = none) {c : Conn (Conn (DcWorld X))} (hc : DcGreets (d.over s.meet) c) :
    SessionSound (s.withDc c) := by
  have hsound : DcSound (c.over ()) :=
    ⟨hc.skipBytes, hc.transportMode, hc.waits, fun hsome => (hc.starts hsome).1⟩
  have hold : d.undelivered = [] := by
    rw [Conn.undelivered, hcrypto]
    rfl
  have hnew : c.undelivered = [] := by
    unfold Conn.undelivered
    split_ifs with hsome
    · exact (hc.starts hsome).2
    · rfl
  have hqueue : c.extra.queue = d.extra.queue := congrArg Extra.queue hc.extra
  have hgoal := h.withDc hd hc.client hsound []
    (by simp [hqueue, hold, hnew]) fun _ => hcrypto
  rw [List.append_nil] at hgoal
  exact hgoal

/-- **A read of a data centre.** -/
theorem dcRead (h : SessionSound s) {d : Conn Unit} (hd : s.dc = some d) {raw : Bytes}
    (hsilent : d.crypto = none → SilentBeforeInit d raw) (decrypted : Bytes) (turns : ℕ) :
    SessionSound (sessionDcRead base direct s d raw decrypted turns) := by
  have hsound := h.dc d hd
  unfold sessionDcRead
  by_cases herror : d.cError = true
  · rw [if_pos herror]
    exact h
  · rw [if_neg herror]
    cases hr : jobRun (directDcMethods (sessionDirect base direct) decrypted) (d.over s.meet) [raw]
      turns with
    | error fault =>
      exact ⟨h.out, h.inn, h.skipBytes, h.crypto, h.inPacketNum, h.direct, h.linked, h.dc,
        h.unready, h.failed⟩
    | ok r =>
      cases hcrypto : d.crypto with
      | none =>
        exact h.withDc_greets hd hcrypto (directDc_greets _ hcrypto hsound.transportMode
          hsound.skipBytes (hsound.idle hcrypto) (hsilent hcrypto) hr)
      | some cipher =>
        have hsome : d.crypto.isSome = true := by rw [hcrypto]; rfl
        have hreads := directDc_reads (sessionDirect base direct) (c := d.over s.meet) hsome
          hsound.skipBytes (hsound.done hsome) (Bool.eq_false_iff.mpr herror) hr
        obtain ⟨m, hqueue, hinp⟩ := hreads.moves.moved
        have hcipher : r.conn.crypto = some cipher := hreads.moves.crypto.trans hcrypto
        have hundelivered : r.conn.undelivered = r.conn.inp := by
          rw [Conn.undelivered, hcipher]
          rfl
        have hold : d.undelivered = d.inp := by
          rw [Conn.undelivered, hcrypto]
          rfl
        have hqueue' : r.conn.extra.queue = d.extra.queue ++ m := hqueue
        have hinp' : m.flatten ++ r.conn.inp = d.inp ++ decrypted := hinp
        refine h.withDc hd hreads.client ⟨hreads.moves.skipBytes.trans hsound.skipBytes, ?_, ?_, ?_⟩
          decrypted ?_ ?_
        · show r.conn.transportMode ≠ _
          rw [hreads.moves.transportMode]
          exact hsound.transportMode
        · intro hnone
          exact nomatch hcipher.symm.trans hnone
        · intro _
          show r.conn.rpc.extraInt = 0
          rw [hreads.moves.rpc]
          exact hsound.done hsome
        · rw [hundelivered, hold, hqueue', List.flatten_append, List.append_assoc, hinp',
            List.append_assoc]
        · intro hnone
          exact nomatch hcipher.symm.trans hnone

/-- **A data centre's connection is closed.** -/
theorem dcClose (h : SessionSound s) {d : Conn Unit} (hd : s.dc = some d) :
    SessionSound (sessionDcClose base s d) := by
  have hlinked : s.client.extra.isJob = true := h.linked (by rw [hd]; rfl)
  obtain ⟨hlinks, hextra, hready⟩ := dcClosed_spec (sessionServer base).toOutboundEnv
    (c := s.meet) h.direct hlinked d.crypto.isSome
  unfold sessionDcClose
  generalize dcClosed (sessionServer base).toOutboundEnv s.meet d.crypto.isSome = c at *
  refine ⟨?_, ?_, hlinks.skipBytes.trans h.skipBytes, ?_, ?_, fun he => (hlinks.live he).2,
    (nomatch ·), fun _ hnone => (nomatch hnone), fun _ hmem => (nomatch hmem), ?_⟩
  · have hinp : c.inp = s.client.inp := hlinks.inp
    rw [← h.out]
    unfold DirectSession.relayedOut
    rcases hextra with heq | hnull
    · replace heq : c.extra = s.client.extra := heq
      simp only [heq, if_true, hinp]
    · have hne : Extra.null ≠ s.client.extra := by
        intro heq
        rw [← heq] at hlinked
        exact nomatch hlinked
      have hqueue : Extra.null.queue = [] := rfl
      simp [hnull, if_neg hne, hinp, hqueue]
  · obtain ⟨rest, hrest, hdc, -⟩ := h.inn
    obtain rfl := hdc d hd
    refine ⟨d.undelivered, ?_, fun _ hnone => (nomatch hnone), fun _ he => ?_⟩
    · rw [← hrest]
      simp [DirectSession.relayedIn, hd]
    · rw [Conn.undelivered, hready he]
      rfl
  · rw [hlinks.crypto]
    exact h.crypto
  · rw [hlinks.inPacketNum]
    exact h.inPacketNum
  · intro extra hmem
    rcases List.mem_append.mp hmem with hold | hnew
    · exact h.failed extra hold
    · exact h.unready extra hnew

/-- The client is closed. -/
theorem clientClose (h : SessionSound s) : SessionSound (sessionClientClose s) := by
  unfold sessionClientClose
  refine ⟨?_, ?_, h.skipBytes, h.crypto, h.inPacketNum, (nomatch ·), (nomatch ·),
    fun _ hnone => (nomatch hnone), fun _ hmem => (nomatch hmem), ?_⟩
  · have hqueue : Extra.null.queue = [] := rfl
    rw [← h.out]
    simp [DirectSession.relayedOut, failConnection, hqueue]
  · obtain ⟨rest, hrest, -, -⟩ := h.inn
    refine ⟨rest, ?_, fun _ hnone => (nomatch hnone), fun _ he => (nomatch he)⟩
    rw [← hrest]
    cases hd : s.dc <;> simp [DirectSession.relayedIn, hd]
  · intro extra hmem
    rcases List.mem_append.mp hmem with hold | hnew
    · exact h.failed extra hold
    · exact h.unready extra hnew

/-- A data centre's connection may be read again. -/
theorem dcAlarm (h : SessionSound s) :
    SessionSound
      { s with dc := s.dc.map fun d => { d with cStopRead := false, timer := none } } := by
  cases hd : s.dc with
  | none =>
    rw [Option.map_none, ← hd]
    exact h
  | some d =>
    have hsound := h.dc d hd
    have hgoal := h.withDc hd (c := ({ d with cStopRead := false, timer := none } : Conn Unit).over
      s.meet) (.refl _) ⟨hsound.skipBytes, hsound.transportMode, hsound.idle, hsound.done⟩
      [] (List.append_nil _).symm id
    rw [List.append_nil] at hgoal
    exact hgoal.inWorld s.client.world

/-- **What one event does.** -/
theorem step (h : SessionSound s) (e : SessionEvent X) (hsilent : DcSilent s e) :
    SessionSound (sessionStep base direct s e) := by
  unfold sessionStep
  by_cases hfault : s.fault = true
  · rw [if_pos hfault]
    exact h
  · rw [if_neg hfault]
    cases e with
    | elsewhere x => exact h.inWorld _
    | clientRead decrypted turns => exact h.clientRead decrypted turns
    | clientAlarm =>
      exact h.withClient _ (jsAlarm_links base (c := s.meet) h.direct h.inPacketNum)
    | clientClose => exact h.clientClose
    | dcConnected =>
      cases hd : s.dc with
      | none => exact h
      | some d =>
        dsimp only
        split_ifs with hother
        · exact h
        · obtain ⟨hcrypto, hdone, -⟩ : ¬ d.crypto.isSome = true ∧ d.rpc.extraInt = SOCKS5_NONE ∧
              ¬ d.cError = true := by tauto
          have hsound := h.dc d hd
          have hnone : d.crypto = none := by simpa using hcrypto
          exact h.withDc_greets hd hnone (tcpDirectDcConnected_greets _ _ hnone
            hsound.transportMode hsound.skipBytes (hsound.idle hnone hdone) hdone)
    | dcRead raw decrypted turns =>
      cases hd : s.dc with
      | none => exact h
      | some d => exact h.dcRead hd (hsilent raw decrypted turns d rfl hd) decrypted turns
    | dcAlarm => exact h.dcAlarm
    | dcClose =>
      cases hd : s.dc with
      | none => exact h
      | some d => exact h.dcClose hd

end SessionSound

/-- A client as `direct_connect_to_dc` finds it: its obfuscated2 header has been accepted. -/
structure AtSession {W : Type*} (c : Conn W) : Prop where
  crypto : c.crypto.isSome = true
  skipBytes : c.skipBytes = 0
  inPacketNum : c.rpc.inPacketNum = 0
  extra : c.extra.isJob = false

/-- **The clients of direct mode**: a client whose header a secret opens fails, or comes to
`direct_connect_to_dc` with its cipher. -/
theorem acceptObfs2_atSession {W : Type*} {env : ExtServerEnv W} (hmode : env.directMode = true)
    {c d : Conn W} (hskip : c.skipBytes = 0) (hextra : c.extra.isJob = false)
    {pr : Obfs2ParseResult} {slot : ℕ} {res : ℤ}
    (h : acceptObfs2 env pr slot c = .error (.ret d res)) :
    d.cError = true ∨ ∃ e, AtSession e ∧ d = directConnectToDc env.toOutboundEnv e := by
  unfold acceptObfs2 at h
  cases hdec : cpuTcpAesCryptoCtr128DecryptInput (startCrypto env c pr) with
  | error a =>
    rw [hdec] at h
    cases h
  | ok p =>
    obtain ⟨e, r⟩ := p
    have hframe := cpuTcpAesCryptoCtr128DecryptInput_frame hdec
    have hcrypto : e.crypto.isSome = true := hframe.crypto rfl
    have hskip' : e.skipBytes = 0 := by
      rw [hframe.rest]
      exact hskip
    have hnum : e.rpc.inPacketNum = 0 := by
      rw [hframe.rest]
      rfl
    have hextra' : e.extra.isJob = false := by
      rw [hframe.rest]
      exact hextra
    simp only [hdec] at h
    split_ifs at h with hr
    · cases h
      exact Or.inl rfl
    · rcases hslot : admitSlot env slot (setTarget e pr slot) with exit | f
      · rw [hslot] at h
        cases h
        unfold admitSlot at hslot
        split_ifs at hslot
        split at hslot
        · cases hslot
        · cases hslot
          exact Or.inl rfl
      · rw [hslot] at h
        have hworld : f = (setTarget e pr slot).over f.world := by
          unfold admitSlot at hslot
          split_ifs at hslot
          · cases hslot
            rfl
          · split at hslot
            · cases hslot
              rfl
            · cases hslot
        simp only [Except.bind, enterSession, hmode, if_true] at h
        cases h
        refine Or.inr ⟨_, ⟨?_, ?_, ?_, ?_⟩, rfl⟩
        all_goals rw [hworld]
        · exact hcrypto
        · exact hskip'
        · exact hnum
        · exact hextra'

/-- **A session begins well.** -/
theorem SessionSound.start (base : ExtServerEnv X) (direct : DirectEnv X) {c : Conn (DcWorld X)}
    (h : AtSession c) : SessionSound (startSession base direct c) := by
  let s : DirectSession X :=
    ⟨{ c with cError := false, type := .directClient }, none, c.inp, [], [], [], [], false⟩
  have hs : SessionSound s := by
    refine ⟨?_, ⟨[], rfl, fun _ hnone => (nomatch hnone), fun _ _ => rfl⟩, h.skipBytes, h.crypto,
      ?_, fun _ => Or.inl rfl, (nomatch ·), fun _ hnone => (nomatch hnone),
      fun _ hmem => (nomatch hmem), fun _ hmem => (nomatch hmem)⟩
    · show c.extra.queue.flatten ++ c.inp = c.inp
      rw [Extra.queue_of_not_isJob h.extra]
      rfl
    · show c.rpc.inPacketNum ≠ -3
      rw [h.inPacketNum]
      decide
  have hlinks := directConnectToDc_links base h.extra
  exact hs.withClient (sessionDirect base direct) ⟨hlinks.inp, hlinks.skipBytes, hlinks.crypto,
    hlinks.inPacketNum, hlinks.live, hlinks.extra⟩

/-- What a session is worth: what is queued for data centres is the beginning of the client's
stream, whose rest is still in `in`; what is queued for the client is the beginning of the data
centre's; and a connection that failed before its init was sent nothing. -/
structure StreamPreserved (s : DirectSession X) : Prop where
  out : s.relayedOut ++ s.client.inp = s.clientStream
  inn : s.relayedIn <+: s.dcStream
  failed : ∀ extra ∈ s.failed, extra.queue = []

theorem SessionSound.preserved {s : DirectSession X} (h : SessionSound s) : StreamPreserved s := by
  obtain ⟨rest, hrest, -, -⟩ := h.inn
  exact ⟨h.out, ⟨rest, hrest⟩, h.failed⟩

/-- **The relay preserves both streams.** -/
theorem directRelay_preserved (base : ExtServerEnv X) (direct : DirectEnv X) (c : Conn (DcWorld X))
    (h : AtSession c) (es : List (SessionEvent X))
    (hsilent : Along (sessionStep base direct) DcSilent (startSession base direct c) es) :
    Throughout (sessionStep base direct) StreamPreserved (startSession base direct c) es :=
  (throughout_of_along (fun _ e hs he => hs.step e he) (SessionSound.start base direct h)
    hsilent).imp fun _ => SessionSound.preserved

/-- Surroundings in which a data centre is reached at once. -/
def reachableServer : ExtServerEnv Unit :=
  { readyServer with
    directDcKnown := fun _ _ => true
    directTryDcAddrs := fun w _ => (some ⟨1, [], 443, []⟩, w) }

/-- A client whose header has just been accepted, with two bytes behind it. -/
def acceptedClient : Conn (DcWorld Unit) :=
  { Conn.allocated ⟨0x7f000001, [], 50000, false⟩ 443 ⟨false, ()⟩ with
    crypto := some ⟨⟨fun _ => 0, 66⟩, ⟨fun _ => 0, 0⟩⟩
    inp := [1, 2]
    rpc := ⟨⟨false, false, false, false, false⟩, 0, 0, 0, 0, 2⟩ }

/-- Bytes wait for the data centre, are relayed once it has its init, and are answered. -/
theorem directRelay_preserved_sample :
    Throughout (sessionStep reachableServer readyDirect) StreamPreserved
      (startSession reachableServer readyDirect acceptedClient)
      [.clientRead [3] 1, .dcConnected, .clientRead [4] 1, .dcRead [] [5, 6] 1] := by
  refine directRelay_preserved _ _ _ ⟨rfl, rfl, rfl, rfl⟩ _ ⟨?_, ?_, ?_, ?_, trivial⟩
  · exact fun _ _ _ _ h => (nomatch h)
  · exact fun _ _ _ _ h => (nomatch h)
  · exact fun _ _ _ _ h => (nomatch h)
  · intro raw decrypted turns d _ hd hnone
    cases hd
    exact nomatch hnone

end Server
end Teleproto3
