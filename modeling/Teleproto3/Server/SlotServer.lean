/-
# A server and its clients

All clients of one server, whose connections share the table of secrets and the counters: what
registers secrets and reloads them, accepts, reads, parses and closes, wakes a connection by its
timer, ends the connection to a data centre, and sweeps what drains.

Each client's part is the model of one connection over a world that holds the table.  Between
two calls of `parse_execute` everything that reading, decrypting and writing change is
arbitrary; so are the clock, the bytes relayed, and what the table does not hold.
-/

import Teleproto3.Lib.Tally
import Teleproto3.Server.Alarm
import Teleproto3.Server.SecretTable

namespace Teleproto3
namespace Server

open Lib

/-! ### The world the connections share -/

/-- The table of secrets, `direct_dc_connections_active`, the clock, and whatever else there is.
`counted` is a record of the connections counted so far: the slot, and whether the slot passed
its checks at that moment. -/
structure SlotWorld (X : Type*) where
  table : SecretTable
  active : ℤ
  now : ℤ
  preciseNow : ℚ
  rest : X
  counted : List (ℕ × Bool)

variable {X : Type*}

/-- What a function of the rest gives, with the world after it. -/
def SlotWorld.within {α : Type*} (w : SlotWorld X) (r : α × X) : α × SlotWorld X :=
  (r.1, { w with rest := r.2 })

/-- The entry of one slot is replaced. -/
def SlotWorld.setSlot (w : SlotWorld X) (s : ℕ) (x : SecretSlot) : SlotWorld X :=
  { w with table := w.table.set s x }

/-- The surroundings of a connection whose secrets are in the table: the checks of a slot, the
counting of a connection and of its bytes act on the table, everything else on the rest. -/
def slotServer (workers : ℕ) (base : ExtServerEnv X) : ExtServerEnv (SlotWorld X) where
  ksState w := base.ksState w.rest
  sampleDelayNs w := w.within (base.sampleDelayNs w.rest)
  preciseNow w := w.preciseNow
  clientSocket w ip ipv6 port := w.within (base.clientSocket w.rest ip ipv6 port)
  allocNewConnection w := w.within (base.allocNewConnection w.rest)
  directDcKnown w dc := base.directDcKnown w.rest dc
  directTryDcAddrs w dc :=
    let (e, w) := w.within (base.directTryDcAddrs w.rest dc)
    -- `direct_dc_connections_active` counts the connections that were opened.
    (e, { w with active := if e.isSome then w.active + 1 else w.active })
  dcReady w := base.dcReady w.rest
  accountBytes w s _ n :=
    let x := { w.table.slot s with bytesReceived := (w.table.slot s).bytesReceived + n }
    (decide (x.OverQuota workers), w.setSlot s x)
  rateLimitAfterRelay w s remote n := w.within (base.rateLimitAfterRelay w.rest s remote n)
  prim := base.prim
  acceptKey := base.acceptKey
  secrets w := w.table.secrets
  extRandPadOnly := base.extRandPadOnly
  defaultDomainInfo := base.defaultDomainInfo
  directMode := base.directMode
  proxyProtocolParse := base.proxyProtocolParse
  ipAclCheck := base.ipAclCheck
  getSniDomainInfo := base.getSniDomainInfo
  haveClientRandom w random := base.haveClientRandom w.rest random
  addClientRandom w random := { w with rest := base.addClientRandom w.rest random }
  sha256Hmac := base.sha256Hmac
  isAllowedTimestamp w timestamp := base.isAllowedTimestamp w.rest timestamp
  parseClientHelloCiphers := base.parseClientHelloCiphers
  serverHello w info random hello cipherSuiteId key :=
    w.within (base.serverHello w.rest info random hello cipherSuiteId key)
  admits w s remote := (decide ((w.table.slot s).Admissible workers w.now remote), w)
  countConnection w s remote :=
    { w.setSlot s ((w.table.slot s).connect remote) with
      counted := w.counted ++ [(s, decide ((w.table.slot s).Admissible workers w.now remote))] }
  staleSlot := base.staleSlot
  scheduleExecute w msg flags := { w with rest := base.scheduleExecute w.rest msg flags }

/-! ### The end of a connection -/

/-- The slot `extra_int2` stands for. -/
def Conn.secretSlot {W : Type*} (c : Conn W) : Option ℕ :=
  if 0 < c.rpc.extraInt2 ∧ c.rpc.extraInt2 ≤ EXT_SECRET_MAX_SLOTS then some (c.rpc.extraInt2 - 1)
  else none

/-- A client whose bytes go to a data centre. -/
def Conn.IsDirect {W : Type*} (c : Conn W) : Prop :=
  c.type = .directClient ∨ c.type = .directClientDrs

instance {W : Type*} (c : Conn W) : Decidable c.IsDirect := by
  unfold Conn.IsDirect
  infer_instance

/-- `mtproto_ext_rpc_close`, which `close` of the external server's types has called. -/
def mtprotoExtRpcClose (c : Conn (SlotWorld X)) : SlotWorld X :=
  match c.secretSlot with
  | some s => c.world.setSlot s ((c.world.table.slot s).disconnect c.remote)
  | none => c.world

/-- What `tcp_direct_close` does to the counters for a client. -/
def tcpDirectClose (c : Conn (SlotWorld X)) : SlotWorld X :=
  if c.world.active > 0 then
    mtprotoExtRpcClose { c with world := { c.world with active := c.world.active - 1 } }
  else c.world

/-- `c->type->close`. -/
def clientClose (c : Conn (SlotWorld X)) : SlotWorld X :=
  match c.type with
  | .rpcExtServer | .rpcExtServerDrs => mtprotoExtRpcClose c
  | .directClient | .directClientDrs => tcpDirectClose c
  | .proxyPass => c.world

/-- `fail_connection` of `tcp_direct_close` on what `extra` points to: for the methods of the
listening socket, an access to memory that is no connection. -/
def closeFault (c : Conn (SlotWorld X)) : Option Abort :=
  if c.IsDirect ∧ c.extra = .methods then some .methodsAsJob else none

/-- `tcp_direct_close` of the connection to the data centre, as the client sees it.  Before the
cipher of that connection is set up, another attempt is scheduled as long as there are any left. -/
def dcClosed {W : Type*} (env : OutboundEnv W) (c : Conn W) (ready : Bool) : Conn W :=
  match c.extra with
  | .job _ =>
    if ¬ c.IsDirect then c
    else if ready = false ∧ c.rpc.extraInt < DIRECT_MAX_RETRIES then
      directScheduleRetry env { c with extra := .null } c.rpc.extraInt
    else failConnection c (-23)
  | .null | .methods => c

/-! ### The server -/

/-- What the connection keeps between two calls of `parse_execute`, with everything that reading,
decrypting and writing change taken from `d`. -/
def Conn.keepSession {W : Type*} (c d : Conn W) : Conn W :=
  { d with
    rpc := c.rpc
    type := c.type
    extra := c.extra
    log := c.log
    cIsTls := c.cIsTls
    cProxyProtocol := c.cProxyProtocol
    remote := c.remote
    ourPort := c.ourPort
    world := c.world }

/-- The connection in the world as it is. -/
def Conn.inWorld {W : Type*} (c : Conn W) (w : W) : Conn W := { c with world := w }

/-- What happens to a server. -/
inductive SlotEvent (X : Type*)
  /-- `tcp_rpcs_set_ext_secret` -/
  | register (cfg : SecretConfig)
  /-- `tcp_rpcs_pin_ext_secrets`, behind which clients are served -/
  | start
  /-- the clock moves, and so may everything the table does not hold -/
  | tick (now : ℤ) (preciseNow : ℚ) (rest : X)
  /-- bytes are relayed under a slot -/
  | traffic (s : ℕ) (received sent : ℤ)
  | accept (remote : RemoteAddr) (ourPort : ℕ)
  | read (i : ℕ) (d : Conn (SlotWorld X))
  | parse (i : ℕ)
  | alarm (i : ℕ)
  /-- the connection to the client's data centre is closed, with its cipher set up or without -/
  | dcClose (i : ℕ) (ready : Bool)
  | close (i : ℕ)
  | reload (cfgs : List SecretConfig)
  | sweep (timeout : ℚ)

/-- The server.  A fault, which is a failed assertion or an access to memory that is none, ends
its run. -/
structure SlotServer (X : Type*) where
  started : Bool
  world : SlotWorld X
  clients : List (Conn (SlotWorld X))
  fault : Option Abort

namespace SlotServer

/-- The server as the program starts. -/
def start (now : ℤ) (preciseNow : ℚ) (rest : X) : SlotServer X :=
  ⟨false, ⟨SecretTable.empty, 0, now, preciseNow, rest, []⟩, [], none⟩

/-- The table is replaced. -/
def withTable (s : SlotServer X) (t : SecretTable) : SlotServer X :=
  { s with world := { s.world with table := t } }

/-- A client's connection is replaced. -/
def put (s : SlotServer X) (i : ℕ) (c : Conn (SlotWorld X)) : SlotServer X :=
  { s with world := c.world, clients := s.clients.set i c }

/-- What becomes of a server when something happens to one of its clients. -/
def atClient (s : SlotServer X) (i : ℕ) (f : Conn (SlotWorld X) → SlotServer X) : SlotServer X :=
  match s.clients[i]? with
  | some c => f (c.inWorld s.world)
  | none => s

end SlotServer

/-- The connections of the slots a sweep has given up waiting for are failed. -/
def tcpRpcsDrainForceClose {W : Type*} (forced : List ℕ) (c : Conn W) : Conn W :=
  match c.secretSlot with
  | some s => if s ∈ forced then failConnection c (-500) else c
  | none => c

section Step

variable (workers : ℕ) (base : ExtServerEnv X) (proxyProtocolEnabled : Bool)

/-- An event before the server serves. -/
def slotSetup (s : SlotServer X) : SlotEvent X → SlotServer X
  | .register cfg =>
    -- The assertion of `tcp_rpcs_set_ext_secret`.
    if s.world.table.cnt < EXT_SECRET_MAX_ACTIVE then
      s.withTable (tcpRpcsSetExtSecret s.world.table cfg)
    else s
  | .start => { s.withTable (tcpRpcsPinExtSecrets s.world.table) with started := true }
  | _ => s

/-- A call of `parse_execute`. -/
def slotParse (s : SlotServer X) (i : ℕ) (c : Conn (SlotWorld X)) : SlotServer X :=
  match clientParseExecute (slotServer workers base) c with
  | .ok (c, _) => s.put i c
  | .error a => { s with fault := some a }

/-- An event of a server that serves. -/
def slotServe (s : SlotServer X) : SlotEvent X → SlotServer X
  | .register _ | .start => s
  | .tick now preciseNow rest =>
    { s with world := { s.world with now := now, preciseNow := preciseNow, rest := rest } }
  | .traffic r received sent =>
    s.withTable (s.world.table.set r
      { s.world.table.slot r with bytesReceived := received, bytesSent := sent })
  | .accept remote ourPort =>
    { s with
      clients := s.clients ++ [tcpRpcsExtInitAccepted (slotServer workers base) proxyProtocolEnabled
        (Conn.allocated remote ourPort s.world)] }
  | .read i d => s.atClient i fun c => s.put i (c.keepSession d)
  | .parse i => s.atClient i fun c => slotParse workers base s i c
  | .alarm i => s.atClient i fun c => s.put i (jsAlarm (slotServer workers base) c)
  | .dcClose i ready =>
    s.atClient i fun c => s.put i (dcClosed (slotServer workers base).toOutboundEnv c ready)
  | .close i =>
    s.atClient i fun c =>
      { s with world := clientClose c, clients := s.clients.eraseIdx i, fault := closeFault c }
  | .reload cfgs =>
    s.withTable (tcpRpcsReloadExtSecrets s.world.table s.world.preciseNow cfgs).1
  | .sweep timeout =>
    let (table, forced) := drainSweepGw s.world.table s.world.preciseNow timeout
    { s.withTable table with clients := s.clients.map (tcpRpcsDrainForceClose forced) }

/-- One event. -/
def slotStep (s : SlotServer X) (e : SlotEvent X) : SlotServer X :=
  if s.fault.isSome then s
  else if s.started then slotServe workers base proxyProtocolEnabled s e
  else slotSetup s e

end Step

end Server
end Teleproto3
