/-
# The connections the server opens for a client

`proxy_connection` and the `proxypass` type of `server/src/net/net-tcp-rpc-ext-server.c`, and
the client's half of the relay to a data centre in `net-tcp-direct-dc.c`.

Sockets, the table of data centres, the counters behind the quotas and the token
buckets behind the rate limits are functions of the world.
-/

import Teleproto3.Server.Dispatch

namespace Teleproto3
namespace Server

open Lib

/-- `struct domain_info`, as far as a connection to it needs it. -/
structure DomainInfo where
  port : ℕ
  /-- `target`, 0 where there is none -/
  target : ℕ
  targetIpv6 : Bytes
  deriving DecidableEq, Repr

/-- `EXT_SECRET_MAX_SLOTS`. -/
def EXT_SECRET_MAX_SLOTS : ℕ := 32

/-- `DIRECT_MAX_RETRIES`. -/
def DIRECT_MAX_RETRIES : ℕ := 3

/-- `DIRECT_RETRY_BASE_SEC`. -/
def DIRECT_RETRY_BASE_SEC : ℚ := 2 / 10

/-- What the outbound connections take from their surroundings. -/
structure OutboundEnv (W : Type*) extends DispatchEnv W where
  /-- `client_socket` and `client_socket_ipv6`: whether there is a socket -/
  clientSocket : W → ℕ → Bytes → ℕ → Bool × W
  /-- `alloc_new_connection`: whether there is a connection -/
  allocNewConnection : W → Bool × W
  /-- whether `direct_dc_lookup` finds the data centre -/
  directDcKnown : W → ℤ → Bool
  /-- `direct_try_dc_addrs` -/
  directTryDcAddrs : W → ℤ → Option Outbound × W
  /-- whether the data centre's connection has its cipher -/
  dcReady : W → Bool
  /-- the counters after so many bytes from this slot and address, and `secret_over_quota` -/
  accountBytes : W → ℕ → RemoteAddr → ℕ → Bool × W
  /-- the delay `rate_limit_after_relay` asks for, if any -/
  rateLimitAfterRelay : W → ℕ → RemoteAddr → ℕ → Option ℚ × W

variable {W : Type*} (env : OutboundEnv W)

/-! ### The proxy to a decoy -/

/-- The bytes in `in` are queued on the outbound connection. -/
def relayTo (c : Conn W) (e : Outbound) : Conn W :=
  { c with inp := [], extra := .job { e with outQueue := e.outQueue ++ [c.inp] } }

/-- `tcp_proxy_pass_parse_execute`, which always returns 0.  A connection gets this type together
with the connection behind `extra`. -/
def tcpProxyPassParseExecute (c : Conn W) : Conn W :=
  match c.extra with
  | .null | .methods => failConnection c (-1)
  | .job e => relayTo c e

/-- The port at the decoy. -/
def proxyPort (c : Conn W) (info : DomainInfo) : ℕ := if c.ourPort = 80 then 80 else info.port

/-- `proxy_connection`, which always returns 0. -/
def proxyConnection (c : Conn W) (info : DomainInfo) : Conn W :=
  let c := { c with rpc := { c.rpc with extraInt2 := 0 } }
  if info.target = 0 ∧ info.targetIpv6 = List.replicate 16 0 then failConnection c (-17)
  else
    let port := proxyPort c info
    let (opened, world) := env.clientSocket c.world info.target info.targetIpv6 port
    let c := { c with world := world }
    if opened = false then failConnection c (-27)
    else
      let (allocated, world) := env.allocNewConnection c.world
      let c := { c with crypto := none, world := world }
      if allocated = false then failConnection c (-37)
      else
        tcpProxyPassParseExecute
          { c with type := .proxyPass, extra := .job ⟨info.target, info.targetIpv6, port, []⟩ }

/-! ### The relay to a data centre -/

/-- `direct_schedule_retry`. -/
def directScheduleRetry (c : Conn W) (attempt : ℕ) : Conn W :=
  if attempt ≥ DIRECT_MAX_RETRIES then failConnection c (-27)
  else
    { c with
      rpc := { c.rpc with extraInt := attempt + 1 }
      timer := some (env.preciseNow c.world + DIRECT_RETRY_BASE_SEC * 2 ^ attempt) }

/-- The type of a client whose bytes go to a data centre. -/
def directClientType (c : Conn W) : ConnType :=
  if c.cIsTls then .directClientDrs else .directClient

/-- `direct_connect_to_dc`, which always returns 0. -/
def directConnectToDc (c : Conn W) : Conn W :=
  if env.directDcKnown c.world c.rpc.extraInt4 = false then failConnection c (-1)
  else
    let c := { c with type := directClientType c }
    match env.directTryDcAddrs c.world c.rpc.extraInt4 with
    | (none, world) => directScheduleRetry env { c with world := world } 0
    | (some e, world) => { c with world := world, extra := .job e }

/-- `direct_retry_dc_connection`. -/
def directRetryDcConnection (c : Conn W) : Conn W :=
  if env.directDcKnown c.world c.rpc.extraInt4 = false then
    failConnection { c with rpc := { c.rpc with extraInt := 0 } } (-1)
  else
    match env.directTryDcAddrs c.world c.rpc.extraInt4 with
    | (none, world) => directScheduleRetry env { c with world := world } c.rpc.extraInt
    | (some e, world) =>
      { c with world := world, extra := .job e, rpc := { c.rpc with extraInt := 0 } }

/-- `rate_limit_after_relay` on what it found in the token bucket. -/
def pauseFor (c : Conn W) : Option ℚ → Conn W
  | none => c
  | some delay =>
    { c with cStopRead := true, timer := some (env.preciseNow c.world + delay) }

/-- `tcp_direct_client_parse_execute`. -/
def tcpDirectClientParseExecute (c : Conn W) : Except Abort (Conn W × ℤ) :=
  match c.extra with
  | .null =>
    if c.rpc.extraInt > 0 then .ok (c, NEED_MORE_BYTES) else .ok (failConnection c (-1), 0)
  | .methods => .error .methodsAsJob
  | .job e =>
    if env.dcReady c.world = false then .ok (c, NEED_MORE_BYTES)
    else
      let sid := c.rpc.extraInt2
      if 0 < sid ∧ sid ≤ EXT_SECRET_MAX_SLOTS ∧ 0 < c.inp.length then
        let (overQuota, world) := env.accountBytes c.world (sid - 1) c.remote c.inp.length
        let c' := { c with world := world }
        if overQuota then .ok (failConnection c' (-1), 0)
        else
          let (delay, world) := env.rateLimitAfterRelay world (sid - 1) c.remote c.inp.length
          .ok (pauseFor env (relayTo { c' with world := world } e) delay, 0)
      else .ok (relayTo c e, 0)

end Server
end Teleproto3
