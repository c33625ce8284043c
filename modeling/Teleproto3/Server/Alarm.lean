/-
# Timers

The `alarm` methods of the types a client's connection passes through, from
`server/src/net/net-tcp-rpc-ext-server.c` and `net-tcp-direct-dc.c`, and `JS_ALARM` of
`do_connection_job`.

A connection has one timer for all that waits: the handshake, the header of the PROXY protocol,
a silent close, a pause for a rate limit, and the next attempt at a data centre.  What it was
set for is told from the state it is found in.  The delays between TLS records, which
`drs_alarm` ends by writing on, are left out with `drs_state`.
-/

import Teleproto3.Server.ParseLoop

namespace Teleproto3
namespace Server

open Lib

variable {W : Type*} (env : ExtServerEnv W)

/-- `rate_limit_resume`: reading goes on, where it was paused. -/
def rateLimitResume (c : Conn W) : Option (Conn W) :=
  if c.cStopRead then some { c with cStopRead := false } else none

/-- `tcp_rpcs_ext_alarm`. -/
def tcpRpcsExtAlarm (c : Conn W) : Conn W :=
  if c.cProxyProtocol then failConnection c (-1)
  else
    match env.defaultDomainInfo with
    | some dflt =>
      if c.rpc.inPacketNum = -3 then proxyConnection env.toOutboundEnv c dflt else c
    | none => c

/-- `tcp_rpcs_ext_drs_alarm`. -/
def tcpRpcsExtDrsAlarm (c : Conn W) : Conn W :=
  match rateLimitResume c with
  | some c => c
  | none =>
    if c.type = .directClientDrs ∧ c.extra = .null ∧ 0 < c.rpc.extraInt then
      directRetryDcConnection env.toOutboundEnv c
    else tcpRpcsExtAlarm env c

/-- `tcp_direct_client_alarm`. -/
def tcpDirectClientAlarm (c : Conn W) : Conn W :=
  match rateLimitResume c with
  | some c => c
  | none =>
    if c.extra = .null ∧ 0 < c.rpc.extraInt then directRetryDcConnection env.toOutboundEnv c else c

/-- `c->type->alarm`. -/
def clientAlarm (c : Conn W) : Conn W :=
  match c.type with
  | .rpcExtServer => tcpRpcsExtAlarm env c
  | .rpcExtServerDrs | .directClientDrs => tcpRpcsExtDrsAlarm env c
  | .directClient => tcpDirectClientAlarm env c
  | .proxyPass => c

/-- `JS_ALARM`, when the timer is due.  A connection that failed has no alarm. -/
def jsAlarm (c : Conn W) : Conn W :=
  if c.cError then { c with timer := none } else clientAlarm env { c with timer := none }

end Server
end Teleproto3
