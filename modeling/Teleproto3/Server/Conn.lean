/-
# The server's connection object

`struct connection_info` of `server/src/net/net-connections.h` with the `struct
tcp_rpc_data` that lives in its `custom_data`, as far as the modelled functions use
them, and `fail_connection`.

What surrounds a connection (the clock, the random numbers, the per-secret counters,
the cache of client randoms) is the field `world`, of any type.  `log` is not in the
source: it records what each protocol stage was handed, so that theorems can speak
about it.
-/

import Mathlib.Algebra.Order.Field.Rat
import Teleproto3.Lib.Keystream

namespace Teleproto3
namespace Server

open Lib

/-- `NEED_MORE_BYTES`. -/
def NEED_MORE_BYTES : ℤ := 0x7FFFFFFF

/-- `SKIP_ALL_BYTES`: the smallest `int`. -/
def SKIP_ALL_BYTES : ℤ := -2 ^ 31

/-- What `parse_execute` returns on a 64-byte header that no secret opens,
`(int)0xF0000000u`. -/
def GLOBAL_SKIP : ℤ := -2 ^ 28

/-- `T3_PRECRYPTO_BYTES`: the Session Header and the obfuscated2 header. -/
def T3_PRECRYPTO_BYTES : ℕ := 68

/-- `WS_STATE_NONE`, `WS_STATE_HANDSHAKE`, `WS_STATE_ACTIVE`. -/
inductive WsState
  | none
  | handshake
  | active
  deriving DecidableEq, Repr

/-- `TRANSPORT_MODE_WS`, `TRANSPORT_MODE_HTTP_STREAM`, `TRANSPORT_MODE_HTTP_STREAM_RAW`. -/
inductive TransportMode
  | ws
  | httpStream
  | httpStreamRaw
  deriving DecidableEq, Repr

/-- `http_chunk_header_state`: 0, 1 and 2. -/
inductive ChunkState
  | needHeader
  | inPayload
  | needCrlf
  deriving DecidableEq, Repr

/-- The `conn_type_t` objects a client's connection passes through. -/
inductive ConnType
  | rpcExtServer
  | rpcExtServerDrs
  | directClient
  | directClientDrs
  | proxyPass
  deriving DecidableEq, Repr

/-- `conn_working`, `conn_write_close`, `conn_error`. -/
inductive ConnStatus
  | working
  | writeClose
  | error
  deriving DecidableEq, Repr

/-- `struct aes_key_data`. -/
structure AesKeyData where
  readKey : Bytes
  readIv : Bytes
  writeKey : Bytes
  writeIv : Bytes
  deriving DecidableEq, Repr

/-- `struct aes_crypto`: the two cipher contexts. -/
structure AesCrypto where
  read : CtrContext
  write : CtrContext

/-- The outbound connection behind `c->extra`, with what was queued on it. -/
structure Outbound where
  targetIp : ℕ
  targetIpv6 : Bytes
  port : ℕ
  outQueue : List Bytes
  deriving DecidableEq, Repr

/-- What `c->extra` points to: nothing, the methods of the listening socket, which every accepted
connection starts with, or another connection. -/
inductive Extra
  | null
  | methods
  | job (e : Outbound)
  deriving DecidableEq, Repr

/-- The bits `RPC_F_COMPACT`, `RPC_F_MEDIUM`, `RPC_F_PAD`, `RPC_F_QUICKACK` and
`RPC_F_EXTMODE2` of `D->flags`. -/
structure RpcFlags where
  compact : Bool
  medium : Bool
  pad : Bool
  quickack : Bool
  extmode2 : Bool
  deriving DecidableEq, Repr

/-- `struct tcp_rpc_data`.  `extra_int` counts the attempts at a data centre, `extra_int2` is
the slot of the secret plus one, `extra_int3` the transport tag, `extra_int4` the data
centre. -/
structure RpcData where
  flags : RpcFlags
  inPacketNum : ℤ
  extraInt : ℕ
  extraInt2 : ℕ
  extraInt3 : ℕ
  extraInt4 : ℤ
  deriving DecidableEq, Repr

/-- `remote_ip`, `remote_ipv6`, `remote_port` and the flag `C_IPV6`. -/
structure RemoteAddr where
  ip : ℕ
  ipv6 : Bytes
  port : ℕ
  isIpv6 : Bool
  deriving DecidableEq, Repr

/-- What a protocol stage was handed. -/
inductive StageEvent
  | sessionHeader (header : Bytes)
  | proxyHeader (consumed : Bytes)
  | clientHello (hello : Bytes)
  | obfs2Header (block : Bytes)
  | cryptoInit (keys : AesKeyData)
  | packet (payload : Bytes)
  deriving DecidableEq, Repr

/-- `struct connection_info`.  The `C_` flags are fields of their own. -/
structure Conn (W : Type*) where
  cError : Bool
  cFailed : Bool
  cNetFailed : Bool
  cStopRead : Bool
  cStopParse : Bool
  cIsTls : Bool
  cProxyProtocol : Bool
  cWantWr : Bool
  status : ConnStatus
  error : ℤ
  type : ConnType
  extra : Extra
  /-- `c->crypto`, null before the obfuscated2 header has been accepted -/
  crypto : Option AesCrypto
  skipBytes : ℤ
  /-- `c->in` -/
  inp : Bytes
  inU : Bytes
  out : Bytes
  outP : Bytes
  outQueue : List Bytes
  leftTlsPacketLength : ℤ
  wsState : WsState
  wsFrameRemaining : ℕ
  wsMask : Bytes
  wsMaskOffset : ℕ
  transportMode : TransportMode
  httpChunkRemaining : ℕ
  httpChunkHeaderState : ChunkState
  remote : RemoteAddr
  ourPort : ℕ
  rpc : RpcData
  /-- when `alarm` is due -/
  timer : Option ℚ
  world : W
  log : List StageEvent

variable {W : Type*}

/-- A connection as `alloc_new_connection` leaves one it accepted: every field zero but the
addresses and `extra`, and working. -/
def Conn.allocated (remote : RemoteAddr) (ourPort : ℕ) (world : W) : Conn W where
  cError := false
  cFailed := false
  cNetFailed := false
  cStopRead := false
  cStopParse := false
  cIsTls := false
  cProxyProtocol := false
  cWantWr := false
  status := .working
  error := 0
  type := .rpcExtServer
  extra := .methods
  crypto := none
  skipBytes := 0
  inp := []
  inU := []
  out := []
  outP := []
  outQueue := []
  leftTlsPacketLength := 0
  wsState := .none
  wsFrameRemaining := 0
  wsMask := []
  wsMaskOffset := 0
  transportMode := .ws
  httpChunkRemaining := 0
  httpChunkHeaderState := .needHeader
  remote := remote
  ourPort := ourPort
  rpc := ⟨⟨false, false, false, false, false⟩, 0, 0, 0, 0, 0⟩
  timer := none
  world := world
  log := []

/-- `fail_connection`: `C_ERROR` is set, and where it was clear the status and the error
code are set as well. -/
def failConnection (c : Conn W) (err : ℤ) : Conn W :=
  { c with
    cError := true
    status := if c.cError then c.status else .error
    error := if c.cError ∨ c.error < 0 then c.error else err }

@[simp] theorem failConnection_cError (c : Conn W) (err : ℤ) :
    (failConnection c err).cError = true := rfl

/-- The bytes a connection holds on to. -/
def held (c : Conn W) : ℕ := c.inp.length + c.inU.length

/-- `rwm_skip_data (&c->in, n)`. -/
def Conn.skipData (c : Conn W) (n : ℕ) : Conn W := { c with inp := c.inp.drop n }

/-- An entry of the log. -/
def Conn.record (c : Conn W) (e : StageEvent) : Conn W := { c with log := c.log ++ [e] }

/-- `D->in_packet_num`. -/
def Conn.setInPacketNum (c : Conn W) (n : ℤ) : Conn W :=
  { c with rpc := { c.rpc with inPacketNum := n } }

@[simp] theorem Conn.skipData_inp (c : Conn W) (n : ℕ) : (c.skipData n).inp = c.inp.drop n := rfl

@[simp] theorem Conn.record_inp (c : Conn W) (e : StageEvent) : (c.record e).inp = c.inp := rfl

/-- The calls of `assert` in the modelled code that an input could make fail, and one access to
memory that no C program may make. -/
inductive Abort
  /-- `assert (bytes >= 0)` in `rwm_process_ex` -/
  | rwmProcessEx (bytes : ℤ)
  /-- `assert (c->crypto)` -/
  | crypto
  /-- `assert (c->left_tls_packet_length >= 0)` -/
  | leftTlsPacketLength
  /-- `assert (rwm_fetch_lookup (&c->in, &packet_len, 4) == 4)` -/
  | packetLen
  /-- `assert (rwm_skip_data (&c->in, packet_len_bytes) == packet_len_bytes)` -/
  | packetLenBytes
  /-- `assert (rwm_fetch_lookup (&msg, &packet_type, 4) == 4)` -/
  | packetType
  /-- `assert (D->in_packet_num == -3)` -/
  | inPacketNum
  /-- `CONN_INFO (c->extra)` where `extra` points to the methods of the listening socket -/
  | methodsAsJob
  deriving DecidableEq, Repr

/-- How a stage of `parse_execute` leaves the function: with a result, or in an assertion. -/
inductive ParseExit (W : Type*)
  | ret (c : Conn W) (res : ℤ)
  | abort (a : Abort)

/-- A stage of `parse_execute`: it passes the connection on, or leaves.  What the last stage
of a turn passes on starts the next turn. -/
abbrev Stage (W : Type*) := Conn W → Except (ParseExit W) (Conn W)

end Server
end Teleproto3
