/-
# Telling HTTP and WebSocket clients from others

The first part of `tcp_rpcs_compact_parse_execute`
(`server/src/net/net-tcp-rpc-ext-server.c`, lines 1394-1674), with
`ws_parse_upgrade_request` of `net-websocket.c`: on a connection whose `ws_state` is
`HANDSHAKE` the first bytes are looked at for an HTTP request.

A request is looked for in the first 4096 bytes, up to the first zero byte; its headers
are found with the string functions of C.  The base64 form of the SHA-1 of a WebSocket
key comes from OpenSSL, and `acceptKey` stands for `ws_compute_accept_key`.
-/

import Teleproto3.Lib.CString
import Teleproto3.Lib.Stage
import Teleproto3.Server.ChunkUnwrap

namespace Teleproto3
namespace Server

open Lib

variable {W : Type*}

/-! ### Requests that open an HTTP stream -/

/-- `CR LF CR LF`. -/
def headersEnd : Bytes := [13, 10, 13, 10]

/-- `peek_buf`: what the string functions see of the bytes received. -/
def peekBuf (inp : Bytes) : Bytes := cString (inp.take 4096)

/-- Whether a `Transfer-Encoding: chunked` is found in the request. -/
def hasChunkedTe (buf : Bytes) : Bool :=
  match (findSub (ascii "\r\nTransfer-Encoding:") buf).or
      (findSub (ascii "\r\ntransfer-encoding:") buf) with
  | none => false
  | some teHdr =>
    startsWithFold (ascii "chunked")
      ((buf.drop (teHdr + 20)).dropWhile fun b => b = 0x20 ∨ b = 0x09)

/-- Whether a line of the headers starts with `Upgrade: websocket`.  The first argument
is whether a line starts here, the second what is left of the headers. -/
def hasUpgradeWs : Bool → Bytes → Bool
  | _, [] => false
  | atLine, b :: rest =>
    (atLine && decide (18 < (b :: rest).length) &&
      startsWithFold (ascii "Upgrade: websocket") (b :: rest)) || hasUpgradeWs (b = 10) rest

/-- The response to the request. -/
def httpStreamResponse (upgrade : Bool) : Bytes :=
  if upgrade then
    ascii ("HTTP/1.1 101 Switching Protocols\r\nUpgrade: websocket\r\n" ++
      "Connection: Upgrade\r\n\r\n")
  else
    ascii ("HTTP/1.1 200 OK\r\nContent-Type: application/octet-stream\r\n" ++
      "Transfer-Encoding: chunked\r\nCache-Control: no-store\r\n\r\n")

/-- The headers are consumed, the response is written and the mode is set. -/
def enterHttpStream (c : Conn W) (buf : Bytes) (headersLen : ℕ) : Conn W :=
  { c with
    inp := c.inp.drop (headersLen + 4)
    out := c.out ++ httpStreamResponse (hasUpgradeWs true (buf.take headersLen))
    cWantWr := true
    wsState := .none
    transportMode := if hasChunkedTe buf then .httpStream else .httpStreamRaw
    httpChunkRemaining := 0
    httpChunkHeaderState := .needHeader }

/-- In chunked mode what came with the headers loses its framing. -/
def transitionUnwrap : Stage W := fun c =>
  if c.inp.length > 0 ∧ c.transportMode = .httpStream then
    match unwrapLoop transitionChunkHeader
        ⟨c.inp, [], T3_PRECRYPTO_BYTES, c.httpChunkRemaining, c.httpChunkHeaderState⟩ with
    | (u, none) =>
      .ok { c with
        inU := c.inU ++ u.src
        inp := u.dst
        httpChunkRemaining := u.remaining
        httpChunkHeaderState := u.state }
    | (u, some err) =>
      let c := { c with
        inp := u.src
        httpChunkRemaining := u.remaining
        httpChunkHeaderState := u.state }
      .error (.ret (failConnection c err) SKIP_ALL_BYTES)
  else .ok c

/-- A stage is passed with something left to read. -/
def needInput : Stage W := fun c =>
  if c.inp.length = 0 then .error (.ret c NEED_MORE_BYTES) else .ok c

/-- A connection whose first bytes are those of a `POST` or a `GET` request. -/
def httpStreamRequest : Stage W := fun c =>
  match findSub headersEnd (peekBuf c.inp) with
  | none =>
    if c.inp.length ≥ 4096 then .error (.ret (failConnection c (-1)) SKIP_ALL_BYTES)
    else .error (.ret c NEED_MORE_BYTES)
  | some headersLen =>
    (transitionUnwrap (enterHttpStream c (peekBuf c.inp) headersLen)).bind needInput

/-- The first bytes the stage above is taken for: `POST`, or `GET` with anything behind. -/
def StartsRequest (inp : Bytes) : Prop :=
  4 ≤ inp.length ∧ (inp.take 4 = ascii "POST" ∨ inp.take 3 = ascii "GET")

instance (inp : Bytes) : Decidable (StartsRequest inp) := by
  unfold StartsRequest
  infer_instance

/-! ### Requests that open a WebSocket -/

/-- The results of `ws_parse_upgrade_request`: 0, -1, and 1 with the key. -/
inductive WsUpgrade
  | needMore
  | refused
  | upgrade (wsKey : Bytes)
  deriving DecidableEq, Repr

/-- The part of `ws_parse_upgrade_request` that reads the key. -/
def wsUpgradeKey (buf : Bytes) : WsUpgrade :=
  match findSubFold (ascii "Sec-WebSocket-Key:") buf with
  | none => .refused
  | some keyHeader =>
    let key := (buf.drop (keyHeader + 18)).dropWhile (· = 0x20)
    match findSub (ascii "\r\n") key with
    | none => .refused
    | some keyLen => .upgrade (key.take (min keyLen 127))

/-- `ws_parse_upgrade_request`.  The path it copies out is for the log only. -/
def wsParseUpgradeRequest (inp : Bytes) : WsUpgrade :=
  if inp.length < 4 then .needMore
  else
    match findSub headersEnd (peekBuf inp) with
    | none => if inp.length ≥ 4096 then .refused else .needMore
    | some _ =>
      if inp.take 4 ≠ ascii "GET " then .refused
      else if findSub (ascii " HTTP/") ((peekBuf inp).drop 4) = none then .refused
      else if findSubFold (ascii "Upgrade: websocket") (peekBuf inp) = none then .refused
      else wsUpgradeKey (peekBuf inp)

/-- `ws_build_upgrade_response`. -/
def wsBuildUpgradeResponse (acceptKey : Bytes) : Bytes :=
  ascii ("HTTP/1.1 101 Switching Protocols\r\nUpgrade: websocket\r\n" ++
    "Connection: Upgrade\r\nSec-WebSocket-Accept: ") ++ acceptKey ++ headersEnd

/-- The request is consumed, the response is written and the frames begin. -/
def enterWs (c : Conn W) (acceptKey : Bytes) : Conn W :=
  let consume :=
    match findSub headersEnd (peekBuf c.inp) with
    | some headersLen => headersLen + 4
    | none => min c.inp.length 4096
  { c with
    inp := c.inp.drop consume
    out := c.out ++ wsBuildUpgradeResponse acceptKey
    cWantWr := true
    wsState := .active }

/-- The probe for a WebSocket upgrade. -/
def wsHandshake (acceptKey : Bytes → Option Bytes) : Stage W := fun c =>
  match wsParseUpgradeRequest c.inp with
  | .needMore => .error (.ret c NEED_MORE_BYTES)
  | .refused => .ok { c with wsState := .none }
  | .upgrade wsKey =>
    match acceptKey wsKey with
    | none => .error (.ret (failConnection c (-1)) 0)
    | some accept => needInput (enterWs c accept)

/-! ### The detector -/

/-- The detector: on a connection in its handshake, the probe for an HTTP stream and,
where that has not settled it, the probe for a WebSocket. -/
def detect (acceptKey : Bytes → Option Bytes) : Stage W := fun c =>
  if c.wsState = .handshake then
    (if StartsRequest c.inp then httpStreamRequest c else .ok c).bind fun c =>
      if c.wsState = .handshake then wsHandshake acceptKey c else .ok c
  else .ok c

theorem needInput_ok {c c' : Conn W} (h : needInput c = .ok c') : c' = c := by
  unfold needInput at h
  split_ifs at h
  exact (Except.ok.inj h).symm

theorem detect_of_ne {acceptKey : Bytes → Option Bytes} {c : Conn W} (h : c.wsState ≠ .handshake) :
    detect acceptKey c = .ok c := by
  rw [detect, if_neg h]

end Server
end Teleproto3
