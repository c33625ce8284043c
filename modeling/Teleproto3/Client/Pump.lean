/-
# The pump

`t3_client_pump` of `lib/src/t3_client_stream.c` (lines 596-699) in all its states, with
`pump_tls_handshake`, `send_http_post_headers` and `handle_ws_upgrade`, and
`t3c_ws_upgrade_request` of `t3_client_ws.c`.

A call goes through the states `CONNECTING`, `TLS`, `HANDSHAKE` and `READY` as far as it gets.
Each state is a stage, which passes the client on or leaves with what the call returns.  Hardly
a result of the functions called on the way is looked at, so the books of `T3Stream`, which are
not in the source, keep what these functions were given and what they met: `readLog` what
each call of `ssl_read_in` was to append, `messageLog` every message of the handshake, `faults` whatever ends a
stream.
-/

import Teleproto3.Client.Handshake
import Teleproto3.Client.Incoming
import Teleproto3.Lib.CString
import Teleproto3.Lib.Stage

namespace Teleproto3
namespace Client

open Lib Wire

/-! ### The client -/

/-- Bytes that were to go into a ring: the ring before and after. -/
structure Appended where
  before : RingBuf
  bytes : Bytes
  after : RingBuf

/-- What ends a stream. -/
inductive StreamFault
  /-- the peer has closed, or `SSL_read` failed -/
  | readEnded
  /-- `SSL_write` failed -/
  | writeFailed
  /-- a frame that cannot be read, or a length no message has -/
  | malformed
  /-- the answer to the upgrade request is none, or not 101 -/
  | upgradeRefused
  deriving DecidableEq, Repr

/-- The stream object with the fields of the handshake, and the books. -/
structure T3Stream where
  stream : ClientStream
  host : Bytes
  path : Bytes
  params : HandshakeParams
  wsUpgradeSent : Bool
  wsUpgradeDone : Bool
  httpHeadersSent : Bool
  httpResponseDone : Bool
  obfs2Sent : Bool
  /-- what `SSL_read` delivered, call by call of `ssl_read_in` -/
  readLog : List Appended
  /-- the messages of the handshake -/
  messageLog : List Appended
  /-- what was met -/
  faults : List StreamFault

/-- A stream as `t3_client_create` returns it. -/
def T3Stream.created (mode : T3cMode) (host path : Bytes) (params : HandshakeParams)
    (blocks : Fin 4 → Mem) : T3Stream where
  stream :=
    { state := .connecting
      mode := mode
      encryptCtx := none
      decryptCtx := none
      inRing := ringInit RING_CAP (blocks 0)
      outRing := ringInit RING_CAP (blocks 1)
      reasmIn := ringInit RING_CAP (blocks 2)
      plainIn := ringInit RING_CAP (blocks 3)
      inRing_cap := Eq.refl RING_CAP
      outRing_cap := Eq.refl RING_CAP
      reasmIn_cap := Eq.refl RING_CAP
      plainIn_cap := Eq.refl RING_CAP }
  host := host
  path := path
  params := params
  wsUpgradeSent := false
  wsUpgradeDone := false
  httpHeadersSent := false
  httpResponseDone := false
  obfs2Sent := false
  readLog := []
  messageLog := []
  faults := []

/-- `poll` and `getsockopt (SO_ERROR)` in the state `CONNECTING`. -/
inductive TcpConnect
  | pending
  | failed
  | connected
  deriving DecidableEq, Repr

/-- `SSL_do_handshake`. -/
inductive TlsHandshake
  | done
  | again
  | failed
  deriving DecidableEq, Repr

/-- What a call of `t3_client_pump` takes from outside: the results of the socket and of OpenSSL
up to the end of the handshake, and those of the state `READY`. -/
structure PumpIo where
  tcp : TcpConnect
  tls : TlsHandshake
  /-- the 16 random bytes of the WebSocket key -/
  nonce : Fin 16 → UInt8
  draws : List (Option Block64)
  evp : EvpResults
  mask : Fin 4 → UInt8
  /-- the results of `SSL_write` in the first flush -/
  writes : List SslWrite
  /-- and in the one before the response is read -/
  writesAgain : List SslWrite
  reads : List Bytes
  ended : Bool
  ready : PumpEnv

/-- A stage of a call. -/
abbrev PumpStage := T3Stream → Except (T3Stream × T3Result) T3Stream

namespace T3Stream

/-- `s->state`. -/
def setState (c : T3Stream) (state : T3ClientState) : T3Stream :=
  { c with stream := { c.stream with state := state } }

/-- What was met goes into the books. -/
def meet (c : T3Stream) (p : Prop) [Decidable p] (fault : StreamFault) : T3Stream :=
  if p then { c with faults := c.faults ++ [fault] } else c

/-- A message that could not be put together. -/
def dropMessage (c : T3Stream) (message : Bytes) : T3Stream :=
  { c with messageLog := c.messageLog ++ [⟨c.stream.outRing, message, c.stream.outRing⟩] }

/-- `ring_append` on `out_ring`, whose result is not looked at. -/
def queueMessage (c : T3Stream) (message : Bytes) : T3Stream :=
  { c with
    stream :=
      { c.stream with
        outRing := (ringAppend c.stream.outRing message).1
        outRing_cap := by rw [ringAppend_cap, c.stream.outRing_cap] }
    messageLog := c.messageLog ++
      [⟨c.stream.outRing, message, (ringAppend c.stream.outRing message).1⟩] }

/-- `ring_consume` on `in_ring`. -/
def consume (c : T3Stream) (n : ℕ) : T3Stream := { c with stream := consumeIn c.stream n }

/-- `ssl_flush_out`, whose result is not looked at. -/
def flushOut (c : T3Stream) (writes : List SslWrite) : T3Stream :=
  { c with
    stream :=
      { c.stream with
        outRing := (sslFlushOut writes c.stream.outRing).1
        outRing_cap := by rw [sslFlushOut_cap, c.stream.outRing_cap] }
  }.meet ((sslFlushOut writes c.stream.outRing).2.2 < 0) .writeFailed

/-- `ssl_read_in`, whose result is not looked at. -/
def readIn (c : T3Stream) (reads : List Bytes) (ended : Bool) : T3Stream :=
  { c with
    stream :=
      { c.stream with
        inRing := (sslReadIn reads ended c.stream.inRing).1
        inRing_cap := by rw [sslReadIn_cap, c.stream.inRing_cap] }
    readLog := c.readLog ++
      [(⟨c.stream.inRing, reads.flatten, (sslReadIn reads ended c.stream.inRing).1⟩ : Appended)]
  }.meet ((sslReadIn reads ended c.stream.inRing).2 < 0) .readEnded

section Fields

variable (c : T3Stream)

@[simp] theorem meet_stream (p : Prop) [Decidable p] (fault : StreamFault) :
    (c.meet p fault).stream = c.stream := by
  unfold meet
  split_ifs <;> rfl

@[simp] theorem meet_readLog (p : Prop) [Decidable p] (fault : StreamFault) :
    (c.meet p fault).readLog = c.readLog := by
  unfold meet
  split_ifs <;> rfl

@[simp] theorem meet_messageLog (p : Prop) [Decidable p] (fault : StreamFault) :
    (c.meet p fault).messageLog = c.messageLog := by
  unfold meet
  split_ifs <;> rfl

@[simp] theorem meet_faults (p : Prop) [Decidable p] (fault : StreamFault) :
    (c.meet p fault).faults = c.faults ++ if p then [fault] else [] := by
  unfold meet
  split_ifs
  · rfl
  · exact (List.append_nil _).symm

end Fields

end T3Stream

/-! ### Connecting -/

/-- The state `CONNECTING`. -/
def pumpConnecting (io : PumpIo) : PumpStage := fun c =>
  if c.stream.state = .connecting then
    match io.tcp with
    | .pending => .error (c, .bufTooSmall)
    | .failed => .error (c.setState .error, .internal)
    | .connected => .ok (c.setState .tls)
  else .ok c

/-- The state `TLS`, with `pump_tls_handshake`. -/
def pumpTlsHandshake (io : PumpIo) : PumpStage := fun c =>
  if c.stream.state = .tls then
    match io.tls with
    | .done => .ok (c.setState .handshake)
    | .again => .error (c, .bufTooSmall)
    | .failed => .error (c.setState .error, .internal)
  else .ok c

/-! ### The first message -/

/-- The text `send_http_post_headers` prints. -/
def postHeaders (path host : Bytes) : Bytes :=
  ascii "POST " ++ path ++ ascii " HTTP/1.1\r\nHost: " ++ host ++
    ascii ("\r\nContent-Type: application/octet-stream\r\n" ++
      "Transfer-Encoding: chunked\r\nConnection: keep-alive\r\n\r\n")

/-- `send_http_post_headers`, with what it returns. -/
def sendHttpPostHeaders (c : T3Stream) : T3Stream × ℤ :=
  let hdrs := postHeaders c.path c.host
  if 1024 ≤ hdrs.length then (c.dropMessage hdrs, -1) else (c.queueMessage hdrs, 0)

/-- `b64`. -/
def b64 (v : ℕ) : UInt8 :=
  (ascii "ABCDEFGHIJKLMNOPQRSTUVWXYZabcdefghijklmnopqrstuvwxyz0123456789+/").getD (v % 64) 0

/-- `key_b64`: base64, three bytes at a time. -/
def base64 : Bytes → Bytes
  | [] => []
  | [a] =>
    let v := a.toNat * 2 ^ 16
    [b64 (v / 2 ^ 18), b64 (v / 2 ^ 12), 0x3D, 0x3D]
  | [a, b] =>
    let v := a.toNat * 2 ^ 16 + b.toNat * 2 ^ 8
    [b64 (v / 2 ^ 18), b64 (v / 2 ^ 12), b64 (v / 2 ^ 6), 0x3D]
  | a :: b :: c :: rest =>
    let v := a.toNat * 2 ^ 16 + b.toNat * 2 ^ 8 + c.toNat
    [b64 (v / 2 ^ 18), b64 (v / 2 ^ 12), b64 (v / 2 ^ 6), b64 v] ++ base64 rest

/-- The text `t3c_ws_upgrade_request` prints. -/
def upgradeRequest (path host : Bytes) (nonce : Fin 16 → UInt8) : Bytes :=
  ascii "GET " ++ path ++ ascii " HTTP/1.1\r\nHost: " ++ host ++
    ascii ("\r\nConnection: Upgrade\r\nUpgrade: websocket\r\nSec-WebSocket-Version: 13\r\n" ++
      "Sec-WebSocket-Key: ") ++ base64 (List.ofFn nonce) ++ ascii "\r\n\r\n"

/-- `CR LF CR LF`, behind which a response ends. -/
def responseEnd : Bytes := [13, 10, 13, 10]

/-- `handle_ws_upgrade`, with what it returns. -/
def handleWsUpgrade (nonce : Fin 16 → UInt8) (c : T3Stream) : T3Stream × ℤ :=
  if c.wsUpgradeSent = false then
    let req := upgradeRequest c.path c.host nonce
    if 1024 ≤ req.length then (c.dropMessage req, -1)
    else ({ c.queueMessage req with wsUpgradeSent := true }, 1)
  else
    let buf := ringContents c.stream.inRing
    if buf.length < 12 then (c, 1)
    else
      match findSub responseEnd buf with
      | none => if 4096 < buf.length then (c.meet True .upgradeRefused, -1) else (c, 1)
      | some n =>
        if buf.take 12 ≠ ascii "HTTP/1.1 101" then (c.meet True .upgradeRefused, -1)
        else ({ c.consume (n + 4) with wsUpgradeDone := true }, 0)

/-- The upgrade to a WebSocket.  Until it is done a call ends here. -/
def wsGreeting (io : PumpIo) : PumpStage := fun c =>
  if c.wsUpgradeDone then .ok c
  else
    match handleWsUpgrade io.nonce c with
    | (c, rc) =>
      if rc ≠ 0 then
        .error ((c.flushOut io.writes).readIn io.reads io.ended,
          if rc < 0 then .internal else .bufTooSmall)
      else .ok c

/-- The headers of the `POST` request, which count as sent in any case. -/
def httpGreeting : PumpStage := fun c =>
  .ok (if c.httpHeadersSent then c else { (sendHttpPostHeaders c).1 with httpHeadersSent := true })

/-- The first message of either mode. -/
def greeting (io : PumpIo) : PumpStage := fun c =>
  match c.stream.mode with
  | .ws => wsGreeting io c
  | .http => httpGreeting c

/-! ### The rest of the handshake -/

/-- The frame `send_obfs2_init` queues, where there is one. -/
def obfs2Frame (prim : Primitives) (io : PumpIo) (c : T3Stream) : Option Bytes :=
  (genObfs2Init prim c.params.secret c.params.dcId c.params.tunnelMode io.draws io.evp).bind
    fun init => frameObfs2Init c.stream.mode io.mask init.header

/-- The obfuscated2 header, and the first flush. -/
def startObfs2 (prim : Primitives) (io : PumpIo) : PumpStage := fun c =>
  if c.obfs2Sent then .ok (c.flushOut io.writes)
  else
    match sendObfs2Init prim c.params io.draws io.evp io.mask c.stream with
    | (stream, sent) =>
      if sent = false then .error ({ c with stream := stream }.setState .error, .internal)
      else
        .ok ({ c with
          stream := stream
          obfs2Sent := true
          messageLog := c.messageLog ++
            ((obfs2Frame prim io c).map fun frame =>
              (⟨c.stream.outRing, frame, stream.outRing⟩ : Appended)).toList
        }.flushOut io.writes)

/-- The headers of a response are taken off `in_ring`, if it starts with them. -/
def awaitResponse (io : PumpIo) : PumpStage := fun c =>
  if c.stream.mode = .http ∧ c.httpResponseDone = false then
    let c := (c.flushOut io.writesAgain).readIn io.reads io.ended
    let buf := ringContents c.stream.inRing
    if buf.length = 0 then .error (c, .bufTooSmall)
    else if 4 ≤ buf.length ∧ buf.take 4 = ascii "HTTP" then
      match findSub responseEnd buf with
      | none =>
        if 8192 < buf.length then .error (c.setState .error, .internal) else .error (c, .bufTooSmall)
      | some n => .ok { c.consume (n + 4) with httpResponseDone := true }
    else .ok { c with httpResponseDone := true }
  else .ok c

/-- The state `HANDSHAKE`. -/
def pumpHandshake (prim : Primitives) (io : PumpIo) : PumpStage := fun c =>
  if c.stream.state = .handshake then
    (((greeting io c).bind (startObfs2 prim io)).bind (awaitResponse io)).map
      fun c => c.setState .ready
  else .ok c

/-! ### Ready -/

/-- What `process_incoming` leaves alone. -/
structure KeepsPump (s t : ClientStream) : Prop where
  state : t.state = s.state
  mode : t.mode = s.mode
  outRing : t.outRing = s.outRing

theorem KeepsPump.trans {s t u : ClientStream} (h : KeepsPump s t) (h' : KeepsPump t u) :
    KeepsPump s u :=
  ⟨h'.state.trans h.state, h'.mode.trans h.mode, h'.outRing.trans h.outRing⟩

theorem deframe_keeps (x : Incoming) : KeepsPump x.stream (deframe x).1.stream := by
  refine loop_inv (I := fun y => KeepsPump x.stream y.stream)
    (Q := fun r => KeepsPump x.stream r.1.stream) deframeTurn_shrinks ?_ ?_ ⟨rfl, rfl, rfl⟩
  · intro y z hy hturn
    obtain ⟨-, ⟨consumed, -, rfl⟩ | ⟨payload, payloadLen, consumed, ctx, decrypted, -, -, -, -, -,
      rfl⟩⟩ := deframeTurn_again hturn
    · exact hy.trans ⟨rfl, rfl, rfl⟩
    · exact hy.trans ⟨rfl, rfl, rfl⟩
  · intro y r hy hturn
    rcases deframeTurn_done hturn with ⟨hsame, -⟩ | ⟨payload, payloadLen, consumed, ctx, decrypted,
      -, -, -, -, -, hstream, -⟩
    · rw [hsame]
      exact hy
    · rw [hstream]
      exact hy.trans ⟨rfl, rfl, rfl⟩

theorem deliver_keeps (s : ClientStream) : KeepsPump s (deliver s).1 := by
  refine loop_inv (I := fun t => KeepsPump s t) (Q := fun r => KeepsPump s r.1)
    deliverTurn_shrinks ?_ ?_ ⟨rfl, rfl, rfl⟩
  · intro t u ht hturn
    unfold deliverTurn at hturn
    dsimp only at hturn
    split_ifs at hturn <;> rw [← Turn.again.inj hturn] <;> exact ht.trans ⟨rfl, rfl, rfl⟩
  · intro t r ht hturn
    unfold deliverTurn at hturn
    dsimp only at hturn
    split_ifs at hturn <;> rw [← Turn.done.inj hturn]
    · exact ht
    · exact ht
    · exact ht
    · exact ht.trans ⟨rfl, rfl, rfl⟩

theorem processIncoming_keeps (x : Incoming) :
    KeepsPump x.stream (processIncoming x).1.stream := by
  unfold processIncoming
  dsimp only
  split_ifs
  · exact deframe_keeps x
  · exact (deframe_keeps x).trans (deliver_keeps _)

/-- `process_incoming` meets a frame that cannot be read, or a length no message has. -/
def MeetsMalformed (x : Incoming) : Prop :=
  if (deframe x).2 < 0 then
    readFrame (deframe x).1.stream.mode (ringContents (deframe x).1.stream.inRing) = .error
  else (deliver (deframe x).1.stream).2 < 0

instance (x : Incoming) : Decidable (MeetsMalformed x) := by
  unfold MeetsMalformed
  infer_instance

/-- `process_incoming` on the client, whose result is not looked at. -/
def T3Stream.processIn (c : T3Stream) (mallocs : ℕ) : T3Stream :=
  { c with stream := (processIncoming ⟨c.stream, mallocs, 0⟩).1.stream
  }.meet (MeetsMalformed ⟨c.stream, mallocs, 0⟩) .malformed

/-- The state `READY`. -/
def T3Stream.pumpReadyState (c : T3Stream) (env : PumpEnv) : T3Stream :=
  ((c.readIn env.reads env.ended).processIn env.mallocs).flushOut env.writes

/-! ### A call -/

/-- The stages in front of `READY`. -/
def pumpFront (prim : Primitives) (io : PumpIo) : PumpStage := fun c =>
  ((pumpConnecting io c).bind (pumpTlsHandshake io)).bind (pumpHandshake prim io)

/-- **`t3_client_pump`**, with what it returns. -/
def t3ClientPump (prim : Primitives) (io : PumpIo) (c : T3Stream) : T3Stream × T3Result :=
  if c.stream.state = .error then (c, .internal)
  else if c.stream.state = .closed then (c, .invalidArg)
  else
    match pumpFront prim io c with
    | .error exit => exit
    | .ok c => (if c.stream.state = .ready then c.pumpReadyState io.ready else c, .ok)

end Client
end Teleproto3
