/-
# The writer of a connection

`cpu_tcp_server_writer` with what it calls: the `write_packet` methods of the connection's
types, `cpu_tcp_aes_crypto_ctr128_encrypt_output` with the two framings it writes, and the
terminal chunk.

The writer is the one of the types whose `crypto_encrypt_output` is that function:
`ct_tcp_rpc_ext_server` and `ct_direct_client`, and `ct_proxy_pass`, which has none.  Fake TLS
gives a connection another type, with records of changing sizes.

`rwm_encrypt_decrypt_to` takes the length it is given, since the loop never asks for more than
there is.  `flush` pads to what `crypto_needed_output_bytes` asks for, which is nothing in
counter mode.
-/

import Teleproto3.Lib.Loop
import Teleproto3.Server.Detect
import Teleproto3.Wire.HttpChunk

namespace Teleproto3
namespace Server

open Lib Wire

/-- The calls of `assert` in the writer. -/
inductive WriterAbort
  /-- `assert (flag == 0xdd)` -/
  | quickAckFlag
  /-- `assert (!(len & 0xfc000000))` -/
  | packetLength
  /-- `assert (!(len & 3))` -/
  | packetAlignment
  /-- `assert (c->crypto)` -/
  | crypto
  /-- `assert (c->left_tls_packet_length >= 0)` -/
  | leftTlsPacketLength
  deriving DecidableEq, Repr

/-- What the writer takes from around a connection. -/
structure WriterEnv (W : Type*) where
  /-- `lrand48_j` -/
  lrand48 : W → ℕ × W
  /-- `D->out_packet_num ++` -/
  outPacketNum : W → ℕ × W
  /-- `rwm_custom_crc32` with `D->custom_crc_partial` -/
  crc32 : W → Bytes → ℕ

variable {W : Type*} (env : WriterEnv W)

/-! ### Packets -/

/-- `rwm_union (&c->out, raw)`. -/
def Conn.putOut (c : Conn W) (raw : Bytes) : Conn W := { c with out := c.out ++ raw }

/-- `tcp_proxy_pass_write_packet`. -/
def tcpProxyPassWritePacket (c : Conn W) (raw : Bytes) : Conn W := c.putOut raw

/-- `tcp_rpc_write_packet`: a packet number, the length and a checksum. -/
def tcpRpcWritePacket (c : Conn W) (raw : Bytes) : Conn W :=
  if c.rpc.flags.compact ∨ c.rpc.flags.medium then c
  else
    let (num, world) := env.outPacketNum c.world
    let raw := le32 (raw.length + 12) ++ le32 num ++ raw
    { c with world := world }.putOut (raw ++ le32 (env.crc32 world raw))

/-- The length in front of a packet. -/
def packetLengthBytes (medium : Bool) (len : ℕ) : Bytes :=
  if medium then le32 len
  else if len ≤ 0x7E * 4 then [UInt8.ofNat (len / 4)]
  else le32 (len * 2 ^ 6 ||| 0x7F)

/-- The padding behind a packet: up to three bytes of a random number. -/
def padPacket (c : Conn W) (raw : Bytes) : Conn W × Bytes :=
  if c.rpc.flags.pad then
    let (x, world) := env.lrand48 c.world
    let (y, world) := env.lrand48 world
    ({ c with world := world }, raw ++ (le32 x).take (y % 4))
  else (c, raw)

/-- `tcp_rpc_write_packet_compact`. -/
def tcpRpcWritePacketCompact (c : Conn W) (raw : Bytes) : Except WriterAbort (Conn W) :=
  if raw.length = 5 then
    if raw.getD 0 0 = 0xDD then .ok (c.putOut (raw.drop 1)) else .error .quickAckFlag
  -- A client of fake TLS that has not been answered yet.
  else if c.cIsTls ∧ c.leftTlsPacketLength = -1 then .ok (c.putOut raw)
  else if ¬ (c.rpc.flags.compact ∨ c.rpc.flags.medium) then .ok (tcpRpcWritePacket env c raw)
  else
    let (c, raw) := padPacket env c raw
    if 2 ^ 26 ≤ raw.length then .error .packetLength
    else if c.rpc.flags.pad = false ∧ raw.length % 4 ≠ 0 then .error .packetAlignment
    else .ok (c.putOut (packetLengthBytes c.rpc.flags.medium raw.length ++ raw))

/-- The method `write_packet`. -/
def writePacket (c : Conn W) (raw : Bytes) : Except WriterAbort (Conn W) :=
  match c.type with
  | .rpcExtServer | .rpcExtServerDrs => tcpRpcWritePacketCompact env c raw
  | .directClient | .directClientDrs | .proxyPass => .ok (tcpProxyPassWritePacket c raw)

/-! ### Encryption -/

/-- `WS_MAX_FRAME`. -/
def WS_MAX_FRAME : ℕ := 16384

/-- `HTTP_MAX_CHUNK`. -/
def HTTP_MAX_CHUNK : ℕ := 16384

/-- `MAX_PACKET_LENGTH`. -/
def MAX_PACKET_LENGTH : ℕ := 1425

/-- `ws_write_frame_header`. -/
def wsWriteFrameHeader (payloadLen : ℕ) : Bytes :=
  if payloadLen < 126 then [0x82, UInt8.ofNat payloadLen]
  else if payloadLen < 65536 then [0x82, 126] ++ beBytes 2 payloadLen
  else [0x82, 127, 0, 0, 0, 0] ++ beBytes 4 payloadLen

/-- `http_chunk_write_header`.  `%x` writes the digits `t3__size_to_hex` does. -/
def httpChunkWriteHeader (len : ℕ) : Bytes := t3SizeToHex len ++ crlf

/-- What one turn of the loop encrypts, and what it writes in front of that. -/
def outputPiece (c : Conn W) : Except WriterAbort (ℕ × Bytes) :=
  if c.wsState = .active then
    let len := min c.out.length WS_MAX_FRAME
    .ok (len, wsWriteFrameHeader len)
  else if c.transportMode ≠ .ws then
    let len := min c.out.length HTTP_MAX_CHUNK
    .ok (len, httpChunkWriteHeader len)
  else if c.cIsTls then
    if c.leftTlsPacketLength < 0 then .error .leftTlsPacketLength
    else
      let len := min c.out.length MAX_PACKET_LENGTH
      .ok (len, [0x17, 0x03, 0x03, UInt8.ofNat (len / 256), UInt8.ofNat len])
  else .ok (c.out.length, [])

/-- The next `len` bytes of `out`, encrypted, with what stands around them. -/
def encryptPiece (c : Conn W) (T : AesCrypto) (len : ℕ) (header : Bytes) : Conn W :=
  { c with
    crypto := some { T with write := ⟨T.write.ks, T.write.pos + len⟩ }
    out := c.out.drop len
    outP := c.outP ++ header ++ xorAt T.write.ks T.write.pos (c.out.take len) ++
      if c.transportMode ≠ .ws then crlf else [] }

/-- A turn of the loop. -/
def encryptTurn (c : Conn W) : Turn (Conn W) (Except WriterAbort (Conn W)) :=
  match c.crypto with
  | none => .done (.error .crypto)
  | some T =>
    if c.out.length = 0 then .done (.ok c)
    else
      match outputPiece c with
      | .error a => .done (.error a)
      | .ok (len, header) => .again (encryptPiece c T len header)

/-- What a turn comes to. -/
theorem encryptTurn_cases (c : Conn W) :
    (∃ a, encryptTurn c = .done (.error a)) ∨ encryptTurn c = .done (.ok c) ∨
      ∃ T len header, encryptTurn c = .again (encryptPiece c T len header) := by
  unfold encryptTurn
  cases c.crypto with
  | none => exact Or.inl ⟨_, rfl⟩
  | some T =>
    dsimp only
    split_ifs
    · exact Or.inr (Or.inl rfl)
    · cases outputPiece c with
      | error a => exact Or.inl ⟨a, rfl⟩
      | ok p => exact Or.inr (Or.inr ⟨T, p.1, p.2, rfl⟩)

theorem outputPiece_pos {c : Conn W} {len : ℕ} {header : Bytes}
    (h : outputPiece c = .ok (len, header)) (hout : 0 < c.out.length) : 0 < len := by
  unfold outputPiece at h
  dsimp only at h
  split_ifs at h <;> cases h
  · exact lt_min hout (by decide)
  · exact lt_min hout (by decide)
  · exact lt_min hout (by decide)
  · exact hout

theorem encryptTurn_shrinks :
    Shrinks (encryptTurn : Conn W → _) fun c => c.out.length := by
  intro c c' h
  unfold encryptTurn at h
  cases hT : c.crypto with
  | none =>
    simp only [hT] at h
    exact nomatch h
  | some T =>
    simp only [hT] at h
    split_ifs at h with hout
    cases hpiece : outputPiece c with
    | error a =>
      simp only [hpiece] at h
      exact nomatch h
    | ok p =>
      obtain ⟨len, header⟩ := p
      simp only [hpiece] at h
      obtain rfl := Turn.again.inj h
      have hlen := outputPiece_pos hpiece (Nat.pos_of_ne_zero hout)
      show (c.out.drop len).length < c.out.length
      rw [List.length_drop]
      omega

/-- `cpu_tcp_aes_crypto_ctr128_encrypt_output`. -/
def cpuTcpAesCryptoCtr128EncryptOutput (c : Conn W) : Except WriterAbort (Conn W) :=
  loop encryptTurn (fun c => c.out.length) encryptTurn_shrinks c

/-! ### The writer -/

/-- A socket: what waits to be sent, and whether writing ends behind it. -/
structure SocketConn where
  outPacketQueue : List Bytes
  cStopWrite : Bool
  deriving DecidableEq, Repr

/-- A connection with the socket behind `c->io_conn`. -/
structure ServerOutput (W : Type*) where
  conn : Conn W
  ioConn : Option SocketConn

/-- `http_stream_write_terminal`.  The `JS_RUN` it signals is for the schedule to give. -/
def httpStreamWriteTerminal (c : Conn W) : Conn W :=
  if c.transportMode ≠ .ws then
    { c with outP := c.outP ++ ascii "0\r\n\r\n", cWantWr := true }
  else c

/-- What a connection to be closed is left with before the last flush. -/
def writerClosing (c : Conn W) : Conn W :=
  if c.status = .writeClose ∧ c.transportMode ≠ .ws ∧ c.crypto.isSome then
    httpStreamWriteTerminal c
  else c

/-- The messages of `out_queue` go through `write_packet`. -/
def drainQueue (c : Conn W) : Except WriterAbort (Conn W) :=
  c.outQueue.foldlM (writePacket env) { c with outQueue := [] }

/-- Whether `crypto_encrypt_output` is called. -/
def Conn.encrypts (c : Conn W) : Prop := c.type ≠ .proxyPass ∧ c.crypto.isSome

instance (c : Conn W) : Decidable c.encrypts := by
  unfold Conn.encrypts
  infer_instance

/-- The writer up to where it has put into `out_p` all it is going to. -/
def writerFill (c : Conn W) : Except WriterAbort (Conn W) :=
  (drainQueue env (writerClosing c)).bind fun c =>
    if c.encrypts then cpuTcpAesCryptoCtr128EncryptOutput c else .ok c

/-- What the writer hands over, and the connection without it. -/
def writerTake (c : Conn W) : Conn W × Bytes :=
  if c.encrypts then ({ c with outP := [] }, c.outP) else ({ c with out := [] }, c.out)

/-- What is handed over goes to the socket, where there is one. -/
def writerSend (stop : Bool) (raw : Bytes) (ioConn : Option SocketConn) : Option SocketConn :=
  ioConn.map fun io =>
    if raw.length = 0 then io
    else
      { outPacketQueue := io.outPacketQueue ++ [raw]
        cStopWrite := stop || io.cStopWrite }

/-- `cpu_tcp_server_writer`. -/
def cpuTcpServerWriter (s : ServerOutput W) : Except WriterAbort (ServerOutput W) :=
  (writerFill env s.conn).map fun c =>
    { conn := (writerTake c).1
      ioConn := writerSend (s.conn.status = .writeClose) (writerTake c).2 s.ioConn }

/-- `connection_write_close`.  The flag on the socket stops its reader. -/
def connectionWriteClose (c : Conn W) : Conn W :=
  if c.status = .working then { c with cStopRead := true, status := .writeClose } else c

end Server
end Teleproto3
