/-
# The tunnel of the SOCKS shim

`tunnel_send` and `tunnel_recv` of `lib/src/shim_socks5.c` (lines 239-284).  A message of the
tunnel has a length of its own in front, behind the length that `t3_client_write` puts there and
inside the size of the chunk, so that the padding can be told from the message.

`Sender` and `Peer` are the two ends.  What the sender emits is one chunk for each message
(`Sender.emitted_run`).
-/

import Teleproto3.Client.MarkedMessages
import Teleproto3.Client.Pump
import Teleproto3.Client.Receive

namespace Teleproto3
namespace Client

open Lib Wire

/-- `SHIM_BUF`. -/
def SHIM_BUF : ℕ := 16384

/-- The two bytes of the length of a message, the low byte first. -/
def le16 (n : ℕ) : Bytes := [UInt8.ofNat n, UInt8.ofNat (n / 256)]

/-- The length the first two bytes spell. -/
def readLe16 (msg : Bytes) : ℕ := (msg.getD 0 0).toNat + 256 * (msg.getD 1 0).toNat

/-- `framed` of `tunnel_send`. -/
def tunnelFramed (data : Bytes) : Bytes := le16 data.length ++ data

theorem tunnelFramed_length (data : Bytes) : (tunnelFramed data).length = 2 + data.length := by
  rw [tunnelFramed, List.length_append]
  rfl

theorem readLe16_tunnelFramed {data : Bytes} (h : data.length ≤ SHIM_BUF) (rest : Bytes) :
    readLe16 (tunnelFramed data ++ rest) = data.length := by
  unfold SHIM_BUF at h
  simp only [readLe16, tunnelFramed, le16, List.cons_append, List.getD_cons_zero,
    List.getD_cons_succ, UInt8.toNat_ofNat']
  omega

/-! ### The sender -/

/-- The end that sends: its stream with the record of the payload bytes it has moved, and what has
been written to TLS. -/
structure Sender where
  stream : ClientStream
  moved : ℕ
  sent : Bytes

/-- What the flush at the end of a pump writes to TLS. -/
def pumpSent (s : ClientStream) (moved : ℕ) (env : PumpEnv) : Bytes :=
  (sslFlushOut env.writes
    (processIncoming ⟨pumpRead s env, env.mallocs, moved⟩).1.stream.outRing).2.1

/-- `tunnel_send`. -/
def tunnelSend (x : Sender) (data : Bytes) (write : WriteEnv) (pump : PumpEnv) : Sender × ℤ :=
  if h : data.length = 0 ∨ data.length > SHIM_BUF then (x, -1)
  else
    let framed : Object :=
      ⟨tunnelFramed data, by
        rw [tunnelFramed_length]
        unfold SHIM_BUF at h
        omega⟩
    let w := t3ClientWrite x.stream (some framed) write
    if w.rc ≠ .ok then ({ x with stream := w.stream, sent := x.sent ++ w.sent }, -1)
    else
      let p := pumpReady w.stream x.moved pump
      ({ stream := p.1
         moved := p.2
         sent := x.sent ++ w.sent ++ pumpSent w.stream x.moved pump }, 0)

/-- A payload of a length that fits is sent where `t3_client_write` takes the framed message. -/
theorem tunnelSend_accepted {x : Sender} {data : Bytes} {write : WriteEnv} {pump : PumpEnv}
    (h0 : 0 < data.length) (hle : data.length ≤ SHIM_BUF)
    (hw : ∀ framed : Object, framed.bytes = tunnelFramed data →
      (t3ClientWrite x.stream (some framed) write).rc = .ok) :
    (tunnelSend x data write pump).2 = 0 := by
  have hdata : ¬ (data.length = 0 ∨ data.length > SHIM_BUF) := by omega
  unfold tunnelSend
  rw [dif_neg hdata]
  dsimp only
  rw [if_neg (not_not.mpr (hw _ rfl))]

/-- A message handed to `tunnel_send`, with what its calls take from outside. -/
structure TunnelSend where
  data : Bytes
  write : WriteEnv
  pump : PumpEnv
  data_pos : 0 < data.length
  data_le : data.length ≤ SHIM_BUF

/-- What `t3_client_read` is to return for a message: the message with its own length, and the
padding. -/
def TunnelSend.wire (m : TunnelSend) : Bytes := tunnelFramed m.data ++ m.write.padding

/-- What is encrypted for a message. -/
def TunnelSend.plain (m : TunnelSend) : Bytes := framedMessage (tunnelFramed m.data) m.write.padding

namespace TunnelSend

variable (m : TunnelSend)

theorem wire_length : m.wire.length = 2 + m.data.length + m.write.paddingLen := by
  rw [wire, List.length_append, tunnelFramed_length, padding_length]

theorem plain_eq : m.plain = le32 m.wire.length ++ m.wire := by
  simp only [plain, framedMessage, wire, List.append_assoc, List.length_append]

theorem plain_length : m.plain.length = 4 + (2 + m.data.length) + m.write.paddingLen := by
  rw [plain, framedMessage_length, tunnelFramed_length, padding_length]

theorem plain_length_le : m.plain.length ≤ 16405 := by
  have hdata := m.data_le
  have hpad := paddingLen_le m.write
  unfold SHIM_BUF at hdata
  rw [plain_length]
  omega

/-- The chunk of a message, encrypted from position `pos` on. -/
def chunk (ks : Keystream) (pos : ℕ) : HttpChunk where
  hex := t3SizeToHex (xorAt ks pos m.plain).length
  ext := none
  data := xorAt ks pos m.plain
  hex_ne_nil := t3SizeToHex_ne_nil _
  size := hexValue_t3SizeToHex _
  data_le := by
    have := m.plain_length_le
    rw [xorAt_length]
    omega
  ext_le := HttpChunk.no_ext_le
  ext_line := HttpChunk.no_ext_line

/-- The size line of a chunk is short. -/
theorem chunk_line_length (ks : Keystream) (pos : ℕ) : (m.chunk ks pos).line.length ≤ 16 := by
  have hplain := m.plain_length_le
  have hline : (m.chunk ks pos).line = t3SizeToHex (xorAt ks pos m.plain).length :=
    List.append_nil _
  rw [hline]
  refine t3SizeToHex_length_le ?_
  rw [xorAt_length]
  omega

theorem chunk_encode_length (ks : Keystream) (pos : ℕ) :
    (m.chunk ks pos).encode.length ≤ 16425 := by
  have hline := m.chunk_line_length ks pos
  have hplain := m.plain_length_le
  have hdata : (m.chunk ks pos).data.length = m.plain.length := xorAt_length _ _ _
  simp only [HttpChunk.encode, List.length_append, crlf_length]
  omega

end TunnelSend

/-- The chunks of messages, one after another. -/
def tunnelChunks (ks : Keystream) : ℕ → List TunnelSend → List ServerFrame
  | _, [] => []
  | pos, m :: ms => .http (m.chunk ks pos) :: tunnelChunks ks (pos + m.plain.length) ms

namespace Sender

/-- One call of `tunnel_send`. -/
def step (x : Sender) (m : TunnelSend) : Sender := (tunnelSend x m.data m.write m.pump).1

/-- What has been emitted: written to TLS, or queued for it. -/
def emitted (x : Sender) : Bytes := x.sent ++ ringContents x.stream.outRing

/-- The frame of the message fits behind the write position of `out_ring`, and the call returns
`0`. -/
structure Takes (x : Sender) (m : TunnelSend) : Prop where
  room : x.stream.outRing.tail + transportFrameLength x.stream.mode
    (4 + (2 + m.data.length) + m.write.paddingLen) ≤ x.stream.outRing.cap
  accepted : (tunnelSend x m.data m.write m.pump).2 = 0

/-- A client of an HTTP stream that is ready, where its cipher stands, and nothing is queued or
counted as emitted. -/
structure Opening (x : Sender) (c : CtrContext) : Prop where
  ready : x.stream.state = .ready
  mode : x.stream.mode = .http
  ctx : x.stream.encryptCtx = some c
  emitted_nil : x.emitted = []

end Sender

/-- The first loop does not use the cipher of the other direction. -/
theorem deframe_encryptCtx (x : Incoming) :
    (deframe x).1.stream.encryptCtx = x.stream.encryptCtx := by
  refine loop_inv (I := fun y => y.stream.encryptCtx = x.stream.encryptCtx)
    (Q := fun r => r.1.stream.encryptCtx = x.stream.encryptCtx) deframeTurn_shrinks ?_ ?_ rfl
  · intro y z hy hturn
    obtain ⟨-, ⟨consumed, -, rfl⟩ | ⟨payload, payloadLen, consumed, ctx, decrypted, -, -, -, -, -,
      rfl⟩⟩ := deframeTurn_again hturn
    · exact hy
    · exact hy
  · intro y r hy hturn
    rcases deframeTurn_done hturn with ⟨hsame, -⟩ | ⟨payload, payloadLen, consumed, ctx, decrypted,
      -, -, -, -, -, hstream, -⟩
    · rw [hsame]
      exact hy
    · rw [hstream]
      exact hy

/-- Nor does the second. -/
theorem deliver_encryptCtx (s : ClientStream) : (deliver s).1.encryptCtx = s.encryptCtx := by
  refine loop_inv (I := fun t => t.encryptCtx = s.encryptCtx)
    (Q := fun r => r.1.encryptCtx = s.encryptCtx) deliverTurn_shrinks ?_ ?_ rfl
  · intro t u ht hturn
    simp only [deliverTurn] at hturn
    split_ifs at hturn <;> (cases hturn; exact ht)
  · intro t r ht hturn
    simp only [deliverTurn] at hturn
    split_ifs at hturn <;> (cases hturn; exact ht)

theorem processIncoming_encryptCtx (x : Incoming) :
    (processIncoming x).1.stream.encryptCtx = x.stream.encryptCtx := by
  unfold processIncoming
  dsimp only
  split_ifs
  · exact deframe_encryptCtx x
  · exact (deliver_encryptCtx _).trans (deframe_encryptCtx x)

/-- **A pump emits nothing of its own**: what it writes was queued. -/
theorem pump_emitted (s : ClientStream) (moved : ℕ) (env : PumpEnv) :
    pumpSent s moved env ++ ringContents (pumpReady s moved env).1.outRing =
      ringContents s.outRing := by
  have hkeeps := processIncoming_keeps ⟨pumpRead s env, env.mallocs, moved⟩
  have hflush := sslFlushOut_contents env.writes
    (processIncoming ⟨pumpRead s env, env.mallocs, moved⟩).1.stream.outRing
  refine hflush.trans ?_
  rw [hkeeps.outRing]
  rfl

/-- A frame of an HTTP stream is the chunk around what it carries. -/
theorem isTransportFrame_chunk {mask : Fin 4 → UInt8} {ks : Keystream} {pos : ℕ} {m : TunnelSend}
    {frame : Bytes} (h : IsTransportFrame .http mask (xorAt ks pos m.plain) frame) :
    frame = (m.chunk ks pos).encode := by
  obtain ⟨outCap, hw⟩ := h
  unfold t3HttpChunkWrite at hw
  simp only at hw
  split_ifs at hw
  rw [← Except.ok.inj hw]
  simp only [HttpChunk.encode, HttpChunk.line, HttpChunk.extBytes, TunnelSend.chunk,
    List.append_nil, List.append_assoc]

/-- **A message that is taken is emitted as its chunk**, and the cipher stands behind it. -/
theorem Sender.step_emitted {x : Sender} {m : TunnelSend} {c : CtrContext}
    (hready : x.stream.state = .ready) (hmode : x.stream.mode = .http)
    (hctx : x.stream.encryptCtx = some c) (h : x.Takes m) :
    (x.step m).stream.state = .ready ∧ (x.step m).stream.mode = .http ∧
      (x.step m).stream.encryptCtx = some { c with pos := c.pos + m.plain.length } ∧
      (x.step m).emitted = x.emitted ++ (m.chunk c.ks c.pos).encode := by
  have hdata : ¬ (m.data.length = 0 ∨ m.data.length > SHIM_BUF) := by
    have hpos := m.data_pos
    have hle := m.data_le
    omega
  have haccepted := h.accepted
  unfold Sender.step
  unfold tunnelSend at haccepted ⊢
  rw [dif_neg hdata] at haccepted ⊢
  dsimp only at haccepted ⊢
  set framed : Object := ⟨tunnelFramed m.data, _⟩ with hframed
  by_cases hrc : (t3ClientWrite x.stream (some framed) m.write).rc = .ok
  swap
  · rw [if_pos hrc] at haccepted
    have hne : (-1 : ℤ) ≠ 0 := by decide
    exact absurd haccepted hne
  rw [if_neg (not_not.mpr hrc)]
  obtain ⟨c', encrypted, frame, hc, -, hlen, hbody, hflen, htr, heq⟩ :=
    t3ClientWrite_accepted _ _ _ hrc
  obtain rfl := Option.some.inj (hctx.symm.trans hc)
  have hmsg : framed.length = 2 + m.data.length := tunnelFramed_length m.data
  rw [hmsg] at hlen hbody heq
  have hplain := m.plain_length
  have hle := m.plain_length_le
  have hsmall : 4 + (2 + m.data.length) + m.write.paddingLen < 2 ^ 31 := by omega
  have hwrap : (wrap32 (4 + (2 + m.data.length) + m.write.paddingLen : ℕ)).toNat =
      m.plain.length := by
    rw [wrap32_of_fits (by omega) (by omega), Int.toNat_natCast, hplain]
  have hencrypted : encrypted = xorAt c.ks c.pos m.plain := hbody hsmall
  rw [hmode, hencrypted] at htr
  have hchunk := isTransportFrame_chunk htr
  have hroom : ringUsed x.stream.outRing + frame.length ≤ x.stream.outRing.cap := by
    have hfit := h.room
    rw [hflen, hlen]
    unfold ringUsed
    omega
  have hcontents := queueFrame_contents { x.stream with encryptCtx := some { c with
    pos := c.pos + m.plain.length } } frame m.write.writes
  rw [if_pos hroom] at hcontents
  rw [hwrap] at heq
  have hkeeps := processIncoming_keeps ⟨pumpRead (t3ClientWrite x.stream (some framed)
    m.write).stream m.pump, m.pump.mallocs, x.moved⟩
  have hcipher := processIncoming_encryptCtx ⟨pumpRead (t3ClientWrite x.stream (some framed)
    m.write).stream m.pump, m.pump.mallocs, x.moved⟩
  refine ⟨?_, ?_, ?_, ?_⟩
  · refine (hkeeps.state : _ = (t3ClientWrite x.stream (some framed) m.write).stream.state).trans ?_
    rw [heq]
    exact hready
  · refine (hkeeps.mode : _ = (t3ClientWrite x.stream (some framed) m.write).stream.mode).trans ?_
    rw [heq]
    exact hmode
  · refine (hcipher : _ =
      (t3ClientWrite x.stream (some framed) m.write).stream.encryptCtx).trans ?_
    rw [heq]
    rfl
  · unfold Sender.emitted
    dsimp only
    rw [List.append_assoc, pump_emitted, List.append_assoc, heq, hcontents, ← hchunk,
      List.append_assoc]

/-- **What a run emits**: the chunks of its messages. -/
theorem Sender.emitted_run {x : Sender} {c : CtrContext} (sends : List TunnelSend)
    (hready : x.stream.state = .ready) (hmode : x.stream.mode = .http)
    (hctx : x.stream.encryptCtx = some c) (hrun : Along Sender.step Sender.Takes x sends) :
    (finish Sender.step x sends).emitted =
      x.emitted ++ (tunnelChunks c.ks c.pos sends).flatMap ServerFrame.encode := by
  induction sends generalizing x c with
  | nil => exact (List.append_nil _).symm
  | cons m sends ih =>
    obtain ⟨hready', hmode', hctx', hemitted⟩ := Sender.step_emitted hready hmode hctx hrun.1
    rw [finish_cons, ih hready' hmode' hctx' hrun.2, hemitted, List.append_assoc]
    rfl

end Client
end Teleproto3
