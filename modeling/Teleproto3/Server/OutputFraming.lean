/-
# The framing of what a server sends

`cpu_tcp_aes_crypto_ctr128_encrypt_output` cuts `c->out` into pieces, encrypts them in a row and
puts each into an HTTP chunk or a WebSocket frame.  What the readers of
`lib/src/t3_http_stream.c` and `lib/src/t3_client_ws.c` make of that is what was encrypted:
`cpuTcpAesCryptoCtr128EncryptOutput_framed` is about one call, `serverOutput_framed` about a
connection from where its request has been answered on, whatever is put into `c->out` and
whenever the writer runs.
-/

import Mathlib.Data.Nat.Digits.Lemmas
import Teleproto3.Client.WsFrame
import Teleproto3.Lib.Framing
import Teleproto3.Lib.Runs
import Teleproto3.Server.ParseLoop
import Teleproto3.Server.Writer

namespace Teleproto3
namespace Server

open Lib Wire Client

/-! ### The two framings -/

/-- The framings of what goes to a client. -/
inductive Framing
  | http
  | ws
  deriving DecidableEq, Repr

namespace Framing

/-- What stands on the wire for an encrypted piece. -/
def frame : Framing → Bytes → Bytes
  | .http, p => httpChunkWriteHeader p.length ++ p ++ crlf
  | .ws, p => wsWriteFrameHeader p.length ++ p

/-- The reader of the other side: what it hands out, and what it takes. -/
def parse : Framing → Bytes → Option (Bytes × ℕ)
  | .http, bs =>
    match t3HttpChunkParse bs with
    | .ok v => some (v.data, v.consumed)
    | .error _ => none
  | .ws, bs =>
    match t3cWsFrameRead bs with
    | .frame payload _ consumed => some (payload, consumed)
    | _ => none

/-- The connections that a framing is for. -/
def Of {W : Type*} : Framing → Conn W → Prop
  | .http, c => c.wsState ≠ .active ∧ c.transportMode ≠ .ws
  | .ws, c => c.wsState = .active ∧ c.transportMode = .ws

/-- The longest piece. -/
def maxPiece : ℕ := 16384

theorem parse_nil (f : Framing) : f.parse [] = none := by
  cases f <;> rfl

end Framing

/-- Numbers of up to four hexadecimal digits. -/
theorem t3SizeToHex_length_le_four {n : ℕ} (h : n ≤ Framing.maxPiece) : (t3SizeToHex n).length ≤ 4 := by
  unfold t3SizeToHex
  split_ifs with h0
  · exact Nat.le_add_left 1 3
  · rw [List.length_reverse, List.length_map]
    refine (Nat.digits_length_le_iff (by decide) n).mpr ?_
    exact lt_of_le_of_lt h (by decide)

/-- The header of a frame of up to 64 KiB is the one that such a frame has. -/
theorem wsWriteFrameHeader_eq {n : ℕ} (h : n ≤ 65535) :
    wsWriteFrameHeader n = 0x82 :: WsFrame.lenBytes n := by
  unfold wsWriteFrameHeader WsFrame.lenBytes
  split_ifs
  · rfl
  · rfl
  · omega

/-- The chunk written for a piece. -/
def outputChunk (p : Bytes) (h : p.length ≤ Framing.maxPiece) : HttpChunk where
  hex := t3SizeToHex p.length
  ext := none
  data := p
  hex_ne_nil := HttpChunk.digits_ne_nil p
  size := HttpChunk.digits_size p
  data_le := h.trans (by decide)
  ext_le := HttpChunk.no_ext_le
  ext_line := HttpChunk.no_ext_line

/-- The frame written for a piece. -/
def outputFrame (p : Bytes) (h : p.length ≤ Framing.maxPiece) : WsFrame where
  first := 0x82
  payload := p
  opcode := WsFrame.binary_opcode
  reserved := WsFrame.binary_reserved
  payload_lt := lt_of_le_of_lt h (by decide)

/-- **Each framing is read by the reader of the other side.** -/
theorem Framing.reads (f : Framing) {p : Bytes} (h : p.length ≤ maxPiece) :
    Reads f.parse (f.frame p) p := by
  intro rest
  cases f with
  | http =>
    have hframe : frame .http p = (outputChunk p h).encode := by
      simp [frame, HttpChunk.encode, HttpChunk.line, HttpChunk.extBytes, outputChunk,
        httpChunkWriteHeader]
    have hline : (outputChunk p h).line.length ≤ 2 ^ 63 := by
      have hhex := t3SizeToHex_length_le_four h
      simp only [HttpChunk.line, HttpChunk.extBytes, outputChunk, List.append_nil]
      omega
    rw [hframe, parse, t3HttpChunkParse_encode _ _ hline]
    rfl
  | ws =>
    have hframe : frame .ws p = (outputFrame p h).encode := by
      rw [frame, wsWriteFrameHeader_eq (h.trans (by decide))]
      rfl
    rw [hframe, parse, t3cWsFrameRead_encode]
    rfl

/-! ### One call -/

variable {W : Type*}

/-- A turn on a connection with a framing. -/
theorem outputPiece_of {f : Framing} {c : Conn W} (hf : f.Of c) :
    ∃ header, outputPiece c = .ok (min c.out.length Framing.maxPiece, header) ∧
      ∀ p : Bytes, p.length = min c.out.length Framing.maxPiece →
        header ++ p ++ (if c.transportMode ≠ .ws then crlf else []) = f.frame p := by
  cases f with
  | http =>
    refine ⟨_, by rw [outputPiece, if_neg hf.1, if_pos hf.2]; rfl, fun p hp => ?_⟩
    rw [if_pos hf.2, Framing.frame, hp]
    rfl
  | ws =>
    refine ⟨_, by rw [outputPiece, if_pos hf.1]; rfl, fun p hp => ?_⟩
    rw [if_neg (fun h => h hf.2), Framing.frame, hp, List.append_nil]
    rfl

/-- What a call leaves behind: `ps` are the pieces it encrypted. -/
def Conn.encrypted (c : Conn W) (T : AesCrypto) (f : Framing) (ps : List Bytes) : Conn W :=
  { c with
    crypto := some { T with write := ⟨T.write.ks, T.write.pos + c.out.length⟩ }
    out := []
    outP := c.outP ++ ps.flatMap f.frame }

/-- The pieces of what was waiting in `out`. -/
structure Pieces (ks : Keystream) (pos : ℕ) (data : Bytes) (ps : List Bytes) : Prop where
  flatten : ps.flatten = xorAt ks pos data
  bounds : ∀ p ∈ ps, p ≠ [] ∧ p.length ≤ Framing.maxPiece

/-- The first piece in front of the others. -/
theorem Pieces.cons {ks : Keystream} {pos n : ℕ} {data : Bytes} {ps : List Bytes}
    (h : Pieces ks (pos + (data.take n).length) (data.drop n) ps) (hpos : 0 < n)
    (hdata : data ≠ []) (hn : (data.take n).length ≤ Framing.maxPiece) :
    Pieces ks pos data (xorAt ks pos (data.take n) :: ps) := by
  constructor
  · rw [List.flatten_cons, h.flatten, ← xorAt_append, List.take_append_drop]
  · intro p hp
    rcases List.mem_cons.mp hp with rfl | hp
    · refine ⟨fun hnil => ?_, (xorAt_length ks pos _).trans_le hn⟩
      have hlen := congrArg List.length hnil
      rw [xorAt_length, List.length_take, List.length_nil] at hlen
      have := List.length_pos_iff.mpr hdata
      omega
    · exact h.bounds p hp

/-- **One call frames all that waits in `out`.** -/
theorem cpuTcpAesCryptoCtr128EncryptOutput_framed {f : Framing} {c : Conn W} {T : AesCrypto}
    (hf : f.Of c) (hT : c.crypto = some T) :
    ∃ ps, cpuTcpAesCryptoCtr128EncryptOutput c = .ok (c.encrypted T f ps) ∧
      Pieces T.write.ks T.write.pos c.out ps := by
  induction hn : c.out.length using Nat.strongRecOn generalizing c T with
  | ind n ih =>
    by_cases hout : c.out = []
    · have hturn : encryptTurn c = .done (.ok c) := by
        simp [encryptTurn, hT, hout]
      refine ⟨[], ?_, ?_⟩
      · have hsame : c.encrypted T f [] = c := by
          cases c
          simp_all [Conn.encrypted]
        rw [cpuTcpAesCryptoCtr128EncryptOutput, loop_of_done _ hturn, hsame]
      · rw [hout]
        exact ⟨rfl, fun p hp => nomatch hp⟩
    · obtain ⟨header, hpiece, hframe⟩ := outputPiece_of hf
      have hpos : 0 < c.out.length := List.length_pos_iff.mpr hout
      generalize hlen : min c.out.length Framing.maxPiece = len at hpiece hframe
      have hlen' : 0 < len := outputPiece_pos hpiece hpos
      have hle : len ≤ c.out.length := hlen ▸ min_le_left _ _
      have hturn : encryptTurn c = .again (encryptPiece c T len header) := by
        simp [encryptTurn, hT, hout, hpiece]
      have htake : (c.out.take len).length = len := by
        rw [List.length_take, min_eq_left hle]
      have hdrop : (encryptPiece c T len header).out.length < n := by
        show (c.out.drop len).length < n
        rw [List.length_drop]
        omega
      have hf' : f.Of (encryptPiece c T len header) := by
        cases f <;> exact hf
      obtain ⟨ps, hcall, hps⟩ := ih _ hdrop hf' rfl rfl
      refine ⟨xorAt T.write.ks T.write.pos (c.out.take len) :: ps, ?_, ?_⟩
      · rw [cpuTcpAesCryptoCtr128EncryptOutput] at hcall ⊢
        rw [loop_of_again _ hturn, hcall]
        have hpos' : T.write.pos + len + (c.out.length - len) = T.write.pos + c.out.length := by
          omega
        have hpiece' := hframe (xorAt T.write.ks T.write.pos (c.out.take len)) (by
          rw [xorAt_length, htake])
        simp only [Conn.encrypted, encryptPiece, List.length_drop, hpos', List.flatMap_cons,
          ← hpiece', List.append_assoc]
      · refine Pieces.cons (n := len) ?_ hlen' hout (by rw [htake, ← hlen]; exact min_le_right _ _)
        rw [htake]
        exact hps

/-! ### The writer -/

variable {env : WriterEnv W}

/-- A connection with more in `out`. -/
def Conn.puts (c : Conn W) (m : Bytes) (world : W) : Conn W :=
  { c with out := c.out ++ m, world := world }

theorem Conn.puts_puts (c : Conn W) (m n : Bytes) (w v : W) :
    (c.puts m w).puts n v = c.puts (m ++ n) v := by
  simp [Conn.puts, List.append_assoc]

theorem tcpRpcWritePacket_puts (env : WriterEnv W) (c : Conn W) (raw : Bytes) :
    ∃ m w, tcpRpcWritePacket env c raw = c.puts m w := by
  unfold tcpRpcWritePacket
  split_ifs
  · exact ⟨[], c.world, by simp [Conn.puts]⟩
  · exact ⟨_, _, rfl⟩

theorem padPacket_puts (env : WriterEnv W) (c : Conn W) (raw : Bytes) :
    ∃ w, (padPacket env c raw).1 = { c with world := w } := by
  unfold padPacket
  split_ifs
  · exact ⟨_, rfl⟩
  · exact ⟨c.world, rfl⟩

theorem tcpRpcWritePacketCompact_puts {c d : Conn W} {raw : Bytes}
    (h : tcpRpcWritePacketCompact env c raw = .ok d) : ∃ m w, d = c.puts m w := by
  unfold tcpRpcWritePacketCompact at h
  obtain ⟨w, hw⟩ := padPacket_puts env c raw
  split_ifs at h
  · cases h
    exact ⟨_, c.world, rfl⟩
  · cases h
    exact ⟨_, c.world, rfl⟩
  · dsimp only at h
    rw [hw] at h
    split_ifs at h
    cases h
    exact ⟨_, w, rfl⟩
  · rw [← Except.ok.inj h]
    exact tcpRpcWritePacket_puts env c raw

/-- **The method `write_packet` puts something into `out`.** -/
theorem writePacket_puts {c d : Conn W} {raw : Bytes} (h : writePacket env c raw = .ok d) :
    ∃ m w, d = c.puts m w := by
  have hcompact (hraw : tcpRpcWritePacketCompact env c raw = .ok d) :=
    tcpRpcWritePacketCompact_puts hraw
  unfold writePacket at h
  cases htype : c.type with
  | rpcExtServer => exact hcompact (by simpa only [htype] using h)
  | rpcExtServerDrs => exact hcompact (by simpa only [htype] using h)
  | directClient | directClientDrs | proxyPass =>
    simp only [htype] at h
    cases h
    exact ⟨raw, c.world, rfl⟩

/-- The loop over `out_queue`. -/
theorem foldlM_writePacket_puts {msgs : List Bytes} {c d : Conn W}
    (h : msgs.foldlM (writePacket env) c = .ok d) : ∃ m w, d = c.puts m w := by
  induction msgs generalizing c with
  | nil =>
    refine ⟨[], c.world, ?_⟩
    rw [← Except.ok.inj h]
    simp [Conn.puts]
  | cons raw msgs ih =>
    rw [List.foldlM_cons] at h
    cases hraw : writePacket env c raw with
    | error a =>
      rw [hraw] at h
      exact nomatch h
    | ok e =>
      rw [hraw] at h
      obtain ⟨m, w, rfl⟩ := writePacket_puts hraw
      obtain ⟨n, v, rfl⟩ := ih h
      exact ⟨m ++ n, v, c.puts_puts m n w v⟩

/-- A connection whose queue has been emptied into `out`. -/
def Conn.drained (c : Conn W) (m : Bytes) (world : W) : Conn W :=
  { c with outQueue := [], out := c.out ++ m, world := world }

/-- **The queue is emptied into `out`.** -/
theorem drainQueue_drained {c d : Conn W} (h : drainQueue env c = .ok d) :
    ∃ m w, d = c.drained m w := foldlM_writePacket_puts h

/-- A connection that is not to be closed gets no terminal chunk. -/
theorem writerClosing_of_ne {c : Conn W} (h : c.status ≠ .writeClose) : writerClosing c = c :=
  if_neg fun hc => h hc.1

/-- The terminal chunk is the frame of nothing. -/
theorem httpStreamWriteTerminal_outP {c : Conn W} (h : c.transportMode ≠ .ws) :
    (httpStreamWriteTerminal c).outP = c.outP ++ Framing.http.frame [] := by
  rw [httpStreamWriteTerminal, if_pos h]
  rfl

/-- All but `out_p` is as before. -/
theorem writerClosing_spares (c : Conn W) : ∃ outP wantWr,
    writerClosing c = { c with outP := outP, cWantWr := wantWr } := by
  unfold writerClosing httpStreamWriteTerminal
  split_ifs
  · exact ⟨_, _, rfl⟩
  · exact ⟨c.outP, c.cWantWr, rfl⟩
  · exact ⟨c.outP, c.cWantWr, rfl⟩

theorem Pieces.append {ks : Keystream} {pos : ℕ} {data more : Bytes} {ps qs : List Bytes}
    (h : Pieces ks pos data ps) (h' : Pieces ks (pos + data.length) more qs) :
    Pieces ks pos (data ++ more) (ps ++ qs) := by
  constructor
  · rw [List.flatten_append, h.flatten, h'.flatten, xorAt_append]
  · intro p hp
    rcases List.mem_append.mp hp with hp | hp
    · exact h.bounds p hp
    · exact h'.bounds p hp

/-- **Pieces in their frames are taken apart again.** -/
theorem Pieces.deframes {ks : Keystream} {pos : ℕ} {data : Bytes} {ps : List Bytes}
    (h : Pieces ks pos data ps) (f : Framing) : Deframes f.parse (ps.flatMap f.frame) ps :=
  deframes_flatMap fun p hp => f.reads (h.bounds p hp).2

theorem Pieces.nil_notMem {ks : Keystream} {pos : ℕ} {data : Bytes} {ps : List Bytes}
    (h : Pieces ks pos data ps) : [] ∉ ps :=
  fun hnil => (h.bounds [] hnil).1 rfl

/-- What a socket has been given. -/
def SocketConn.given (io : SocketConn) : Bytes := io.outPacketQueue.flatten

/-- What is handed over is given to the socket. -/
theorem writerSend_given (stop : Bool) (raw : Bytes) (io : SocketConn) :
    ∃ io', writerSend stop raw (some io) = some io' ∧ io'.given = io.given ++ raw := by
  refine ⟨_, rfl, ?_⟩
  dsimp only
  split_ifs with hraw
  · rw [List.length_eq_zero_iff.mp hraw, List.append_nil]
  · simp [SocketConn.given]

/-- The types with this writer that encrypt. -/
def Conn.Plain (c : Conn W) : Prop := c.type = .rpcExtServer ∨ c.type = .directClient

theorem Conn.Plain.encrypts {c : Conn W} (h : c.Plain) (hcrypto : c.crypto.isSome = true) :
    c.encrypts := by
  refine ⟨?_, hcrypto⟩
  rcases h with h | h <;> rw [h] <;> exact ConnType.noConfusion

/-- What the writer does with what it has filled. -/
theorem cpuTcpServerWriter_of_fill {c d : Conn W} {io : Option SocketConn}
    (h : writerFill env c = .ok d) :
    cpuTcpServerWriter env ⟨c, io⟩ = .ok ⟨(writerTake d).1,
      writerSend (c.status = .writeClose) (writerTake d).2 io⟩ := by
  rw [cpuTcpServerWriter, h]
  rfl

/-- The writer fills `out_p` on a connection with a cipher. -/
theorem writerFill_framed {f : Framing} {c d : Conn W} {T : AesCrypto} (hplain : c.Plain)
    (hf : f.Of c) (hT : c.crypto = some T) (hdrain : drainQueue env (writerClosing c) = .ok d) :
    ∃ m w ps, d = (writerClosing c).drained m w ∧ d.encrypts ∧
      Pieces T.write.ks T.write.pos (c.out ++ m) ps ∧
      writerFill env c = .ok (d.encrypted T f ps) := by
  obtain ⟨m, w, hd⟩ := drainQueue_drained hdrain
  obtain ⟨outP, wantWr, hclosing⟩ := writerClosing_spares c
  have hdT : d.crypto = some T := by rw [hd, hclosing]; exact hT
  have hdplain : d.Plain := by rw [hd, hclosing]; exact hplain
  have hdf : f.Of d := by rw [hd, hclosing]; cases f <;> exact hf
  have hdout : d.out = c.out ++ m := by rw [hd, hclosing]; rfl
  have hdenc : d.encrypts := hdplain.encrypts (by rw [hdT]; rfl)
  obtain ⟨ps, hcall, hps⟩ := cpuTcpAesCryptoCtr128EncryptOutput_framed hdf hdT
  rw [hdout] at hps
  refine ⟨m, w, ps, hd, hdenc, hps, ?_⟩
  rw [writerFill, hdrain, Except.bind, if_pos hdenc, hcall]

/-- **The writer on a connection with a cipher.** -/
theorem cpuTcpServerWriter_framed {f : Framing} {c : Conn W} {io : SocketConn} {T : AesCrypto}
    {o : ServerOutput W} (hplain : c.Plain) (hf : f.Of c) (hT : c.crypto = some T)
    (h : cpuTcpServerWriter env ⟨c, some io⟩ = .ok o) :
    ∃ m w ps io', drainQueue env (writerClosing c) = .ok ((writerClosing c).drained m w) ∧
      Pieces T.write.ks T.write.pos (c.out ++ m) ps ∧
      o = ⟨{ ((writerClosing c).drained m w).encrypted T f ps with outP := [] }, some io'⟩ ∧
      io'.given = io.given ++ ((writerClosing c).outP ++ ps.flatMap f.frame) := by
  cases hdrain : drainQueue env (writerClosing c) with
  | error a =>
    rw [cpuTcpServerWriter, writerFill, hdrain] at h
    exact nomatch h
  | ok d =>
    obtain ⟨m, w, ps, hd, hdenc, hps, hfill⟩ := writerFill_framed hplain hf hT hdrain
    have htake : writerTake (d.encrypted T f ps) =
        ({ d.encrypted T f ps with outP := [] }, d.outP ++ ps.flatMap f.frame) :=
      if_pos ⟨hdenc.1, rfl⟩
    obtain ⟨io', hsend, hgiven⟩ := writerSend_given (c.status = .writeClose)
      (d.outP ++ ps.flatMap f.frame) io
    rw [cpuTcpServerWriter_of_fill hfill, htake, hsend] at h
    refine ⟨m, w, ps, io', by rw [hd], hps, ?_, ?_⟩
    · rw [← hd]
      exact (Except.ok.inj h).symm
    · rw [hgiven, hd]
      rfl

/-- **The writer on a connection without a cipher** that has nothing queued. -/
theorem cpuTcpServerWriter_clear {c : Conn W} {io : SocketConn} {o : ServerOutput W}
    (hstatus : c.status ≠ .writeClose) (hT : c.crypto = none) (hqueue : c.outQueue = [])
    (h : cpuTcpServerWriter env ⟨c, some io⟩ = .ok o) :
    drainQueue env (writerClosing c) = .ok c ∧
      ∃ io', o = ⟨{ c with out := [] }, some io'⟩ ∧ io'.given = io.given ++ c.out := by
  have hclear : ¬ c.encrypts := fun he => by
    have hsome := he.2
    rw [hT] at hsome
    exact nomatch hsome
  have hsame : ({ c with outQueue := [] } : Conn W) = c := by
    rw [← hqueue]
  have hdrain : drainQueue env c = .ok c := by
    rw [drainQueue, hqueue, hsame]
    rfl
  have hfill : writerFill env c = .ok c := by
    rw [writerFill, writerClosing_of_ne hstatus, hdrain, Except.bind, if_neg hclear]
  have htake : writerTake c = ({ c with out := [] }, c.out) := if_neg hclear
  obtain ⟨io', hsend, hgiven⟩ := writerSend_given (c.status = .writeClose) c.out io
  rw [cpuTcpServerWriter_of_fill hfill, htake, hsend] at h
  rw [writerClosing_of_ne hstatus]
  exact ⟨hdrain, io', (Except.ok.inj h).symm, hgiven⟩

/-! ### Runs -/

/-- A connection from where its request has been answered on. -/
structure OutputRun (W : Type*) extends ServerOutput W where
  /-- what has been put into `c->out` behind the handshake -/
  written : Bytes
  /-- whether no assertion has failed -/
  alive : Bool

/-- What has reached the queue of the socket. -/
def OutputRun.sent (s : OutputRun W) : Bytes :=
  match s.ioConn with
  | some io => io.given
  | none => []

/-- What the writer puts into `c->out` for the messages that are queued. -/
def queueWrites (env : WriterEnv W) (c : Conn W) : Bytes :=
  match drainQueue env (writerClosing c) with
  | .ok d => d.out.drop c.out.length
  | .error _ => []

/-- What happens to the output of a connection. -/
inductive OutputEvent (W : Type*)
  /-- the obfuscated2 header is accepted -/
  | handshake (pr : Obfs2ParseResult)
  /-- data is put into `c->out` -/
  | put (data : Bytes)
  /-- a message is queued for the writer -/
  | queue (raw : Bytes)
  | writer
  /-- the rest of the connection changes -/
  | elsewhere (d : Conn W)

/-- One event. -/
def outputStep (ext : ExtServerEnv W) (env : WriterEnv W) (s : OutputRun W)
    (e : OutputEvent W) : OutputRun W :=
  if s.alive = false then s
  else
    match e with
    | .handshake pr => { s with conn := startCrypto ext s.conn pr }
    | .put data => { s with conn := s.conn.putOut data, written := s.written ++ data }
    | .queue raw => { s with conn := { s.conn with outQueue := s.conn.outQueue ++ [raw] } }
    | .writer =>
      match cpuTcpServerWriter env s.toServerOutput with
      | .error _ => { s with alive := false }
      | .ok o => { s with toServerOutput := o, written := s.written ++ queueWrites env s.conn }
    | .elsewhere d => { s with conn := d }

/-- What the rest of the server does to a connection leaves its output alone. -/
structure SameOutput (c d : Conn W) : Prop where
  out : d.out = c.out
  outP : d.outP = c.outP
  outQueue : d.outQueue = c.outQueue
  write : d.crypto.map AesCrypto.write = c.crypto.map AesCrypto.write
  wsState : d.wsState = c.wsState
  transportMode : d.transportMode = c.transportMode
  status : d.status ≠ .writeClose
  plain : d.Plain

/-- The events a connection may meet: there is one handshake, and data comes behind it. -/
def OutputLegal (s : OutputRun W) : OutputEvent W → Prop
  | .handshake _ => s.conn.crypto = none
  | .put _ | .queue _ => s.conn.crypto.isSome
  | .writer => True
  | .elsewhere d => SameOutput s.conn d

/-- A connection as it is accepted, with its request received. -/
structure Unanswered (c : Conn W) : Prop where
  type : c.type = .rpcExtServer
  status : c.status = .working
  crypto : c.crypto = none
  transportMode : c.transportMode = .ws
  out : c.out = []
  outP : c.outP = []
  outQueue : c.outQueue = []

/-- A connection whose request has just been answered: its framing, and the answer. -/
inductive Answered : Framing → Conn W → Bytes → Prop
  | http {c : Conn W} (hc : Unanswered c) (buf : Bytes) (headersLen : ℕ) :
      Answered .http (enterHttpStream c buf headersLen)
        (httpStreamResponse (hasUpgradeWs true (buf.take headersLen)))
  | ws {c : Conn W} (hc : Unanswered c) (acceptKey : Bytes) :
      Answered .ws (enterWs c acceptKey) (wsBuildUpgradeResponse acceptKey)

/-- The run starts with an empty socket. -/
def OutputRun.start (c : Conn W) : OutputRun W := ⟨⟨c, some ⟨[], false⟩⟩, [], true⟩

/-- What is on its way to a client: the answer in the clear, once, and behind it frames that
the client's reader takes apart to what has been encrypted so far. -/
structure OnTheWay (f : Framing) (answer : Bytes) (s : OutputRun W) : Prop where
  clear : s.conn.crypto = none → s.sent ++ s.conn.out = answer ∧ s.conn.outP = []
  framed : ∀ T, s.conn.crypto = some T → ∃ body ps data,
    s.sent ++ s.conn.outP = answer ++ body ∧ Deframes f.parse body ps ∧ [] ∉ ps ∧
      ps.flatten = xorAt T.write.ks 0 data ∧ T.write.pos = data.length ∧
      data ++ s.conn.out = s.written

/-- What the socket has been given behind a run of the writer: the answer, and frames for all
that has been put into `c->out`. -/
structure HandedOver (f : Framing) (answer : Bytes) (s : OutputRun W) : Prop where
  queue : s.conn.outQueue = []
  clear : s.conn.crypto = none → s.sent = answer
  framed : ∀ T, s.conn.crypto = some T → ∃ body ps, s.sent = answer ++ body ∧
    Deframes f.parse body ps ∧ [] ∉ ps ∧ ps.flatten = xorAt T.write.ks 0 s.written ∧
      T.write.pos = s.written.length

/-- The invariant of a run: `data` has been cut into `ps`. -/
structure OutputSound (f : Framing) (answer : Bytes) (s : OutputRun W) : Prop where
  plain : s.conn.Plain
  framing : f.Of s.conn
  status : s.conn.status ≠ .writeClose
  socket : ∃ io, s.ioConn = some io
  clear : s.conn.crypto = none →
    s.sent ++ s.conn.out = answer ∧ s.conn.outP = [] ∧ s.conn.outQueue = [] ∧ s.written = []
  framed : ∀ T, s.conn.crypto = some T → ∃ ps data,
    s.sent ++ s.conn.outP = answer ++ ps.flatMap f.frame ∧ Pieces T.write.ks 0 data ps ∧
      T.write.pos = data.length ∧ data ++ s.conn.out = s.written

namespace OutputSound

variable {ext : ExtServerEnv W} {f : Framing} {answer : Bytes} {s : OutputRun W}

theorem start {c : Conn W} (h : Answered f c answer) : OutputSound f answer (.start c) := by
  cases h with
  | http hc buf headersLen =>
    refine ⟨Or.inl hc.type, ⟨WsState.noConfusion, ?_⟩, ?_, ⟨_, rfl⟩, fun _ => ⟨?_, hc.outP,
      hc.outQueue, rfl⟩, fun T hT => ?_⟩
    · show (if hasChunkedTe buf then TransportMode.httpStream else .httpStreamRaw) ≠ .ws
      split_ifs <;> exact TransportMode.noConfusion
    · exact fun h => nomatch hc.status.symm.trans h
    · show [] ++ (_ ++ _) = _
      rw [hc.out]
      rfl
    · exact nomatch hc.crypto.symm.trans hT
  | ws hc acceptKey =>
    refine ⟨Or.inl hc.type, ⟨rfl, hc.transportMode⟩, ?_, ⟨_, rfl⟩, fun _ => ⟨?_, hc.outP,
      hc.outQueue, rfl⟩, fun T hT => ?_⟩
    · exact fun h => nomatch hc.status.symm.trans h
    · show [] ++ (_ ++ _) = _
      rw [hc.out]
      rfl
    · exact nomatch hc.crypto.symm.trans hT

/-- The header of the handshake is accepted. -/
theorem handshake (h : OutputSound f answer s) (pr : Obfs2ParseResult)
    (hnone : s.conn.crypto = none) :
    OutputSound f answer { s with conn := startCrypto ext s.conn pr } := by
  obtain ⟨hanswer, houtP, -, hwritten⟩ := h.clear hnone
  refine ⟨h.plain, ?_, h.status, h.socket, fun hc => (nomatch hc), fun T hT => ?_⟩
  · cases f <;> exact h.framing
  · obtain rfl := Option.some.inj hT
    refine ⟨[], [], ?_, ⟨rfl, fun p hp => nomatch hp⟩, rfl, hwritten.symm⟩
    show s.sent ++ (s.conn.outP ++ s.conn.out) = answer ++ []
    rw [houtP, List.nil_append, hanswer, List.append_nil]

/-- Data is put into `c->out`. -/
theorem put (h : OutputSound f answer s) (data : Bytes) (hsome : s.conn.crypto.isSome = true) :
    OutputSound f answer
      { s with conn := s.conn.putOut data, written := s.written ++ data } := by
  refine ⟨h.plain, ?_, h.status, h.socket, fun hc => ?_, fun T hT => ?_⟩
  · cases f <;> exact h.framing
  · have hnone : s.conn.crypto = none := hc
    rw [hnone] at hsome
    exact nomatch hsome
  · obtain ⟨ps, old, hsent, hps, hpos, hwritten⟩ := h.framed T hT
    refine ⟨ps, old, hsent, hps, hpos, ?_⟩
    show old ++ (s.conn.out ++ data) = s.written ++ data
    rw [← List.append_assoc, hwritten]

/-- A message is queued. -/
theorem queue (h : OutputSound f answer s) (raw : Bytes) (hsome : s.conn.crypto.isSome = true) :
    OutputSound f answer
      { s with conn := { s.conn with outQueue := s.conn.outQueue ++ [raw] } } := by
  refine ⟨h.plain, ?_, h.status, h.socket, fun hc => ?_, h.framed⟩
  · cases f <;> exact h.framing
  · have hnone : s.conn.crypto = none := hc
    rw [hnone] at hsome
    exact nomatch hsome

/-- The rest of the connection changes. -/
theorem elsewhere (h : OutputSound f answer s) {d : Conn W} (hd : SameOutput s.conn d) :
    OutputSound f answer { s with conn := d } := by
  refine ⟨hd.plain, ?_, hd.status, h.socket, fun hc => ?_, fun T hT => ?_⟩
  · have hf := h.framing
    cases f with
    | http => exact ⟨by rw [hd.wsState]; exact hf.1, by rw [hd.transportMode]; exact hf.2⟩
    | ws => exact ⟨by rw [hd.wsState]; exact hf.1, by rw [hd.transportMode]; exact hf.2⟩
  · have hwrite := hd.write
    have hnone : d.crypto = none := hc
    rw [hnone] at hwrite
    obtain ⟨hanswer, houtP, hqueue, hwritten⟩ :=
      h.clear (Option.map_eq_none_iff.mp hwrite.symm)
    refine ⟨?_, ?_, ?_, hwritten⟩
    · show s.sent ++ d.out = answer
      rw [hd.out, hanswer]
    · show d.outP = []
      rw [hd.outP, houtP]
    · show d.outQueue = []
      rw [hd.outQueue, hqueue]
  · have hwrite := hd.write
    have hsome : d.crypto = some T := hT
    rw [hsome] at hwrite
    obtain ⟨U, hU, heq⟩ := Option.map_eq_some_iff.mp hwrite.symm
    obtain ⟨ps, data, hsent, hps, hpos, hwritten⟩ := h.framed U hU
    rw [heq] at hps hpos
    refine ⟨ps, data, ?_, hps, hpos, ?_⟩
    · show s.sent ++ d.outP = _
      rw [hd.outP, hsent]
    · show data ++ d.out = s.written
      rw [hd.out, hwritten]

/-- **A run of the writer.** -/
theorem writer (h : OutputSound f answer s) {o : ServerOutput W}
    (ho : cpuTcpServerWriter env s.toServerOutput = .ok o) :
    OutputSound f answer
        { s with toServerOutput := o, written := s.written ++ queueWrites env s.conn } ∧
      HandedOver f answer
        { s with toServerOutput := o, written := s.written ++ queueWrites env s.conn } := by
  obtain ⟨io, hio⟩ := h.socket
  have hs : s.toServerOutput = ⟨s.conn, some io⟩ := by rw [← hio]
  have hsent : s.sent = io.given := by rw [OutputRun.sent, hio]
  rw [hs] at ho
  cases hT : s.conn.crypto with
  | none =>
    obtain ⟨hanswer, houtP, hqueue, hwritten⟩ := h.clear hT
    obtain ⟨hdrain, io', rfl, hgiven⟩ := cpuTcpServerWriter_clear h.status hT hqueue ho
    have hnothing : queueWrites env s.conn = [] := by
      rw [queueWrites, hdrain]
      exact List.drop_length
    have hclear : io'.given = answer := by rw [hgiven, ← hsent, hanswer]
    rw [hnothing, List.append_nil]
    constructor
    · refine ⟨h.plain, ?_, h.status, ⟨io', rfl⟩, fun _ => ⟨?_, houtP, hqueue, hwritten⟩,
        fun T hsome => nomatch hT.symm.trans hsome⟩
      · cases f <;> exact h.framing
      · show io'.given ++ [] = answer
        rw [List.append_nil, hclear]
    · exact ⟨hqueue, fun _ => hclear, fun T hsome => nomatch hT.symm.trans hsome⟩
  | some T =>
    obtain ⟨ps, data, hframes, hps, hpos, hwritten⟩ := h.framed T hT
    obtain ⟨m, w, qs, io', hdrain, hqs, rfl, hgiven⟩ :=
      cpuTcpServerWriter_framed h.plain h.framing hT ho
    rw [writerClosing_of_ne h.status] at hgiven
    have hm : queueWrites env s.conn = m := by
      rw [queueWrites, hdrain, writerClosing_of_ne h.status]
      exact List.drop_left
    rw [writerClosing_of_ne h.status]
    rw [hpos] at hqs
    have hall : Pieces T.write.ks 0 (data ++ (s.conn.out ++ m)) (ps ++ qs) :=
      hps.append (by rw [Nat.zero_add]; exact hqs)
    have hdata : data ++ (s.conn.out ++ m) = s.written ++ m := by
      rw [← List.append_assoc, hwritten]
    have hsent' : io'.given = answer ++ (ps ++ qs).flatMap f.frame := by
      rw [hgiven, ← List.append_assoc, ← hsent, hframes, List.flatMap_append, List.append_assoc]
    have hpos' : T.write.pos + (s.conn.out ++ m).length = (s.written ++ m).length := by
      have hlen : (data ++ (s.conn.out ++ m)).length = data.length + (s.conn.out ++ m).length :=
        List.length_append
      rw [← hdata, hlen, hpos]
    rw [hdata] at hall
    rw [hm]
    constructor
    · refine ⟨h.plain, ?_, h.status, ⟨io', rfl⟩, fun hnone => (nomatch hnone), fun U hU => ?_⟩
      · cases f <;> exact h.framing
      · obtain rfl := Option.some.inj hU
        refine ⟨ps ++ qs, s.written ++ m, ?_, hall, hpos', List.append_nil _⟩
        show io'.given ++ [] = _
        rw [List.append_nil, hsent']
    · refine ⟨rfl, fun hnone => (nomatch hnone), fun U hU => ?_⟩
      obtain rfl := Option.some.inj hU
      exact ⟨_, ps ++ qs, hsent', hall.deframes f, hall.nil_notMem, hall.flatten, hpos'⟩

/-- **What one event does.** -/
theorem step (h : OutputSound f answer s) {e : OutputEvent W} (he : OutputLegal s e) :
    OutputSound f answer (outputStep ext env s e) := by
  unfold outputStep
  split_ifs
  · exact h
  · cases e with
    | handshake pr => exact h.handshake pr he
    | put data => exact h.put data he
    | queue raw => exact h.queue raw he
    | writer =>
      dsimp only
      cases ho : cpuTcpServerWriter env s.toServerOutput with
      | error a => exact ⟨h.plain, h.framing, h.status, h.socket, h.clear, h.framed⟩
      | ok o => exact (h.writer ho).1
    | elsewhere d => exact h.elsewhere he

theorem onTheWay (h : OutputSound f answer s) : OnTheWay f answer s where
  clear hnone := ⟨(h.clear hnone).1, (h.clear hnone).2.1⟩
  framed T hT := by
    obtain ⟨ps, data, hsent, hps, hpos, hwritten⟩ := h.framed T hT
    exact ⟨_, ps, data, hsent, hps.deframes f, hps.nil_notMem, hps.flatten, hpos, hwritten⟩

/-- A run of the writer hands everything over. -/
theorem handedOver (h : OutputSound f answer s)
    (halive : (outputStep ext env s .writer).alive = true) :
    HandedOver f answer (outputStep ext env s .writer) := by
  unfold outputStep at halive ⊢
  split_ifs at halive ⊢ with hdead
  · exact nomatch hdead.symm.trans halive
  · dsimp only at halive ⊢
    cases ho : cpuTcpServerWriter env s.toServerOutput with
    | error a =>
      rw [ho] at halive
      exact nomatch halive
    | ok o => exact (h.writer ho).2

end OutputSound

/-- **What a server sends is framed for its client.**  From the answer to the request on, with
one handshake and whatever is put into `c->out` behind it, and however often the writer runs:
on the way is the answer, once and in the clear, and behind it frames that the client's reader
takes apart to the encryption of the data, none of them empty, with the cipher standing behind
what has been framed; and a run of the writer hands over all of it. -/
theorem serverOutput_framed {ext : ExtServerEnv W} {f : Framing} {answer : Bytes} {c : Conn W}
    (h : Answered f c answer) {events : List (OutputEvent W)}
    (hlegal : Along (outputStep ext env) OutputLegal (.start c) events) :
    Throughout (outputStep ext env) (fun s => OnTheWay f answer s ∧
      ((outputStep ext env s .writer).alive = true →
        HandedOver f answer (outputStep ext env s .writer))) (.start c) events :=
  (throughout_of_along (I := OutputSound f answer) (fun _ _ hs he => hs.step he) (.start h)
    hlegal).imp fun _ hs => ⟨hs.onTheWay, hs.handedOver⟩

/-- A connection whose request has been received. -/
def sampleUnanswered : Conn Unit := Conn.allocated ⟨0, [], 0, false⟩ 443 ()

/-- The surroundings of a writer whose random numbers are all 0. -/
def sampleWriter : WriterEnv Unit where
  lrand48 w := (0, w)
  outPacketNum w := (0, w)
  crc32 _ _ := 0

/-- The answer is sent before the handshake, and what is put into `out` behind it. -/
theorem serverOutput_framed_sample :
    Throughout (outputStep sampleServer sampleWriter)
      (fun s => OnTheWay .http (httpStreamResponse false) s ∧
        ((outputStep sampleServer sampleWriter s .writer).alive = true →
          HandedOver .http (httpStreamResponse false)
            (outputStep sampleServer sampleWriter s .writer)))
      (.start (enterHttpStream sampleUnanswered [] 0))
      [.writer, .handshake ⟨OBFS2_TAG_MEDIUM, 2, 0, ⟨[], [], [], []⟩⟩, .put [1, 2], .queue [3],
        .writer] :=
  serverOutput_framed (.http ⟨rfl, rfl, rfl, rfl, rfl, rfl, rfl⟩ [] 0)
    ⟨trivial, rfl, rfl, rfl, trivial, trivial⟩

end Server
end Teleproto3
