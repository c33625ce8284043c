/-
# From the client's writes to the server's frames

The messages a client writes in HTTP mode are framed, encrypted and put into chunks; the
server takes the chunks apart, decrypts, and reads the lengths of the frames.  Both ends limit
sizes on their own: the server refuses chunks of more than 65535 bytes, while
`t3_http_chunk_write` writes chunks of any size and `t3_client_write` never splits a
message.

So the stream arrives exactly when no frame is longer than a chunk may be:
`uplinkArrives_iff`.
-/

import Teleproto3.Client.Write
import Teleproto3.Server.ChunkStream
import Teleproto3.Server.ExtServer

namespace Teleproto3
namespace Server

open Lib Wire Client

/-! ### The client's side -/

/-- The client's stream with the bytes it has got written to TLS. -/
structure Uplink where
  stream : ClientStream
  sent : Bytes

/-- What happens on the client's side: a message is written, or `out_ring` is flushed. -/
inductive UplinkStep
  | write (msg : Object) (env : WriteEnv)
  | flush (writes : List SslWrite)

/-- A step of the client. -/
def uplinkStep (u : Uplink) : UplinkStep → Uplink
  | .write msg env =>
    let r := t3ClientWrite u.stream (some msg) env
    ⟨r.stream, u.sent ++ r.sent⟩
  | .flush writes =>
    let r := sslFlushOut writes u.stream.outRing
    ⟨{ u.stream with
        outRing := r.1
        outRing_cap := by rw [sslFlushOut_cap, u.stream.outRing_cap] },
      u.sent ++ r.2.1⟩

/-- What the client has emitted: what it got written and what is still queued. -/
def Uplink.emitted (u : Uplink) : Bytes := u.sent ++ ringContents u.stream.outRing

/-- A write is accepted: it returns `T3_OK`, with room in `out_ring` for the frame. -/
def UplinkAccepted (u : Uplink) : UplinkStep → Prop
  | .write msg env =>
    (t3ClientWrite u.stream (some msg) env).rc = .ok ∧
      ringUsed u.stream.outRing +
        transportFrameLength u.stream.mode (4 + msg.length + env.paddingLen) ≤ u.stream.outRing.cap
  | .flush _ => True

/-- The messages written in a run. -/
def messagesOf : List UplinkStep → List (Object × WriteEnv)
  | [] => []
  | .write msg env :: steps => (msg, env) :: messagesOf steps
  | .flush _ :: steps => messagesOf steps

/-- The padded intermediate forms of messages. -/
def framesOf (msgs : List (Object × WriteEnv)) : List Bytes :=
  msgs.map fun m => framedMessage m.1.bytes m.2.padding

/-- Frames encrypted one after the other. -/
def encryptFrames (ks : Keystream) : ℕ → List Bytes → List Bytes
  | _, [] => []
  | pos, frame :: frames => xorAt ks pos frame :: encryptFrames ks (pos + frame.length) frames

/-- What the chunk writer makes of data. -/
def writtenChunk (data : Bytes) : Bytes := t3SizeToHex data.length ++ crlf ++ data ++ crlf

/-- Together the encrypted frames are the frames encrypted together. -/
theorem flatten_encryptFrames (ks : Keystream) (pos : ℕ) (frames : List Bytes) :
    (encryptFrames ks pos frames).flatten = xorAt ks pos frames.flatten := by
  induction frames generalizing pos with
  | nil => rfl
  | cons frame frames ih =>
    rw [encryptFrames, List.flatten_cons, List.flatten_cons, xorAt_append, ih]

/-- Encryption keeps the lengths. -/
theorem map_length_encryptFrames (ks : Keystream) (pos : ℕ) (frames : List Bytes) :
    (encryptFrames ks pos frames).map List.length = frames.map List.length := by
  induction frames generalizing pos with
  | nil => rfl
  | cons frame frames ih =>
    rw [encryptFrames, List.map_cons, List.map_cons, xorAt_length, ih]

/-- The frames of messages have their lengths, four bytes more than message and padding. -/
theorem map_length_framesOf (msgs : List (Object × WriteEnv)) :
    (framesOf msgs).map List.length = msgs.map fun m => 4 + m.1.length + m.2.paddingLen := by
  rw [framesOf, List.map_map]
  refine List.map_congr_left fun m _ => ?_
  rw [Function.comp_apply, framedMessage_length, padding_length, Object.length]

/-- An accepted message is not empty, and its frame is of moderate length. -/
theorem UplinkAccepted.bounds {u : Uplink} {msg : Object} {env : WriteEnv}
    (hmode : u.stream.mode = .http) (h : UplinkAccepted u (.write msg env)) :
    msg.length ≠ 0 ∧ 4 + msg.length + env.paddingLen < 2 ^ 31 := by
  obtain ⟨hrc, hroom⟩ := h
  refine ⟨fun h0 => ?_, ?_⟩
  · obtain ⟨rc, hne, heq⟩ := t3ClientWrite_early u.stream msg env (Or.inl h0)
    rw [heq] at hrc
    exact hne hrc
  · rw [u.stream.outRing_cap, RING_CAP, hmode, transportFrameLength] at hroom
    omega

/-- The transport frame in HTTP mode is the chunk. -/
theorem transportFrame_http {env : WriteEnv} {encrypted frame : Bytes}
    (h : transportFrame .http env encrypted = some frame) : frame = writtenChunk encrypted := by
  simp only [transportFrame, t3HttpChunkWrite] at h
  split_ifs at h
  exact (Option.some.inj h).symm

/-- **An accepted write emits one chunk**: the encrypted frame of its message. -/
theorem uplinkStep_write {u : Uplink} {msg : Object} {env : WriteEnv} {ctx : CtrContext}
    (hmode : u.stream.mode = .http) (hctx : u.stream.encryptCtx = some ctx)
    (hacc : UplinkAccepted u (.write msg env)) :
    let u' := uplinkStep u (.write msg env)
    let frame := framedMessage msg.bytes env.padding
    u'.emitted = u.emitted ++ writtenChunk (xorAt ctx.ks ctx.pos frame) ∧
      u'.stream.mode = .http ∧
      u'.stream.encryptCtx = some { ctx with pos := ctx.pos + frame.length } := by
  obtain ⟨hrc, hroom⟩ := hacc
  by_cases hearly : msg.length = 0 ∨ u.stream.state ≠ .ready ∨ env.framedOk = false ∨
      env.encryptedBlock = none ∨ u.stream.encryptCtx = none ∨
      wrap32 (4 + msg.length + env.paddingLen : ℕ) < 0
  · obtain ⟨rc, hne, heq⟩ := t3ClientWrite_early u.stream msg env hearly
    rw [heq] at hrc
    exact absurd hrc hne
  simp only [not_or, not_not, Bool.not_eq_false, not_lt] at hearly
  obtain ⟨h0, h1, h2, h3, -, h5⟩ := hearly
  obtain ⟨encrypted, hlen, hbody, heq⟩ :=
    t3ClientWrite_late u.stream msg env h0 h1 h2 h3 hctx h5
  have hsmall := (UplinkAccepted.bounds hmode ⟨hrc, hroom⟩).2
  have hframeLen : (framedMessage msg.bytes env.padding).length =
      4 + msg.length + env.paddingLen := by
    rw [framedMessage_length, padding_length, Object.length]
  have hwrap : (wrap32 (4 + msg.length + env.paddingLen : ℕ)).toNat =
      (framedMessage msg.bytes env.padding).length := by
    rw [wrap32_of_fits (by omega) (by omega), Int.toNat_natCast, hframeLen]
  rw [hwrap] at heq
  cases hframe : transportFrame u.stream.mode env encrypted with
  | none =>
    rw [hframe] at heq
    rw [heq] at hrc
    cases hrc
  | some frame =>
    rw [hframe] at heq
    have hlen' := transportFrame_length hframe
    rw [hmode] at hframe
    have hwritten := transportFrame_http hframe
    rw [hbody hsmall] at hwritten
    rw [← hlen, ← hlen'] at hroom
    obtain ⟨s', hmode', hring', hctx', heq'⟩ : ∃ s' : ClientStream,
        s'.mode = u.stream.mode ∧ s'.outRing = u.stream.outRing ∧
        s'.encryptCtx = some { ctx with
          pos := ctx.pos + (framedMessage msg.bytes env.padding).length } ∧
        t3ClientWrite u.stream (some msg) env = queueFrame s' frame env.writes := by
      refine ⟨_, ?_, ?_, ?_, heq⟩ <;> rfl
    have hcontents := queueFrame_contents s' frame env.writes
    rw [hring', if_pos hroom] at hcontents
    refine ⟨?_, ?_, ?_⟩
    · simp only [uplinkStep, Uplink.emitted, List.append_assoc, heq']
      rw [hcontents, hwritten]
    · simp only [uplinkStep, heq', queueFrame]
      exact hmode'.trans hmode
    · simp only [uplinkStep, heq', queueFrame]
      exact hctx'

/-- A flush emits nothing. -/
theorem uplinkStep_flush (u : Uplink) (writes : List SslWrite) :
    let u' := uplinkStep u (.flush writes)
    u'.emitted = u.emitted ∧ u'.stream.mode = u.stream.mode ∧
      u'.stream.encryptCtx = u.stream.encryptCtx := by
  refine ⟨?_, rfl, rfl⟩
  simp only [uplinkStep, Uplink.emitted, List.append_assoc]
  rw [sslFlushOut_contents]

/-- **A run of accepted writes emits the chunks of its messages**, encrypted one after the
other. -/
theorem uplinkRun_emitted {steps : List UplinkStep} {u : Uplink} {ctx : CtrContext}
    (hmode : u.stream.mode = .http) (hctx : u.stream.encryptCtx = some ctx)
    (hacc : Along uplinkStep UplinkAccepted u steps) :
    (finish uplinkStep u steps).emitted = u.emitted ++
      (encryptFrames ctx.ks ctx.pos (framesOf (messagesOf steps))).flatMap writtenChunk := by
  induction steps generalizing u ctx with
  | nil =>
    rw [finish_nil]
    exact (List.append_nil _).symm
  | cons step steps ih =>
    obtain ⟨hstep, hrest⟩ := hacc
    rw [finish_cons]
    cases step with
    | write msg env =>
      obtain ⟨hemit, hmode', hctx'⟩ := uplinkStep_write hmode hctx hstep
      rw [ih hmode' hctx' hrest, hemit, List.append_assoc]
      rfl
    | flush writes =>
      obtain ⟨hemit, hmode', hctx'⟩ := uplinkStep_flush u writes
      rw [ih (hmode'.trans hmode) (hctx'.trans hctx) hrest, hemit]
      rfl

/-- So are all messages of a run of accepted writes. -/
theorem uplinkRun_bounds {steps : List UplinkStep} {u : Uplink} {ctx : CtrContext}
    (hmode : u.stream.mode = .http) (hctx : u.stream.encryptCtx = some ctx)
    (hacc : Along uplinkStep UplinkAccepted u steps) :
    ∀ m ∈ messagesOf steps, m.1.length ≠ 0 ∧ 4 + m.1.length + m.2.paddingLen < 2 ^ 31 := by
  induction steps generalizing u ctx with
  | nil => exact nofun
  | cons step steps ih =>
    obtain ⟨hstep, hrest⟩ := hacc
    cases step with
    | write msg env =>
      obtain ⟨-, hmode', hctx'⟩ := uplinkStep_write hmode hctx hstep
      rintro m hm
      rcases List.mem_cons.mp hm with rfl | hm
      · exact hstep.bounds hmode
      · exact ih hmode' hctx' hrest m hm
    | flush writes =>
      obtain ⟨-, hmode', hctx'⟩ := uplinkStep_flush u writes
      exact ih (hmode'.trans hmode) (hctx'.trans hctx) hrest

/-! ### The server's side -/

/-- A frame of at most 65535 bytes as a chunk. -/
def uplinkChunk (d : Bytes) (h : d.length ≤ 65535) : HttpChunk where
  hex := t3SizeToHex d.length
  ext := none
  data := d
  hex_ne_nil := HttpChunk.digits_ne_nil d
  size := HttpChunk.digits_size d
  data_le := h
  ext_le := HttpChunk.no_ext_le
  ext_line := HttpChunk.no_ext_line

theorem encode_uplinkChunk (d : Bytes) (h : d.length ≤ 65535) :
    (uplinkChunk d h).encode = writtenChunk d := by
  simp only [HttpChunk.encode, HttpChunk.line, HttpChunk.extBytes, uplinkChunk, writtenChunk,
    List.append_nil, List.append_assoc]

/-- Frames of moderate length come as a stream of readable chunks. -/
theorem exists_chunks {ds : List Bytes} (h : ∀ d ∈ ds, d ≠ [] ∧ d.length ≤ 65535) :
    ∃ cs, encodeAll cs = ds.flatMap writtenChunk ∧ dataAll cs = ds.flatten ∧
      ∀ c ∈ cs, Readable 18 c := by
  induction ds with
  | nil => exact ⟨[], rfl, rfl, nofun⟩
  | cons d ds ih =>
    obtain ⟨cs, hencode, hdata, hread⟩ := ih fun e he => h e (List.mem_cons_of_mem _ he)
    obtain ⟨hne, hle⟩ := h d List.mem_cons_self
    refine ⟨uplinkChunk d hle :: cs, ?_, ?_, ?_⟩
    · rw [List.flatMap_cons, ← hencode, ← encode_uplinkChunk d hle]
      rfl
    · rw [dataAll_cons, hdata]
      rfl
    · rintro c hc
      rcases List.mem_cons.mp hc with rfl | hc
      · refine ⟨hne, ?_⟩
        have hhex := t3SizeToHex_length_le (n := d.length) (by omega)
        simp only [HttpChunk.line, HttpChunk.extBytes, uplinkChunk, List.append_nil]
        omega
      · exact hread c hc

/-- The header of a chunk of more than 65535 bytes is malformed. -/
theorem httpStreamChunkHeaderParse_big {d : Bytes} (hbig : 65535 < d.length)
    (hlt : d.length < 2 ^ 64) (rest : Bytes) :
    httpStreamChunkHeaderParse (writtenChunk d ++ rest) = .malformed := by
  have hhex := t3SizeToHex_length_le hlt
  have hval := hexValue_t3SizeToHex d.length
  have hstream : writtenChunk d ++ rest = t3SizeToHex d.length ++ crlf ++ (d ++ crlf ++ rest) := by
    simp only [writtenChunk, List.append_assoc]
  have hnone : findCrlf (t3SizeToHex d.length) = none := by
    have hnot : (13 : UInt8) ∉ t3SizeToHex d.length :=
      fun h => hexDigit_of_mem hval _ h (by decide)
    have := findCrlf_append_of_notMem (t3SizeToHex d.length) [] hnot rfl
    rwa [List.append_nil] at this
  have hfind := findCrlf_line (t3SizeToHex d.length) (d ++ crlf ++ rest) hnone
  have htake : (t3SizeToHex d.length ++ crlf ++ (d ++ crlf ++ rest)).take
      (t3SizeToHex d.length).length = t3SizeToHex d.length := by
    rw [List.append_assoc, List.take_left]
  rw [hstream]
  refine (chunkHeader_of_line false hfind (by omega)).trans ?_
  rw [htake]
  refine lineHeader_of_not (by omega) fun size hsize => ?_
  obtain ⟨hex, ext, hline, -, hvalue, hle, hext⟩ := hsize
  -- The line has no extension, so its number is the length.
  have hnoext : ext = [] := by
    rcases hext with hnil | ⟨e, rfl, -⟩
    · exact hnil
    · have hmem : (0x3B : UInt8) ∈ t3SizeToHex d.length := by
        rw [hline]
        exact List.mem_append_right _ List.mem_cons_self
      exact absurd (by decide) (hexDigit_of_mem hval _ hmem)
  rw [hnoext, List.append_nil] at hline
  rw [← hline, hval] at hvalue
  have := Option.some.inj hvalue
  omega

/-- The frames the server's length rules read off a decrypted stream. -/
inductive FramesRead (flags : RpcFlags) (maxPacketLen : ℕ) : Bytes → List Bytes → Prop
  | nil : FramesRead flags maxPacketLen [] []
  | cons {plain : Bytes} {result : Obfs2FrameResult} {frames : List Bytes}
      (hlen : obfs2ParseFrameLength (readLe32 plain) flags maxPacketLen = some result)
      (hle : result.headerBytes + result.packetLen ≤ plain.length)
      (hrest : FramesRead flags maxPacketLen (plain.drop (result.headerBytes + result.packetLen))
        frames) :
      FramesRead flags maxPacketLen plain
        ((plain.drop result.headerBytes).take result.packetLen :: frames)

/-- A connection that waits for the client's stream: its read cipher stands where the client's
write cipher stands, between two chunks, in padded mode. -/
structure AwaitsUplink {W : Type*} (c : Conn W) (ctx : CtrContext) : Prop where
  crypto : ∃ T, c.crypto = some T ∧ T.read = ctx
  wsState : c.wsState ≠ .active
  transportMode : c.transportMode = .httpStream
  state : c.httpChunkHeaderState = .needHeader
  remaining : c.httpChunkRemaining = 0
  inU : c.inU = []
  inp : c.inp = []
  cError : c.cError = false
  medium : c.rpc.flags.medium = true
  pad : c.rpc.flags.pad = true

/-- **The stream arrives.**  In whatever pieces it is received, the server accepts its chunks,
and the frames it reads off what it decrypts are, in order, those of the messages: each as
long as message and padding, and starting with the message. -/
def UplinkArrives {W : Type*} (c : Conn W) (emitted : Bytes) (msgs : List (Object × WriteEnv)) :
    Prop :=
  ∀ reads : List Bytes, reads.flatten = emitted →
    ∃ c', receiveAll c reads = .ok c' ∧ c'.cError = false ∧
      ∃ frames, FramesRead c.rpc.flags MAX_POST_SIZE c'.inp frames ∧
        List.Forall₂ (fun m frame => frame.length = m.1.length + m.2.paddingLen ∧
          m.1.bytes <+: frame) msgs frames

/-- The server reads back the frames of the messages. -/
theorem framesRead_framesOf {flags : RpcFlags} (hmedium : flags.medium = true)
    (hpad : flags.pad = true) {msgs : List (Object × WriteEnv)}
    (h : ∀ m ∈ msgs, m.1.length ≠ 0 ∧ 4 + m.1.length + m.2.paddingLen ≤ 65535) :
    ∃ frames, FramesRead flags MAX_POST_SIZE (framesOf msgs).flatten frames ∧
      List.Forall₂ (fun m frame => frame.length = m.1.length + m.2.paddingLen ∧
        m.1.bytes <+: frame) msgs frames := by
  induction msgs with
  | nil => exact ⟨[], .nil, .nil⟩
  | cons m msgs ih =>
    obtain ⟨frames, hread, hall⟩ := ih fun e he => h e (List.mem_cons_of_mem _ he)
    obtain ⟨h0, hle⟩ := h m List.mem_cons_self
    obtain ⟨msg, env⟩ := m
    dsimp only at h0 hle
    have hpadlen := padding_length env
    obtain ⟨body, hprefix, hbodylen, hplain⟩ : ∃ body, msg.bytes <+: body ∧
        body.length = msg.length + env.paddingLen ∧
        (framesOf ((msg, env) :: msgs)).flatten =
          le32 body.length ++ (body ++ (framesOf msgs).flatten) := by
      refine ⟨msg.bytes ++ env.padding, List.prefix_append _ _, ?_, ?_⟩
      · rw [List.length_append, hpadlen, Object.length]
      · simp only [framesOf, List.map_cons, List.flatten_cons, framedMessage, List.append_assoc,
          List.length_append]
    have hlen : obfs2ParseFrameLength (readLe32 (framesOf ((msg, env) :: msgs)).flatten) flags
        MAX_POST_SIZE = some ⟨body.length, 4, false⟩ := by
      rw [hplain, readLe32_le32_append _ (by omega)]
      refine obfs2ParseFrameLength_padded hmedium hpad (by omega) (by omega) ?_
      simp only [MAX_POST_SIZE]
      omega
    have hdrop4 : (framesOf ((msg, env) :: msgs)).flatten.drop 4 =
        body ++ (framesOf msgs).flatten := by
      rw [hplain]
      exact List.drop_left' (le32_length _)
    refine ⟨((framesOf ((msg, env) :: msgs)).flatten.drop 4).take body.length :: frames,
      .cons hlen ?_ ?_, .cons ⟨?_, ?_⟩ hall⟩
    · rw [hplain, List.length_append, List.length_append, le32_length]
      dsimp only
      omega
    · dsimp only
      rw [← List.drop_drop, hdrop4, List.drop_left]
      exact hread
    · rw [hdrop4, List.take_left]
      exact hbodylen
    · rw [hdrop4, List.take_left]
      exact hprefix

/-- A connection that waits stands at the start of any stream of chunks. -/
theorem AwaitsUplink.arrived {W : Type*} {c : Conn W} {ctx : CtrContext} (hc : AwaitsUplink c ctx)
    {T : AesCrypto} (hT : c.crypto = some T) {cs : List HttpChunk}
    (hcs : ∀ d ∈ cs, Readable 18 d) (tail : Bytes) :
    Arrived c T tail (encodeAll cs ++ tail) (dataAll cs) [] c where
  place := by
    rw [hc.state, hc.remaining, hc.inU]
    exact .header cs hcs
  inp := (List.append_nil _).symm
  crypto := hT
  cError := rfl
  wsState := hc.wsState
  transportMode := hc.transportMode

section Run

variable {W : Type*} {u : Uplink} {steps : List UplinkStep} {c : Conn W} {ctx : CtrContext}

/-- The chunks of a run, and their lengths. -/
theorem uplinkRun_chunks (hmode : u.stream.mode = .http) (hctx : u.stream.encryptCtx = some ctx)
    (hempty : u.emitted = []) (hacc : Along uplinkStep UplinkAccepted u steps) :
    let ds := encryptFrames ctx.ks ctx.pos (framesOf (messagesOf steps))
    (finish uplinkStep u steps).emitted = ds.flatMap writtenChunk ∧
      (∀ d ∈ ds, d ≠ [] ∧ d.length < 2 ^ 31) ∧
      ds.map List.length = (messagesOf steps).map fun m => 4 + m.1.length + m.2.paddingLen := by
  have hbounds := uplinkRun_bounds hmode hctx hacc
  have hlengths : (encryptFrames ctx.ks ctx.pos (framesOf (messagesOf steps))).map List.length =
      (messagesOf steps).map fun m => 4 + m.1.length + m.2.paddingLen := by
    rw [map_length_encryptFrames, map_length_framesOf]
  refine ⟨?_, fun d hd => ?_, hlengths⟩
  · rw [uplinkRun_emitted hmode hctx hacc, hempty, List.nil_append]
  · obtain ⟨m, hm, hmd⟩ := List.mem_map.mp (hlengths ▸ List.mem_map_of_mem hd)
    have := (hbounds m hm).2
    refine ⟨?_, by omega⟩
    rintro rfl
    rw [List.length_nil] at hmd
    omega

/-- With a frame that is too long the stream does not arrive: received in one piece it fails
the connection at the first such chunk. -/
theorem not_uplinkArrives_of_big (hmode : u.stream.mode = .http)
    (hctx : u.stream.encryptCtx = some ctx) (hempty : u.emitted = [])
    (hacc : Along uplinkStep UplinkAccepted u steps) (hc : AwaitsUplink c ctx)
    {m : Object × WriteEnv} (hm : m ∈ messagesOf steps)
    (hbig : 65535 < 4 + m.1.length + m.2.paddingLen) :
    ¬ UplinkArrives c (finish uplinkStep u steps).emitted (messagesOf steps) := by
  intro harrives
  obtain ⟨T, hT, -⟩ := hc.crypto
  obtain ⟨hemitted, hds, hlengths⟩ := uplinkRun_chunks hmode hctx hempty hacc
  rw [hemitted] at harrives
  set ds := encryptFrames ctx.ks ctx.pos (framesOf (messagesOf steps))
  have hsome : (ds.find? fun d => decide (65535 < d.length)).isSome := by
    rw [List.find?_isSome]
    obtain ⟨d, hd, hdlen⟩ := List.mem_map.mp (hlengths ▸
      List.mem_map_of_mem (f := fun m : Object × WriteEnv => 4 + m.1.length + m.2.paddingLen) hm)
    exact ⟨d, hd, decide_eq_true (by omega)⟩
  obtain ⟨bad, hfind⟩ := Option.isSome_iff_exists.mp hsome
  obtain ⟨hbad, before, after, hsplit, hbefore⟩ := List.find?_eq_some_iff_append.mp hfind
  have hbad' : 65535 < bad.length := of_decide_eq_true hbad
  have hbadlt : bad.length < 2 ^ 64 := by
    have := (hds bad (hsplit ▸ List.mem_append_right _ List.mem_cons_self)).2
    omega
  have hsmall : ∀ d ∈ before, d ≠ [] ∧ d.length ≤ 65535 := by
    intro d hd
    have hle := hbefore d hd
    simp only [Bool.not_eq_eq_eq_not, Bool.not_true, decide_eq_false_iff_not, not_lt] at hle
    exact ⟨(hds d (hsplit ▸ List.mem_append_left _ hd)).1, hle⟩
  obtain ⟨cs, hencode, -, hcs⟩ := exists_chunks hsmall
  have hstream : ds.flatMap writtenChunk =
      encodeAll cs ++ (writtenChunk bad ++ after.flatMap writtenChunk) := by
    rw [hsplit, List.flatMap_append, List.flatMap_cons, hencode]
  have hmalformed := httpStreamChunkHeaderParse_big hbad' hbadlt (after.flatMap writtenChunk)
  have hstart := hc.arrived hT hcs (writtenChunk bad ++ after.flatMap writtenChunk)
  rw [← hstream, ← List.append_nil (ds.flatMap writtenChunk)] at hstart
  obtain ⟨c', r, heq, herror⟩ := decryptInput_malformed (hstart.read _) hmalformed
  obtain ⟨c'', hreceive, hnoerror, -⟩ := harrives [ds.flatMap writtenChunk] (List.append_nil _)
  simp only [receiveAll, heq] at hreceive
  rw [← Except.ok.inj hreceive, herror] at hnoerror
  cases hnoerror

/-- Without one it arrives. -/
theorem uplinkArrives_of_small (hmode : u.stream.mode = .http)
    (hctx : u.stream.encryptCtx = some ctx) (hempty : u.emitted = [])
    (hacc : Along uplinkStep UplinkAccepted u steps) (hc : AwaitsUplink c ctx)
    (hsmall : ∀ m ∈ messagesOf steps, 4 + m.1.length + m.2.paddingLen ≤ 65535) :
    UplinkArrives c (finish uplinkStep u steps).emitted (messagesOf steps) := by
  intro reads hreads
  obtain ⟨T, hT, hread⟩ := hc.crypto
  obtain ⟨hemitted, hds, hlengths⟩ := uplinkRun_chunks hmode hctx hempty hacc
  have hbounds := uplinkRun_bounds hmode hctx hacc
  rw [hemitted] at hreads
  have hshort : ∀ d ∈ encryptFrames ctx.ks ctx.pos (framesOf (messagesOf steps)),
      d ≠ [] ∧ d.length ≤ 65535 := by
    intro d hd
    obtain ⟨m, hm, hmd⟩ := List.mem_map.mp (hlengths ▸ List.mem_map_of_mem hd)
    exact ⟨(hds d hd).1, hmd ▸ hsmall m hm⟩
  obtain ⟨cs, hencode, hdata, hcs⟩ := exists_chunks hshort
  have hstart := hc.arrived hT hcs []
  rw [List.append_nil, hencode, ← hreads] at hstart
  have hnone : reads = [] → dataAll cs = [] := by
    rintro rfl
    have hplace := hstart.place
    rw [hc.inU] at hplace
    exact hplace.of_nil.2
  obtain ⟨c', heq, hc'⟩ := receiveAll_arrived reads hstart hnone
  obtain ⟨frames, hframes, hall⟩ := framesRead_framesOf hc.medium hc.pad fun m hm =>
    ⟨(hbounds m hm).1, hsmall m hm⟩
  refine ⟨c', heq, hc'.cError.trans hc.cError, frames, ?_, hall⟩
  have hinp := hc'.inp
  rw [List.nil_append, hc.inp, List.nil_append, hdata, flatten_encryptFrames, hread,
    xorAt_xorAt] at hinp
  rw [hinp]
  exact hframes

end Run

/-- **When the uplink is a round trip.**  For every run of writes the client accepts in HTTP
mode, with flushes anywhere between them: the stream arrives exactly when no frame (length,
message and padding) has more than 65535 bytes. -/
theorem uplinkArrives_iff {W : Type*} (u : Uplink) (steps : List UplinkStep) (c : Conn W)
    (ctx : CtrContext) (hmode : u.stream.mode = .http) (hctx : u.stream.encryptCtx = some ctx)
    (hempty : u.emitted = []) (hacc : Along uplinkStep UplinkAccepted u steps)
    (hc : AwaitsUplink c ctx) :
    UplinkArrives c (finish uplinkStep u steps).emitted (messagesOf steps) ↔
      ∀ m ∈ messagesOf steps, 4 + m.1.length + m.2.paddingLen ≤ 65535 := by
  refine ⟨fun harrives m hm => ?_, uplinkArrives_of_small hmode hctx hempty hacc hc⟩
  by_contra hbig
  exact not_uplinkArrives_of_big hmode hctx hempty hacc hc hm (not_le.mp hbig) harrives

/-! ### A client and a server -/

/-- A client whose handshake is over. -/
def sampleUplink : Uplink :=
  ⟨ClientStream.opened .http ⟨fun _ => 0, 64⟩ ⟨fun _ => 0, 0⟩ (fun _ _ => 0), []⟩

/-- The server's end of its connection. -/
def sampleReceiver : Conn Unit :=
  { Conn.allocated ⟨0, [], 0, false⟩ 443 () with
    crypto := some ⟨⟨fun _ => 0, 64⟩, ⟨fun _ => 0, 0⟩⟩
    transportMode := .httpStream
    rpc := ⟨⟨false, true, true, false, true⟩, 0, 0, 1, OBFS2_TAG_PAD, 2⟩ }

theorem sampleReceiver_awaits : AwaitsUplink sampleReceiver ⟨fun _ => 0, 64⟩ :=
  ⟨⟨_, rfl, rfl⟩, by decide, rfl, rfl, rfl, rfl, rfl, rfl, rfl, rfl⟩

/-- The client accepts a message that fits into `out_ring`. -/
theorem sampleUplink_accepted {msg : Object} (h0 : msg.length ≠ 0) (hlt : msg.length < 2 ^ 20) :
    UplinkAccepted sampleUplink (.write msg quietEnv) := by
  have hpad : quietEnv.paddingLen = 0 := rfl
  have hhex := t3SizeToHex_length_le (n := 4 + msg.length + 0) (by omega)
  obtain ⟨encrypted, hlen, -, heq⟩ := t3ClientWrite_late sampleUplink.stream msg quietEnv
    h0 rfl rfl nofun rfl (by rw [hpad, wrap32_of_fits (by omega) (by omega)]; omega)
  obtain ⟨frame, hframe, -⟩ := transportFrame_some sampleUplink.stream.mode quietEnv encrypted rfl
    (by omega) (by omega)
  rw [hframe] at heq
  refine ⟨?_, ?_⟩
  · rw [heq]
    rfl
  · rw [hpad]
    show 0 + ((t3SizeToHex (4 + msg.length + 0)).length + 2 + (4 + msg.length + 0) + 2) ≤ RING_CAP
    rw [RING_CAP]
    omega

/-- A message of four bytes arrives. -/
theorem uplinkArrives_four :
    UplinkArrives sampleReceiver
      (finish uplinkStep sampleUplink [.write ⟨[1, 2, 3, 4], by decide⟩ quietEnv]).emitted
      [(⟨[1, 2, 3, 4], by decide⟩, quietEnv)] := by
  refine (uplinkArrives_iff sampleUplink [.write ⟨[1, 2, 3, 4], by decide⟩ quietEnv] sampleReceiver
    ⟨fun _ => 0, 64⟩ rfl rfl rfl ⟨sampleUplink_accepted (by decide) (by decide), trivial⟩
    sampleReceiver_awaits).mpr ?_
  rintro m hm
  rw [List.mem_singleton.mp hm]
  decide

/-- A message of 65532 bytes does not: its chunk has 65536 bytes. -/
theorem uplink_not_arrives :
    ¬ ∀ (u : Uplink) (steps : List UplinkStep) (c : Conn Unit) (ctx : CtrContext),
      u.stream.mode = .http → u.stream.encryptCtx = some ctx → u.emitted = [] →
      Along uplinkStep UplinkAccepted u steps → AwaitsUplink c ctx →
      UplinkArrives c (finish uplinkStep u steps).emitted (messagesOf steps) := by
  intro h
  have hlen : (List.replicate 65532 (0 : UInt8)).length = 65532 := List.length_replicate
  obtain ⟨msg, hmsg⟩ : ∃ msg : Object, msg.length = 65532 :=
    ⟨⟨List.replicate 65532 0, by rw [hlen]; decide⟩, hlen⟩
  have hacc : Along uplinkStep UplinkAccepted sampleUplink [.write msg quietEnv] :=
    ⟨sampleUplink_accepted (by omega) (by omega), trivial⟩
  refine not_uplinkArrives_of_big rfl rfl rfl hacc sampleReceiver_awaits
    (m := (msg, quietEnv)) List.mem_cons_self ?_ (h sampleUplink _ sampleReceiver _ rfl rfl rfl hacc
      sampleReceiver_awaits)
  dsimp only
  omega

end Server
end Teleproto3
