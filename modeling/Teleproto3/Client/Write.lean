/-
# Writing a message

`t3_client_write` of `lib/src/t3_client_stream.c`, lines 702-765.  A message gets a
length and up to 15 bytes of padding, the whole is encrypted, the transport frame is
built around the ciphertext and appended to `out_ring`, and the ring is flushed.

The cipher moves on before the frame is built, and the result of `ring_append` is
not looked at.  So a write is all or nothing in exactly two kinds of calls: those
that fail before the cipher is used, and those whose frame fits behind the write
position of `out_ring`.  `t3ClientWrite_atomic_iff` says so.
-/

import Mathlib.Data.Nat.Digits.Lemmas
import Teleproto3.Client.Stream
import Teleproto3.Client.WsFrame
import Teleproto3.Wire.HttpChunk

namespace Teleproto3
namespace Client

open Lib Wire

/-- What a call of `t3_client_write` takes from outside: random bytes, memory, and the
TLS socket.  The message is one object, so that the sums of lengths below do not wrap. -/
structure WriteEnv where
  /-- the byte `RAND_bytes(&r, 1)` draws, where it succeeds -/
  padByte : Option UInt8
  /-- the bytes that stand where the padding goes, random or left over -/
  fill : Mem
  /-- whether `malloc` of the plain buffer succeeds -/
  framedOk : Bool
  /-- the block `malloc` gives for the ciphertext -/
  encryptedBlock : Option Mem
  /-- whether `malloc` of the transport frame succeeds -/
  frameOk : Bool
  /-- the WebSocket masking key drawn -/
  mask : Fin 4 → UInt8
  /-- the results of `SSL_write` in the final flush -/
  writes : List SslWrite

/-- `padding_len`. -/
def WriteEnv.paddingLen (env : WriteEnv) : ℕ :=
  match env.padByte with
  | some r => r.toNat % 16
  | none => 0

/-- The padding bytes. -/
def WriteEnv.padding (env : WriteEnv) : Bytes := memRead env.fill 0 env.paddingLen

/-- The padded intermediate form of a message: length, message, padding. -/
def framedMessage (plaintext padding : Bytes) : Bytes :=
  le32 (plaintext.length + padding.length) ++ plaintext ++ padding

/-- The transport frame around the ciphertext, where it can be built. -/
def transportFrame (mode : T3cMode) (env : WriteEnv) (encrypted : Bytes) : Option Bytes :=
  match mode with
  | .ws => if env.frameOk then t3cWsFrameWrite (encrypted.length + 14) env.mask encrypted else none
  | .http =>
    if env.frameOk then
      match t3HttpChunkWrite (encrypted.length + 32) encrypted with
      | .ok chunk => some chunk
      | .error _ => none
    else none

/-- What a call of `t3_client_write` leaves and returns, and the bytes it got written
to TLS on the way. -/
structure WriteResult where
  stream : ClientStream
  rc : T3Result
  sent : Bytes

/-- The end of `t3_client_write`, from the frame on: append and flush. -/
def queueFrame (s : ClientStream) (frame : Bytes) (writes : List SslWrite) : WriteResult :=
  let flushed := sslFlushOut writes (ringAppend s.outRing frame).1
  { stream :=
      { s with
        outRing := flushed.1
        outRing_cap := by rw [sslFlushOut_cap, ringAppend_cap, s.outRing_cap] }
    rc := .ok
    sent := flushed.2.1 }

/-- `t3_client_write`.  A null `plaintext` is `none`. -/
def t3ClientWrite (s : ClientStream) (plaintext : Option Object) (env : WriteEnv) : WriteResult :=
  match plaintext with
  | none => ⟨s, .invalidArg, []⟩
  | some msg =>
    if msg.length = 0 then ⟨s, .invalidArg, []⟩
    else if s.state ≠ .ready then ⟨s, .invalidArg, []⟩
    else
      let framed := framedMessage msg.bytes env.padding
      if env.framedOk = false then ⟨s, .internal, []⟩
      else
        match env.encryptedBlock with
        | none => ⟨s, .internal, []⟩
        | some block =>
          match t3cAesCrypt s.encryptCtx framed framed.length with
          | none => ⟨s, .internal, []⟩
          | some (ctx, out) =>
            -- The cipher has moved on; what it did not write is left over in the block.
            let encrypted := out ++ memRead block out.length (framed.length - out.length)
            let s := { s with encryptCtx := some ctx }
            match transportFrame s.mode env encrypted with
            | none => ⟨s, .internal, []⟩
            | some frame => queueFrame s frame env.writes

/-! ### What atomic means -/

/-- A transport frame around `body`, as the frame writer of the mode builds it. -/
def IsTransportFrame (mode : T3cMode) (mask : Fin 4 → UInt8) (body frame : Bytes) : Prop :=
  match mode with
  | .ws => ∃ outCap, t3cWsFrameWrite outCap mask body = some frame
  | .http => ∃ outCap, t3HttpChunkWrite outCap body = .ok frame

/-- The complete transport frame of a message: the frame around its padded
intermediate form, encrypted from the position the outgoing cipher had. -/
def IsMessageFrame (s : ClientStream) (env : WriteEnv) (msg : Object) (frame : Bytes) : Prop :=
  ∃ c padding, s.encryptCtx = some c ∧ padding.length ≤ 15 ∧
    IsTransportFrame s.mode env.mask (xorAt c.ks c.pos (framedMessage msg.bytes padding)) frame

/-- **All or nothing.**  A write that returns `T3_OK` has stored the complete frame of
the message inside `out_ring`, behind everything queued before; a write that returns an
error has left the content of `out_ring` and the outgoing cipher alone. -/
structure WriteAtomic (s : ClientStream) (plaintext : Option Object) (env : WriteEnv) : Prop where
  on_ok : (t3ClientWrite s plaintext env).rc = .ok →
    ∃ msg frame, plaintext = some msg ∧ IsMessageFrame s env msg frame ∧
      (∀ i ∈ ringAppendWrites s.outRing frame, i < s.outRing.cap) ∧
      (t3ClientWrite s plaintext env).sent ++
          ringContents (t3ClientWrite s plaintext env).stream.outRing =
        ringContents s.outRing ++ frame
  on_error : (t3ClientWrite s plaintext env).rc ≠ .ok →
    ringContents (t3ClientWrite s plaintext env).stream.outRing = ringContents s.outRing ∧
      (t3ClientWrite s plaintext env).stream.encryptCtx = s.encryptCtx

/-- The length of the transport frame around `n` bytes. -/
def transportFrameLength (mode : T3cMode) (n : ℕ) : ℕ :=
  match mode with
  | .ws => (wsWriteHeader n).length + 4 + n
  | .http => (t3SizeToHex n).length + 2 + n + 2

/-- **The condition.**  The call fails before it uses the cipher, or the buffer for the
transport frame is allocated and the frame fits behind the write position of
`out_ring`.  (Where that allocation fails, the cipher has moved on by `(int)frame_len`
bytes, which is none only if that value is 0.) -/
def WriteFits (s : ClientStream) (plaintext : Option Object) (env : WriteEnv) : Prop :=
  match plaintext with
  | none => True
  | some msg =>
    let frameLen := 4 + msg.length + env.paddingLen
    msg.length = 0 ∨ s.state ≠ .ready ∨ env.framedOk = false ∨ env.encryptedBlock = none ∨
      s.encryptCtx = none ∨ wrap32 frameLen < 0 ∨
      (env.frameOk = false ∧ wrap32 frameLen = 0) ∨
      (env.frameOk = true ∧
        s.outRing.tail + transportFrameLength s.mode frameLen ≤ s.outRing.cap)

theorem padding_length (env : WriteEnv) : env.padding.length = env.paddingLen := memRead_length _ _ _

theorem paddingLen_le (env : WriteEnv) : env.paddingLen ≤ 15 := by
  unfold WriteEnv.paddingLen
  split <;> omega

theorem framedMessage_length (msg padding : Bytes) :
    (framedMessage msg padding).length = 4 + msg.length + padding.length := by
  simp only [framedMessage, List.length_append, le32_length]

theorem t3SizeToHex_length_le {n : ℕ} (hn : n < 2 ^ 64) : (t3SizeToHex n).length ≤ 16 := by
  unfold t3SizeToHex
  split_ifs with h
  · decide
  · rw [List.length_reverse, List.length_map]
    exact (Nat.digits_length_le_iff (by decide) n).mpr (by simpa using hn)

/-- The frame is as long as announced. -/
theorem transportFrame_length {mode : T3cMode} {env : WriteEnv} {encrypted frame : Bytes}
    (h : transportFrame mode env encrypted = some frame) :
    frame.length = transportFrameLength mode encrypted.length := by
  cases mode with
  | ws =>
    simp only [transportFrame] at h
    split_ifs at h
    exact t3cWsFrameWrite_length h
  | http =>
    simp only [transportFrame, t3HttpChunkWrite] at h
    split_ifs at h
    cases h
    simp only [List.length_append, crlf_length, transportFrameLength]

/-- With memory for it the frame is built, and it is the writer's. -/
theorem transportFrame_some (mode : T3cMode) (env : WriteEnv) (encrypted : Bytes)
    (hok : env.frameOk = true) (h0 : encrypted.length ≠ 0) (hlt : encrypted.length < 2 ^ 64) :
    ∃ frame, transportFrame mode env encrypted = some frame ∧
      IsTransportFrame mode env.mask encrypted frame := by
  cases mode with
  | ws =>
    have hcap : ¬ encrypted.length + 14 <
        (wsWriteHeader encrypted.length).length + 4 + encrypted.length := by
      rw [wsWriteHeader_length]
      split_ifs <;> omega
    have hwrite : ∃ frame, t3cWsFrameWrite (encrypted.length + 14) env.mask encrypted = some frame :=
      ⟨_, if_neg hcap⟩
    obtain ⟨frame, hframe⟩ := hwrite
    exact ⟨frame, by simp only [transportFrame, hok, if_true, hframe], _, hframe⟩
  | http =>
    have hhex := t3SizeToHex_length_le hlt
    have hcap : ¬ encrypted.length + 32 <
        (t3SizeToHex encrypted.length).length + 2 + encrypted.length + 2 := by
      omega
    have hwrite : ∃ frame, t3HttpChunkWrite (encrypted.length + 32) encrypted = .ok frame :=
      ⟨_, (if_neg h0).trans (if_neg hcap)⟩
    obtain ⟨frame, hframe⟩ := hwrite
    exact ⟨frame, by simp only [transportFrame, hok, if_true, hframe], _, hframe⟩

/-- Without memory for it there is no frame. -/
theorem transportFrame_none (mode : T3cMode) (env : WriteEnv) (encrypted : Bytes)
    (hok : env.frameOk = false) : transportFrame mode env encrypted = none := by
  cases mode <;> simp [transportFrame, hok]

/-- Queueing a frame: what got written and what is queued afterwards are together what
was queued before, and the frame behind it if there was room. -/
theorem queueFrame_contents (s : ClientStream) (frame : Bytes) (writes : List SslWrite) :
    (queueFrame s frame writes).sent ++ ringContents (queueFrame s frame writes).stream.outRing =
      if ringUsed s.outRing + frame.length ≤ s.outRing.cap then ringContents s.outRing ++ frame
      else ringContents s.outRing := by
  rw [← ringContents_ringAppend]
  exact sslFlushOut_contents writes _

section Calls

variable (s : ClientStream) (msg : Object) (env : WriteEnv)

/-- A call that fails before it uses the cipher changes nothing. -/
theorem t3ClientWrite_early
    (h : msg.length = 0 ∨ s.state ≠ .ready ∨ env.framedOk = false ∨ env.encryptedBlock = none ∨
      s.encryptCtx = none ∨ wrap32 (4 + msg.length + env.paddingLen : ℕ) < 0) :
    ∃ rc, rc ≠ .ok ∧ t3ClientWrite s (some msg) env = ⟨s, rc, []⟩ := by
  simp only [t3ClientWrite]
  by_cases h0 : msg.length = 0
  · exact ⟨.invalidArg, by decide, if_pos h0⟩
  rw [if_neg h0]
  by_cases h1 : s.state = .ready
  swap
  · exact ⟨.invalidArg, by decide, if_pos h1⟩
  rw [if_neg (not_not.mpr h1)]
  by_cases h2 : env.framedOk = false
  · exact ⟨.internal, by decide, if_pos h2⟩
  rw [if_neg h2]
  cases h3 : env.encryptedBlock with
  | none => exact ⟨.internal, by decide, rfl⟩
  | some block =>
    have hcrypt : t3cAesCrypt s.encryptCtx (framedMessage msg.bytes env.padding)
        (framedMessage msg.bytes env.padding).length = none := by
      cases h4 : s.encryptCtx with
      | none => rfl
      | some c =>
        have h5 : wrap32 (4 + msg.length + env.paddingLen : ℕ) < 0 := by
          simpa only [h0, h1, h2, h3, h4, ne_eq, not_true_eq_false, reduceCtorEq, false_or] using h
        have hlen : (framedMessage msg.bytes env.padding).length
            = 4 + msg.length + env.paddingLen := by
          rw [framedMessage_length, padding_length, Object.length]
        simp only [t3cAesCrypt, hlen, evpCipherUpdate]
        rw [if_neg (by omega), if_pos h5]
    simp only [hcrypt]
    exact ⟨.internal, by decide, rfl⟩

/-- The other calls: the cipher has moved on, over a ciphertext whose length is that of
the plain frame, and what is left is to build the transport frame and queue it. -/
theorem t3ClientWrite_late {c : CtrContext} (h0 : msg.length ≠ 0) (h1 : s.state = .ready)
    (h2 : env.framedOk = true) (h3 : env.encryptedBlock ≠ none) (h4 : s.encryptCtx = some c)
    (h5 : 0 ≤ wrap32 (4 + msg.length + env.paddingLen : ℕ)) :
    ∃ encrypted, encrypted.length = 4 + msg.length + env.paddingLen ∧
      ((4 + msg.length + env.paddingLen : ℕ) < 2 ^ 31 →
        encrypted = xorAt c.ks c.pos (framedMessage msg.bytes env.padding)) ∧
      t3ClientWrite s (some msg) env =
        let s' := { s with encryptCtx := some { c with
          pos := c.pos + (wrap32 (4 + msg.length + env.paddingLen : ℕ)).toNat } }
        match transportFrame s.mode env encrypted with
        | none => ⟨s', .internal, []⟩
        | some frame => queueFrame s' frame env.writes := by
  obtain ⟨block, hblock⟩ := Option.ne_none_iff_exists'.mp h3
  have hlen : (framedMessage msg.bytes env.padding).length = 4 + msg.length + env.paddingLen := by
    rw [framedMessage_length, padding_length, Object.length]
  set framed := framedMessage msg.bytes env.padding with hframed
  set n := 4 + msg.length + env.paddingLen with hn
  have hle : (wrap32 (n : ℕ)).toNat ≤ n := by
    have : wrap32 (n : ℤ) ≤ n := by
      unfold wrap32
      rw [Int.bmod_def]
      split_ifs <;> omega
    omega
  have hcrypt : t3cAesCrypt s.encryptCtx framed framed.length =
      some ({ c with pos := c.pos + (wrap32 (n : ℕ)).toNat },
        xorAt c.ks c.pos (framed.take (wrap32 (n : ℕ)).toNat)) := by
    simp only [t3cAesCrypt, h4, hlen, evpCipherUpdate]
    rw [if_neg (by omega), if_neg (by omega)]
  refine ⟨xorAt c.ks c.pos (framed.take (wrap32 (n : ℕ)).toNat) ++
    memRead block (xorAt c.ks c.pos (framed.take (wrap32 (n : ℕ)).toNat)).length
      (framed.length - (xorAt c.ks c.pos (framed.take (wrap32 (n : ℕ)).toNat)).length), ?_, ?_, ?_⟩
  · simp only [List.length_append, xorAt_length, List.length_take, memRead_length]
    omega
  · intro hsmall
    have hwrap : (wrap32 (n : ℕ)).toNat = framed.length := by
      rw [wrap32_of_fits (by omega) (by omega), Int.toNat_natCast, hlen]
    rw [hwrap, List.take_length, xorAt_length, Nat.sub_self, memRead_zero, List.append_nil]
  · simp only [t3ClientWrite]
    rw [if_neg h0, if_neg (not_not.mpr h1), if_neg (by rw [h2]; decide)]
    simp only [hblock]
    rw [← hframed, hcrypt]

/-- **A call that accepts the message** has built a frame and queued it. -/
theorem t3ClientWrite_accepted (h : (t3ClientWrite s (some msg) env).rc = .ok) :
    ∃ c encrypted frame, s.encryptCtx = some c ∧ s.state = .ready ∧
      encrypted.length = 4 + msg.length + env.paddingLen ∧
      ((4 + msg.length + env.paddingLen : ℕ) < 2 ^ 31 →
        encrypted = xorAt c.ks c.pos (framedMessage msg.bytes env.padding)) ∧
      frame.length = transportFrameLength s.mode encrypted.length ∧
      IsTransportFrame s.mode env.mask encrypted frame ∧
      t3ClientWrite s (some msg) env = queueFrame { s with encryptCtx := some { c with
        pos := c.pos + (wrap32 (4 + msg.length + env.paddingLen : ℕ)).toNat } } frame
          env.writes := by
  by_cases hearly : msg.length = 0 ∨ s.state ≠ .ready ∨ env.framedOk = false ∨
      env.encryptedBlock = none ∨ s.encryptCtx = none ∨
      wrap32 (4 + msg.length + env.paddingLen : ℕ) < 0
  · obtain ⟨rc, hrc, heq⟩ := t3ClientWrite_early s msg env hearly
    rw [heq] at h
    exact absurd h hrc
  simp only [not_or, not_not, Bool.not_eq_false, not_lt] at hearly
  obtain ⟨h0, h1, h2, h3, h4, h5⟩ := hearly
  obtain ⟨c, hc⟩ := Option.ne_none_iff_exists'.mp h4
  obtain ⟨encrypted, hlen, hbody, heq⟩ := t3ClientWrite_late s msg env h0 h1 h2 h3 hc h5
  have hmsg : msg.length < 2 ^ 63 := msg.length_lt
  have hpad := paddingLen_le env
  cases h6 : env.frameOk with
  | false =>
    rw [transportFrame_none s.mode env encrypted h6] at heq
    rw [heq] at h
    exact nomatch h
  | true =>
    obtain ⟨frame, hframe, htr⟩ := transportFrame_some s.mode env encrypted h6
      (by omega) (by omega)
    rw [hframe] at heq
    exact ⟨c, encrypted, frame, hc, h1, hlen, hbody, transportFrame_length hframe, htr, heq⟩

/-- A call that changes nothing and returns an error is atomic. -/
theorem writeAtomic_of_unchanged (plaintext : Option Object) {rc : T3Result} (hrc : rc ≠ .ok)
    (h : t3ClientWrite s plaintext env = ⟨s, rc, []⟩) : WriteAtomic s plaintext env where
  on_ok hok := absurd (by rw [h] at hok; exact hok) hrc
  on_error _ := by
    rw [h]
    exact ⟨rfl, rfl⟩

theorem isTransportFrame_length_pos {mode : T3cMode} {mask : Fin 4 → UInt8} {body frame : Bytes}
    (h : IsTransportFrame mode mask body frame) : 0 < frame.length := by
  cases mode with
  | ws =>
    obtain ⟨outCap, hw⟩ := h
    rw [t3cWsFrameWrite_length hw]
    omega
  | http =>
    obtain ⟨outCap, hw⟩ := h
    simp only [t3HttpChunkWrite] at hw
    split_ifs at hw
    cases hw
    simp only [List.length_append, crlf_length]
    omega

/-- Where the frame is built, the call is atomic exactly when the frame fits behind the
write position. -/
theorem writeAtomic_queueFrame_iff {s' : ClientStream} {frame : Bytes} {c : CtrContext}
    (hring : s'.outRing = s.outRing) (h4 : s.encryptCtx = some c)
    (h : t3ClientWrite s (some msg) env = queueFrame s' frame env.writes)
    (hframe : s.outRing.tail + frame.length ≤ s.outRing.cap →
      IsTransportFrame s.mode env.mask (xorAt c.ks c.pos (framedMessage msg.bytes env.padding))
        frame) :
    WriteAtomic s (some msg) env ↔ s.outRing.tail + frame.length ≤ s.outRing.cap := by
  have hcontents := queueFrame_contents s' frame env.writes
  rw [hring] at hcontents
  constructor
  · intro hat
    obtain ⟨msg', frame', -, ⟨c', padding, -, -, htr⟩, hin, heq⟩ := hat.on_ok (by rw [h]; rfl)
    have hpos := isTransportFrame_length_pos htr
    rw [h, hcontents] at heq
    by_cases hroom : ringUsed s.outRing + frame.length ≤ s.outRing.cap
    · -- Accepted: the frame queued is the frame asked for, and its last byte is inside.
      rw [if_pos hroom] at heq
      have hsame : frame = frame' := List.append_cancel_left heq
      rw [← hsame] at hpos hin
      have hlast := hin (s.outRing.tail + (frame.length - 1)) (by
        rw [ringAppendWrites_eq, if_pos hroom, List.mem_range'_1]
        omega)
      omega
    · -- Refused: nothing was queued, but a frame is never empty.
      rw [if_neg hroom] at heq
      have hnil : frame' = [] := by
        have := congrArg List.length heq
        rw [List.length_append] at this
        exact List.length_eq_zero_iff.mp (by omega)
      rw [hnil] at hpos
      exact absurd hpos (by decide)
  · intro hfit
    have hroom : ringUsed s.outRing + frame.length ≤ s.outRing.cap := by
      simp only [ringUsed]
      omega
    refine ⟨fun _ => ?_, fun hne => absurd (by rw [h]; rfl) hne⟩
    refine ⟨msg, frame, rfl, ⟨c, env.padding, h4, ?_, hframe hfit⟩, ?_, ?_⟩
    · rw [padding_length]
      exact paddingLen_le env
    · intro i hi
      rw [ringAppendWrites_eq, if_pos hroom, List.mem_range'_1] at hi
      omega
    · rw [h, hcontents, if_pos hroom]

/-- The calls that use the cipher are atomic exactly under the last two cases of the
condition. -/
theorem writeAtomic_late_iff {c : CtrContext} (h0 : msg.length ≠ 0) (h1 : s.state = .ready)
    (h2 : env.framedOk = true) (h3 : env.encryptedBlock ≠ none) (h4 : s.encryptCtx = some c)
    (h5 : 0 ≤ wrap32 (4 + msg.length + env.paddingLen : ℕ)) :
    WriteAtomic s (some msg) env ↔
      (env.frameOk = false ∧ wrap32 (4 + msg.length + env.paddingLen : ℕ) = 0) ∨
        (env.frameOk = true ∧ s.outRing.tail +
          transportFrameLength s.mode (4 + msg.length + env.paddingLen) ≤ s.outRing.cap) := by
  obtain ⟨encrypted, hlen, hbody, heq⟩ := t3ClientWrite_late s msg env h0 h1 h2 h3 h4 h5
  have hpad := paddingLen_le env
  have hmsg : msg.length < 2 ^ 63 := msg.length_lt
  cases h6 : env.frameOk with
  | false =>
    rw [transportFrame_none s.mode env encrypted h6] at heq
    simp only at heq
    simp only [true_and, Bool.false_eq_true, false_and, or_false]
    constructor
    · intro hat
      have hctx := (hat.on_error (by rw [heq]; exact nofun)).2
      rw [heq, h4] at hctx
      have hpos := congrArg CtrContext.pos (Option.some.inj hctx)
      simp only at hpos
      omega
    · intro hzero
      refine ⟨fun hok => ?_, fun _ => ?_⟩
      · rw [heq] at hok
        exact nomatch hok
      rw [heq, h4, hzero]
      exact ⟨rfl, rfl⟩
  | true =>
    obtain ⟨frame, hframe, htr⟩ := transportFrame_some s.mode env encrypted h6
      (by omega) (by omega)
    have hflen := transportFrame_length hframe
    rw [hframe] at heq
    rw [hlen] at hflen
    simp only [Bool.true_eq_false, false_and, false_or, true_and, ← hflen]
    refine writeAtomic_queueFrame_iff s msg env ?_ h4 heq fun hfit => ?_
    · rfl
    have hsmall : (4 + msg.length + env.paddingLen : ℕ) < 2 ^ 31 := by
      have hcap := s.outRing_cap
      have hle : 4 + msg.length + env.paddingLen ≤ frame.length := by
        rw [hflen]
        unfold transportFrameLength
        split <;> omega
      rw [hcap, RING_CAP] at hfit
      omega
    rw [← hbody hsmall]
    exact htr

end Calls

/-- **When a write is all or nothing.**  For every state of the client, every message
and every outcome of the calls the function makes, the write is atomic exactly when
`WriteFits` holds. -/
theorem t3ClientWrite_atomic_iff (s : ClientStream) (plaintext : Option Object) (env : WriteEnv) :
    WriteAtomic s plaintext env ↔ WriteFits s plaintext env := by
  cases plaintext with
  | none => exact iff_of_true (writeAtomic_of_unchanged s env none (by decide) rfl) trivial
  | some msg =>
    by_cases hearly : msg.length = 0 ∨ s.state ≠ .ready ∨ env.framedOk = false ∨
        env.encryptedBlock = none ∨ s.encryptCtx = none ∨
        wrap32 (4 + msg.length + env.paddingLen : ℕ) < 0
    · obtain ⟨rc, hrc, heq⟩ := t3ClientWrite_early s msg env hearly
      refine iff_of_true (writeAtomic_of_unchanged s env _ hrc heq) ?_
      simp only [WriteFits]
      rcases hearly with h | h | h | h | h | h <;> simp only [h, true_or, or_true, ne_eq, not_false_eq_true]
    · simp only [not_or, not_not, Bool.not_eq_false, not_lt] at hearly
      obtain ⟨h0, h1, h2, h3, h4, h5⟩ := hearly
      obtain ⟨c, hc⟩ := Option.ne_none_iff_exists'.mp h4
      rw [writeAtomic_late_iff s msg env h0 h1 h2 h3 hc h5]
      simp only [WriteFits, h0, h1, h2, h3, h4, ne_eq, not_true_eq_false, Bool.true_eq_false,
        not_lt.mpr h5, false_or]

/-- A ring filled to its capacity. -/
def fullRing : RingBuf where
  data := fun _ => 0
  head := 0
  tail := RING_CAP
  cap := RING_CAP
  head_le_tail := Nat.zero_le _
  used_le_cap := Nat.sub_le _ _

/-- A call in which everything outside succeeds and the socket takes nothing. -/
def quietEnv : WriteEnv where
  padByte := some 0
  fill := fun _ => 0
  framedOk := true
  encryptedBlock := some fun _ => 0
  frameOk := true
  mask := fun _ => 0
  writes := [.again]

/-- **A message that vanishes.**  With `out_ring` full and the socket not writable, the
write of four bytes returns `T3_OK` and queues nothing, and the cipher has moved on. -/
theorem t3ClientWrite_not_atomic :
    ¬ ∀ (s : ClientStream) (plaintext : Option Object) (env : WriteEnv),
      WriteAtomic s plaintext env := by
  intro h
  set s : ClientStream :=
    { ClientStream.opened .http ⟨fun _ => 0, 64⟩ ⟨fun _ => 0, 0⟩ (fun _ _ => 0) with
      outRing := fullRing
      outRing_cap := rfl } with hs
  have hat := h s (some ⟨[1, 2, 3, 4], by decide⟩) quietEnv
  rw [writeAtomic_late_iff s _ quietEnv (by decide) rfl rfl nofun rfl (by decide)] at hat
  rcases hat with ⟨hfail, -⟩ | ⟨-, hfit⟩
  · exact nomatch hfail
  · have hlen : 8 ≤ transportFrameLength s.mode
        (4 + (⟨[1, 2, 3, 4], by decide⟩ : Object).length + quietEnv.paddingLen) := by
      simp only [transportFrameLength, hs, ClientStream.opened, Object.length, List.length_cons]
      omega
    have htail : s.outRing.tail = RING_CAP := rfl
    have hcap : s.outRing.cap = RING_CAP := rfl
    omega

end Client
end Teleproto3
