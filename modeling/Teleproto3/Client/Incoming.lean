/-
# Receiving

`process_incoming` and `t3_client_read` of `lib/src/t3_client_stream.c` (lines
511-593 and 768-804), and the part of `t3_client_pump` that runs in the state
`READY`.

`process_incoming` is two loops.  The first takes one transport frame after the
other off `in_ring`, decrypts the payload and appends it to `reasm_in`; the cipher
has moved on before the append is tried.  The second cuts messages out of
`reasm_in` and appends them, each with its length in front, to `plain_in`, from
where `t3_client_read` takes one message a call.
-/

import Teleproto3.Client.Stream
import Teleproto3.Client.WsFrame
import Teleproto3.Lib.Bytes
import Teleproto3.Lib.Loop
import Teleproto3.Wire.HttpChunk

namespace Teleproto3
namespace Client

open Lib Wire

/-! ### Frames off `in_ring` -/

/-- What the first lines of a turn of the first loop find at the front of `in_ring`. -/
inductive FrameRead
  | needMore
  | error
  | terminal (consumed : ℕ)
  | frame (payload : Bytes) (payloadLen consumed : ℕ)
  deriving DecidableEq, Repr

/-- The reader of the transport mode.  Only in HTTP mode is a frame without payload the
end of the stream, to be skipped. -/
def readFrame (mode : T3cMode) (buf : Bytes) : FrameRead :=
  match mode with
  | .ws =>
    match t3cWsFrameRead buf with
    | .needMore => .needMore
    | .error => .error
    | .frame payload payloadLen consumed => .frame payload payloadLen consumed
  | .http =>
    match t3HttpChunkParse buf with
    | .error .bufTooSmall => .needMore
    | .error _ => .error
    | .ok v =>
      if v.data.length = 0 then .terminal v.consumed else .frame v.data v.data.length v.consumed

/-- The state of the first loop: the stream, how many more calls of `malloc` succeed,
and, for the record, how many payload bytes have been moved into `reasm_in`. -/
structure Incoming where
  stream : ClientStream
  mallocs : ℕ
  moved : ℕ

/-- `ring_consume` on `in_ring`. -/
def consumeIn (s : ClientStream) (n : ℕ) : ClientStream :=
  { s with
    inRing := ringConsume s.inRing n
    inRing_cap := by rw [ringConsume_cap, s.inRing_cap] }

/-- `ring_append` on `reasm_in`: the stream and the value returned. -/
def appendReasm (s : ClientStream) (bs : Bytes) : ClientStream × ℤ :=
  ({ s with
      reasmIn := (ringAppend s.reasmIn bs).1
      reasmIn_cap := by rw [ringAppend_cap, s.reasmIn_cap] },
    (ringAppend s.reasmIn bs).2)

/-- One turn of the first loop.  It leaves with `0` where the source breaks out of the
loop and with `-1` where it returns.  `malloc` gives no block of `2 ^ 63` bytes. -/
def deframeTurn (x : Incoming) : Turn Incoming (Incoming × ℤ) :=
  let s := x.stream
  let buf := ringContents s.inRing
  if buf.length = 0 then .done (x, 0)
  else
    match readFrame s.mode buf with
    | .needMore => .done (x, 0)
    | .error => .done (x, -1)
    | .terminal consumed => .again { x with stream := consumeIn s consumed }
    | .frame payload payloadLen consumed =>
      if x.mallocs = 0 ∨ 2 ^ 63 ≤ payloadLen then .done (x, -1)
      else
        match t3cAesCrypt s.decryptCtx payload payloadLen with
        | none => .done ({ x with mallocs := x.mallocs - 1 }, -1)
        | some (ctx, decrypted) =>
          let appended := appendReasm { s with decryptCtx := some ctx } decrypted
          if appended.2 ≠ 0 then
            .done ({ x with stream := appended.1, mallocs := x.mallocs - 1 }, 0)
          else
            .again
              { stream := consumeIn appended.1 consumed
                mallocs := x.mallocs - 1
                moved := x.moved + payloadLen }

/-- The bytes left to deframe. -/
def Incoming.left (x : Incoming) : ℕ := ringUsed x.stream.inRing

/-- A frame that is handed out takes bytes, unless its length is beyond any block of
memory. -/
theorem readFrame_consumed_pos {mode : T3cMode} {buf payload : Bytes} {payloadLen consumed : ℕ}
    (h : readFrame mode buf = .frame payload payloadLen consumed) (hlen : payloadLen < 2 ^ 63) :
    0 < consumed := by
  cases mode with
  | ws =>
    simp only [readFrame] at h
    cases hread : t3cWsFrameRead buf with
    | needMore =>
      rw [hread] at h
      exact nomatch h
    | error =>
      rw [hread] at h
      exact nomatch h
    | frame p l c =>
      rw [hread] at h
      simp only [FrameRead.frame.injEq] at h
      obtain ⟨-, rfl, rfl⟩ := h
      exact t3cWsFrameRead_consumed_pos hread hlen
  | http =>
    simp only [readFrame] at h
    cases hread : t3HttpChunkParse buf with
    | error e =>
      rw [hread] at h
      cases e <;> exact nomatch h
    | ok v =>
      rw [hread] at h
      simp only at h
      split_ifs at h
      simp only [FrameRead.frame.injEq] at h
      have := t3HttpChunkParse_consumed hread
      omega

theorem readFrame_terminal_pos {mode : T3cMode} {buf : Bytes} {consumed : ℕ}
    (h : readFrame mode buf = .terminal consumed) : 0 < consumed := by
  cases mode with
  | ws =>
    simp only [readFrame] at h
    cases hread : t3cWsFrameRead buf <;> rw [hread] at h <;> exact nomatch h
  | http =>
    simp only [readFrame] at h
    cases hread : t3HttpChunkParse buf with
    | error e =>
      rw [hread] at h
      cases e <;> exact nomatch h
    | ok v =>
      rw [hread] at h
      simp only at h
      split_ifs at h
      simp only [FrameRead.terminal.injEq] at h
      have := t3HttpChunkParse_consumed hread
      omega

/-- A turn at a frame that is read, with memory for its payload and a cipher that takes
it: the append to `reasm_in` decides. -/
theorem deframeTurn_frame {x : Incoming} {payload decrypted : Bytes} {payloadLen consumed : ℕ}
    {ctx : CtrContext} (hne : ringUsed x.stream.inRing ≠ 0)
    (hread : readFrame x.stream.mode (ringContents x.stream.inRing) =
      .frame payload payloadLen consumed)
    (hm : x.mallocs ≠ 0) (hlen : payloadLen < 2 ^ 63)
    (hc : t3cAesCrypt x.stream.decryptCtx payload payloadLen = some (ctx, decrypted)) :
    deframeTurn x =
      let s := (appendReasm { x.stream with decryptCtx := some ctx } decrypted).1
      if (ringAppend x.stream.reasmIn decrypted).2 ≠ 0 then
        .done ({ x with stream := s, mallocs := x.mallocs - 1 }, 0)
      else
        .again ⟨consumeIn s consumed, x.mallocs - 1, x.moved + payloadLen⟩ := by
  simp only [deframeTurn, ringContents_length, if_neg hne, hread, hc]
  rw [if_neg (by omega)]
  rfl

/-- **What one turn can do**, guards included: another turn was started either by
skipping a terminal chunk or by moving a decrypted payload. -/
theorem deframeTurn_again {x x' : Incoming} (h : deframeTurn x = .again x') :
    ringUsed x.stream.inRing ≠ 0 ∧
    ((∃ consumed, readFrame x.stream.mode (ringContents x.stream.inRing) = .terminal consumed ∧
        x' = { x with stream := consumeIn x.stream consumed }) ∨
      (∃ payload payloadLen consumed ctx decrypted,
        readFrame x.stream.mode (ringContents x.stream.inRing) =
          .frame payload payloadLen consumed ∧
        x.mallocs ≠ 0 ∧ payloadLen < 2 ^ 63 ∧
        t3cAesCrypt x.stream.decryptCtx payload payloadLen = some (ctx, decrypted) ∧
        (ringAppend x.stream.reasmIn decrypted).2 = 0 ∧
        x' =
          { stream := consumeIn (appendReasm { x.stream with decryptCtx := some ctx } decrypted).1
              consumed
            mallocs := x.mallocs - 1
            moved := x.moved + payloadLen })) := by
  simp only [deframeTurn, ringContents_length] at h
  by_cases h0 : ringUsed x.stream.inRing = 0
  · rw [if_pos h0] at h
    exact nomatch h
  rw [if_neg h0] at h
  refine ⟨h0, ?_⟩
  cases hread : readFrame x.stream.mode (ringContents x.stream.inRing) with
  | needMore =>
    rw [hread] at h
    exact nomatch h
  | error =>
    rw [hread] at h
    exact nomatch h
  | terminal consumed =>
    rw [hread] at h
    exact Or.inl ⟨consumed, rfl, (Turn.again.inj h).symm⟩
  | frame payload payloadLen consumed =>
    rw [hread] at h
    simp only at h
    by_cases hm : x.mallocs = 0 ∨ 2 ^ 63 ≤ payloadLen
    · rw [if_pos hm] at h
      exact nomatch h
    rw [if_neg hm] at h
    cases hc : t3cAesCrypt x.stream.decryptCtx payload payloadLen with
    | none =>
      rw [hc] at h
      exact nomatch h
    | some cd =>
      obtain ⟨ctx, decrypted⟩ := cd
      rw [hc] at h
      simp only [ne_eq, ite_not] at h
      split_ifs at h with hacc
      refine Or.inr ⟨payload, payloadLen, consumed, ctx, decrypted, rfl, ?_, ?_, hc, hacc,
        (Turn.again.inj h).symm⟩
      · exact fun h0 => hm (Or.inl h0)
      · omega

/-- The other half: a turn that leaves has changed nothing, or it has decrypted a payload
that `reasm_in` then refused. -/
theorem deframeTurn_done {x : Incoming} {r : Incoming × ℤ} (h : deframeTurn x = .done r) :
    (r.1.stream = x.stream ∧ r.1.moved = x.moved) ∨
      (∃ payload payloadLen consumed ctx decrypted, ringUsed x.stream.inRing ≠ 0 ∧
        readFrame x.stream.mode (ringContents x.stream.inRing) =
          .frame payload payloadLen consumed ∧
        x.mallocs ≠ 0 ∧
        t3cAesCrypt x.stream.decryptCtx payload payloadLen = some (ctx, decrypted) ∧
        (ringAppend x.stream.reasmIn decrypted).2 ≠ 0 ∧
        r.1.stream = (appendReasm { x.stream with decryptCtx := some ctx } decrypted).1 ∧
        r.1.moved = x.moved) := by
  simp only [deframeTurn, ringContents_length] at h
  by_cases h0 : ringUsed x.stream.inRing = 0
  · rw [if_pos h0] at h
    rw [← Turn.done.inj h]
    exact Or.inl ⟨rfl, rfl⟩
  rw [if_neg h0] at h
  cases hread : readFrame x.stream.mode (ringContents x.stream.inRing) with
  | needMore =>
    rw [hread] at h
    rw [← Turn.done.inj h]
    exact Or.inl ⟨rfl, rfl⟩
  | error =>
    rw [hread] at h
    rw [← Turn.done.inj h]
    exact Or.inl ⟨rfl, rfl⟩
  | terminal consumed =>
    rw [hread] at h
    exact nomatch h
  | frame payload payloadLen consumed =>
    rw [hread] at h
    simp only at h
    by_cases hm : x.mallocs = 0 ∨ 2 ^ 63 ≤ payloadLen
    · rw [if_pos hm] at h
      rw [← Turn.done.inj h]
      exact Or.inl ⟨rfl, rfl⟩
    rw [if_neg hm] at h
    cases hc : t3cAesCrypt x.stream.decryptCtx payload payloadLen with
    | none =>
      rw [hc] at h
      rw [← Turn.done.inj h]
      exact Or.inl ⟨rfl, rfl⟩
    | some cd =>
      obtain ⟨ctx, decrypted⟩ := cd
      rw [hc] at h
      simp only [ne_eq, ite_not] at h
      split_ifs at h with hacc
      rw [← Turn.done.inj h]
      exact Or.inr ⟨payload, payloadLen, consumed, ctx, decrypted, h0, rfl,
        fun hm0 => hm (Or.inl hm0), hc, hacc, rfl, rfl⟩

theorem deframeTurn_shrinks : Shrinks deframeTurn Incoming.left := by
  intro x x' h
  obtain ⟨h0, ⟨consumed, hread, rfl⟩ | ⟨payload, payloadLen, consumed, ctx, decrypted, hread, -,
    hlen, -, -, rfl⟩⟩ := deframeTurn_again h
  · have hpos := readFrame_terminal_pos hread
    simp only [Incoming.left, consumeIn, ringUsed_ringConsume]
    omega
  · have hpos := readFrame_consumed_pos hread hlen
    simp only [Incoming.left, consumeIn, appendReasm, ringUsed_ringConsume]
    omega

/-! ### Messages out of `reasm_in` -/

/-- The length in front of a message, without the quick-ack bit. -/
def wireLength (buf : Bytes) : ℕ := readLe32 buf % 2 ^ 31

/-- `ring_consume` on `reasm_in`. -/
def consumeReasm (s : ClientStream) (n : ℕ) : ClientStream :=
  { s with
    reasmIn := ringConsume s.reasmIn n
    reasmIn_cap := by rw [ringConsume_cap, s.reasmIn_cap] }

/-- `ring_append` on `plain_in`: the stream and the value returned. -/
def appendPlain (s : ClientStream) (bs : Bytes) : ClientStream × ℤ :=
  ({ s with
      plainIn := (ringAppend s.plainIn bs).1
      plainIn_cap := by rw [ringAppend_cap, s.plainIn_cap] },
    (ringAppend s.plainIn bs).2)

/-- One turn of the second loop. -/
def deliverTurn (s : ClientStream) : Turn ClientStream (ClientStream × ℤ) :=
  let buf := ringContents s.reasmIn
  if buf.length < 4 then .done (s, 0)
  else if wireLength buf < 4 ∨ 2 ^ 22 < wireLength buf then
    -- Not a length: skip one byte of padding where the marker stands, else fail.
    if buf.getD 0 0 = T3_PADDING_MARKER then .again (consumeReasm s 1) else .done (s, -1)
  else if buf.length < 4 + wireLength buf then .done (s, 0)
  else
    let appended := appendPlain s (buf.take (4 + wireLength buf))
    if appended.2 ≠ 0 then .done (appended.1, 0)
    else .again (consumeReasm appended.1 (4 + wireLength buf))

/-- The decrypted bytes not yet cut into messages. -/
def ClientStream.uncut (s : ClientStream) : ℕ := ringUsed s.reasmIn

/-- What one turn of the second loop does where a length of a message stands at the front
and the message is there: it queues the message or leaves. -/
theorem deliverTurn_message {s : ClientStream} {n : ℕ}
    (hn : wireLength (ringContents s.reasmIn) = n) (h4 : 4 ≤ n) (h22 : n ≤ 2 ^ 22)
    (hlen : 4 + n ≤ ringUsed s.reasmIn) :
    deliverTurn s =
      if (appendPlain s ((ringContents s.reasmIn).take (4 + n))).2 ≠ 0 then
        .done ((appendPlain s ((ringContents s.reasmIn).take (4 + n))).1, 0)
      else .again
        (consumeReasm (appendPlain s ((ringContents s.reasmIn).take (4 + n))).1 (4 + n)) := by
  simp only [deliverTurn, hn, ringContents_length]
  rw [if_neg (by omega), if_neg (by omega), if_neg (by omega)]

/-- It leaves, with nothing changed, where the message is not all there. -/
theorem deliverTurn_wait {s : ClientStream}
    (h : ringUsed s.reasmIn < 4 ∨
      (4 ≤ wireLength (ringContents s.reasmIn) ∧ wireLength (ringContents s.reasmIn) ≤ 2 ^ 22 ∧
        ringUsed s.reasmIn < 4 + wireLength (ringContents s.reasmIn))) :
    deliverTurn s = .done (s, 0) := by
  simp only [deliverTurn, ringContents_length]
  by_cases h4 : ringUsed s.reasmIn < 4
  · rw [if_pos h4]
  · rw [if_neg h4, if_neg (by omega), if_pos (by omega)]

theorem deliverTurn_shrinks : Shrinks deliverTurn ClientStream.uncut := by
  intro s s' h
  simp only [deliverTurn, ringContents_length] at h
  split_ifs at h with h1 h2 h3 h4 h5
  · cases h
    simp only [ClientStream.uncut, consumeReasm, ringUsed_ringConsume]
    omega
  · cases h
    simp only [ClientStream.uncut, consumeReasm, appendPlain, ringUsed_ringConsume]
    omega

/-! ### The entry points -/

/-- The first loop of `process_incoming`. -/
def deframe (x : Incoming) : Incoming × ℤ :=
  loop deframeTurn Incoming.left deframeTurn_shrinks x

/-- The second loop of `process_incoming`. -/
def deliver (s : ClientStream) : ClientStream × ℤ :=
  loop deliverTurn ClientStream.uncut deliverTurn_shrinks s

/-- `process_incoming`: a failure in the first loop skips the second. -/
def processIncoming (x : Incoming) : Incoming × ℤ :=
  let first := deframe x
  if first.2 < 0 then first
  else ({ first.1 with stream := (deliver first.1.stream).1 }, (deliver first.1.stream).2)

/-- What a pump takes from outside: the strings `SSL_read` delivers and how its loop
ended, how many calls of `malloc` succeed, the results of `SSL_write`. -/
structure PumpEnv where
  reads : List Bytes
  ended : Bool
  mallocs : ℕ
  writes : List SslWrite

/-- `ssl_read_in` on the stream. -/
def pumpRead (s : ClientStream) (env : PumpEnv) : ClientStream :=
  { s with
    inRing := (sslReadIn env.reads env.ended s.inRing).1
    inRing_cap := by rw [sslReadIn_cap, s.inRing_cap] }

/-- `ssl_flush_out` on the stream. -/
def pumpFlush (s : ClientStream) (env : PumpEnv) : ClientStream :=
  { s with
    outRing := (sslFlushOut env.writes s.outRing).1
    outRing_cap := by rw [sslFlushOut_cap, s.outRing_cap] }

/-- `t3_client_pump` in the state `READY`: read, process, flush, all three results
dropped.  The second component is the record of payload bytes moved. -/
def pumpReady (s : ClientStream) (moved : ℕ) (env : PumpEnv) : ClientStream × ℕ :=
  let x := (processIncoming ⟨pumpRead s env, env.mallocs, moved⟩).1
  (pumpFlush x.stream env, x.moved)

/-- `t3_client_read`, given the capacity of the caller's buffer: the message's bytes
where there is one and it fits. -/
def t3ClientRead (s : ClientStream) (outCap : ℕ) : ClientStream × T3Result × Bytes :=
  if s.state ≠ .ready then (s, .invalidArg, [])
  else
    let buf := ringContents s.plainIn
    if buf.length < 4 then (s, .bufTooSmall, [])
    else
      let msgLen := wireLength buf
      if buf.length < 4 + msgLen then (s, .bufTooSmall, [])
      else if outCap < msgLen then (s, .bufTooSmall, [])
      else
        ({ s with
            plainIn := ringConsume s.plainIn (4 + msgLen)
            plainIn_cap := by rw [ringConsume_cap, s.plainIn_cap] },
          .ok, (buf.drop 4).take msgLen)

/-- A read changes nothing where no message is complete or the buffer is too small. -/
theorem t3ClientRead_short {s : ClientStream} {outCap : ℕ} (hready : s.state = .ready)
    (h : ringUsed s.plainIn < 4 + wireLength (ringContents s.plainIn) ∨
      outCap < wireLength (ringContents s.plainIn)) :
    t3ClientRead s outCap = (s, .bufTooSmall, []) := by
  simp only [t3ClientRead, hready, ringContents_length, ne_eq, not_true_eq_false, if_false]
  split_ifs with h1 h2 h3
  · rfl
  · rfl
  · rfl
  · omega

/-- Otherwise it takes the first message off `plain_in`. -/
theorem t3ClientRead_ok {s : ClientStream} {outCap : ℕ} (hready : s.state = .ready)
    (h1 : 4 + wireLength (ringContents s.plainIn) ≤ ringUsed s.plainIn)
    (h2 : wireLength (ringContents s.plainIn) ≤ outCap) :
    t3ClientRead s outCap =
      ({ s with
          plainIn := ringConsume s.plainIn (4 + wireLength (ringContents s.plainIn))
          plainIn_cap := by rw [ringConsume_cap, s.plainIn_cap] },
        .ok, ((ringContents s.plainIn).drop 4).take (wireLength (ringContents s.plainIn))) := by
  rw [t3ClientRead, if_neg (not_not.mpr hready)]
  simp only [ringContents_length]
  rw [if_neg (by omega), if_neg (by omega), if_neg (by omega)]

end Client
end Teleproto3
