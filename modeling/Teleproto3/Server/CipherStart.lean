/-
# The moment the cipher starts

When the obfuscated2 header has been accepted, `tcp_rpcs_compact_parse_execute` sets the cipher
up, appends what is left of `c->in` to `in_u` and decrypts.  Of the bytes that are already
there, some may have lost their framing and some not; from then on everything in
`in_u` is taken for framed.

The loop that decrypts does to the framing what it would do without a cipher, and the
cipher runs through the payload in order (`receiveAll_deciphered`).  So the start is sound
exactly where no byte behind the block has lost its framing, which is where the transport is no
WebSocket, or nothing was unmasked beyond the block: `cryptoTransition_iff`.
-/

import Teleproto3.Server.ChunkStream
import Teleproto3.Server.ParseLoop

namespace Teleproto3
namespace Server

open Lib

variable {W : Type*}

/-! ### The framing without a cipher -/

/-- A cipher context that changes nothing. -/
def noCipher : CtrContext := ⟨fun _ => 0, 0⟩

/-- The connection with raw bytes in `in_u` and nothing else, and no cipher in the way of the
payload. -/
def deframing (c : Conn W) (raw : Bytes) : Conn W :=
  { c with inp := [], inU := raw, crypto := some ⟨noCipher, noCipher⟩ }

/-- The read cipher changes nothing. -/
def Unciphered (d : Conn W) : Prop :=
  ∃ pos write, d.crypto = some ⟨⟨fun _ => 0, pos⟩, write⟩

/-- A connection that stands where `d` stands in its framing, and has decrypted with `ks` from
position `pos` on what `d` holds in `in`.  Everything else is that of `base`. -/
def deciphered (base : Conn W) (ks : Keystream) (pos : ℕ) (write : CtrContext) (d : Conn W) :
    Conn W :=
  { base with
    inp := xorAt ks pos d.inp
    inU := d.inU
    crypto := some ⟨⟨ks, pos + d.inp.length⟩, write⟩
    cIsTls := d.cIsTls
    wsState := d.wsState
    wsFrameRemaining := d.wsFrameRemaining
    wsMask := d.wsMask
    wsMaskOffset := d.wsMaskOffset
    transportMode := d.transportMode
    httpChunkRemaining := d.httpChunkRemaining
    httpChunkHeaderState := d.httpChunkHeaderState
    leftTlsPacketLength := d.leftTlsPacketLength
    cError := d.cError
    status := d.status
    error := d.error }

/-- What a turn may do to the ciphers: move on in the keystream where it goes on, nothing where it
leaves. -/
def CipherTurn (T : AesCrypto) (turn : Turn (Conn W) (DecryptExit W)) : Prop :=
  (∀ c', turn = .again c' → ∃ pos, c'.crypto = some ⟨⟨T.read.ks, pos⟩, T.write⟩) ∧
    ∀ c' r, turn = .done (.ok (c', r)) → c'.crypto = some T

theorem CipherTurn.of_again {T : AesCrypto} {c' : Conn W} {pos : ℕ}
    (h : c'.crypto = some ⟨⟨T.read.ks, pos⟩, T.write⟩) : CipherTurn T (.again c') :=
  ⟨fun _ heq => Turn.again.inj heq ▸ ⟨pos, h⟩, fun _ _ heq => (nomatch heq)⟩

theorem CipherTurn.of_done {T : AesCrypto} {c' : Conn W} {r : ℤ} (h : c'.crypto = some T) :
    CipherTurn T (.done (.ok (c', r))) :=
  ⟨fun _ heq => (nomatch heq),
    fun _ _ heq => (Prod.mk.inj (Except.ok.inj (Turn.done.inj heq))).1 ▸ h⟩

theorem CipherTurn.of_abort {T : AesCrypto} {a : Abort} :
    CipherTurn T (.done (.error a) : Turn (Conn W) (DecryptExit W)) :=
  ⟨fun _ heq => (nomatch heq), fun _ _ heq => (nomatch heq)⟩

/-- A turn moves the read cipher on, or leaves the ciphers alone. -/
theorem decryptTurn_cipher {c : Conn W} {T : AesCrypto} (hT : c.crypto = some T) :
    CipherTurn T (decryptTurn c) := by
  unfold decryptTurn
  rw [hT]
  dsimp only
  by_cases h1 : c.inU.length = 0
  · rw [if_pos h1]
    exact .of_done hT
  rw [if_neg h1]
  by_cases h2 : c.wsState = .active
  · rw [if_pos h2, decryptWsTurn]
    by_cases h0 : c.wsFrameRemaining = 0
    · rw [if_pos h0]
      cases wsParseFrameHeader ⟨c.inU, 0, c.wsMask, c.wsMaskOffset⟩ with
      | error a => exact .of_abort
      | ok p =>
        obtain ⟨v, payloadLen⟩ := p
        dsimp only
        by_cases hneg : payloadLen < 0
        · rw [if_pos hneg]
          exact .of_done hT
        rw [if_neg hneg]
        by_cases hzero : payloadLen = 0
        · rw [if_pos hzero]
          exact .of_done hT
        rw [if_neg hzero]
        exact .of_again rfl
    · rw [if_neg h0]
      exact .of_again rfl
  rw [if_neg h2]
  by_cases h3 : c.transportMode = .httpStream
  · rw [if_pos h3, decryptChunkTurn]
    dsimp only
    cases Unwrap.advance httpStreamChunkHeaderParse
        ⟨c.inU, [], 0, c.httpChunkRemaining, c.httpChunkHeaderState⟩ with
    | error exit =>
      obtain ⟨u, failure⟩ := exit
      cases failure with
      | none => exact .of_done hT
      | some err => exact .of_done hT
    | ok u => exact .of_again rfl
  rw [if_neg h3]
  by_cases h4 : c.cIsTls = true
  · rw [if_pos h4, decryptTlsTurn]
    by_cases hneg : c.leftTlsPacketLength < 0
    · rw [if_pos hneg]
      exact .of_abort
    rw [if_neg hneg]
    by_cases hleft : c.leftTlsPacketLength = 0
    · rw [if_pos hleft]
      by_cases hshort : c.inU.length < 5
      · rw [if_pos hshort]
        exact .of_done hT
      rw [if_neg hshort]
      by_cases hrecord : c.inU.take 3 ≠ [0x17, 0x03, 0x03]
      · rw [if_pos hrecord]
        exact .of_done hT
      rw [if_neg hrecord]
      exact .of_again rfl
    · rw [if_neg hleft]
      exact .of_again rfl
  rw [if_neg h4]
  exact .of_again rfl

/-- Without a cipher a turn is followed by a turn without one. -/
theorem decryptTurn_unciphered {d d' : Conn W} (hd : Unciphered d)
    (h : decryptTurn d = .again d') : Unciphered d' := by
  obtain ⟨pos, write, hd⟩ := hd
  obtain ⟨pos', hd'⟩ := (decryptTurn_cipher hd).1 d' h
  exact ⟨pos', write, hd'⟩

/-- So is a call of `crypto_decrypt_input`. -/
theorem decryptInput_unciphered {d d' : Conn W} {r : ℤ} (hd : Unciphered d)
    (h : cpuTcpAesCryptoCtr128DecryptInput d = .ok (d', r)) : Unciphered d' := by
  have hloop := loop_inv (I := Unciphered)
    (Q := fun exit => ∀ d' r, exit = .ok (d', r) → Unciphered (W := W) d') decryptTurn_shrinks
    (fun _ _ => decryptTurn_unciphered) ?_ hd
  · exact hloop d' r h
  · rintro e exit ⟨pos, write, he⟩ hturn d' r rfl
    exact ⟨pos, write, (decryptTurn_cipher he).2 d' r hturn⟩

section Deciphered

variable (base : Conn W) (ks : Keystream) (pos : ℕ) (write : CtrContext)

/-- An exit of the loop, seen with the cipher. -/
def decipheredExit (exit : DecryptExit W) : DecryptExit W :=
  exit.map fun p => (deciphered base ks pos write p.1, p.2)

/-- Payload at the front of `in_u` is decrypted behind what has been decrypted. -/
theorem decryptTo_deciphered (d : Conn W) {q : ℕ} {w : CtrContext} (len : ℕ) :
    decryptTo (deciphered base ks pos write d) ⟨⟨ks, pos + d.inp.length⟩, write⟩ len =
      deciphered base ks pos write (decryptTo d ⟨⟨fun _ => 0, q⟩, w⟩ len) := by
  have hinp : xorAt ks pos d.inp ++ xorAt ks (pos + d.inp.length) (d.inU.take len) =
      xorAt ks pos (d.inp ++ xorAt (fun _ => 0) q (d.inU.take len)) := by
    rw [xorAt_zero, xorAt_append]
  have hpos : pos + d.inp.length + (d.inU.take len).length =
      pos + (d.inp ++ xorAt (fun _ => 0) q (d.inU.take len)).length := by
    rw [xorAt_zero, List.length_append, Nat.add_assoc]
  simp only [decryptTo, deciphered]
  rw [hinp, hpos]

/-- So is the payload of a WebSocket frame. -/
theorem decryptWsPayload_deciphered (d : Conn W) {q : ℕ} {w : CtrContext} :
    decryptWsPayload (deciphered base ks pos write d) ⟨⟨ks, pos + d.inp.length⟩, write⟩ =
      deciphered base ks pos write (decryptWsPayload d ⟨⟨fun _ => 0, q⟩, w⟩) := by
  have hlen : (wsUnmaskData d.wsMask d.wsMaskOffset
      (d.inU.take (min d.wsFrameRemaining d.inU.length))).length =
        min d.wsFrameRemaining d.inU.length := by
    rw [wsUnmaskData, xorAt_length, List.length_take]
    omega
  have hinp : xorAt ks pos d.inp ++ xorAt ks (pos + d.inp.length) (wsUnmaskData d.wsMask
      d.wsMaskOffset (d.inU.take (min d.wsFrameRemaining d.inU.length))) =
      xorAt ks pos (d.inp ++ xorAt (fun _ => 0) q (wsUnmaskData d.wsMask d.wsMaskOffset
        (d.inU.take (min d.wsFrameRemaining d.inU.length)))) := by
    rw [xorAt_zero, xorAt_append]
  have hpos : pos + d.inp.length + min d.wsFrameRemaining d.inU.length =
      pos + (d.inp ++ xorAt (fun _ => 0) q (wsUnmaskData d.wsMask d.wsMaskOffset
        (d.inU.take (min d.wsFrameRemaining d.inU.length)))).length := by
    rw [xorAt_zero, List.length_append, hlen, Nat.add_assoc]
  simp only [decryptWsPayload, deciphered]
  rw [hinp, hpos]

/-- And the data of a chunk, and that of a TLS record. -/
theorem decryptChunkPayload_deciphered (d : Conn W) {q : ℕ} {w : CtrContext} :
    decryptChunkPayload (deciphered base ks pos write d) ⟨⟨ks, pos + d.inp.length⟩, write⟩ =
      deciphered base ks pos write (decryptChunkPayload d ⟨⟨fun _ => 0, q⟩, w⟩) := by
  have hto := decryptTo_deciphered base ks pos write d (q := q) (w := w)
    (min d.inU.length d.httpChunkRemaining)
  exact congrArg (fun e : Conn W => { e with
    httpChunkRemaining := d.httpChunkRemaining - min d.inU.length d.httpChunkRemaining
    httpChunkHeaderState :=
      if d.httpChunkRemaining - min d.inU.length d.httpChunkRemaining = 0 then .needCrlf
      else d.httpChunkHeaderState }) hto

theorem decryptTlsPayload_deciphered (d : Conn W) {q : ℕ} {w : CtrContext} (left : ℕ) :
    decryptTlsPayload (deciphered base ks pos write d) ⟨⟨ks, pos + d.inp.length⟩, write⟩ left =
      deciphered base ks pos write (decryptTlsPayload d ⟨⟨fun _ => 0, q⟩, w⟩ left) := by
  have hto := decryptTo_deciphered base ks pos write d (q := q) (w := w) (min left d.inU.length)
  exact congrArg (fun e : Conn W => { e with
    leftTlsPacketLength := left - min left d.inU.length }) hto

/-- A turn over WebSocket frames, with the cipher and without. -/
theorem decryptWsTurn_deciphered (d : Conn W) {q : ℕ} {w : CtrContext} :
    decryptWsTurn (deciphered base ks pos write d) ⟨⟨ks, pos + d.inp.length⟩, write⟩ =
      (decryptWsTurn d ⟨⟨fun _ => 0, q⟩, w⟩).map (deciphered base ks pos write)
        (decipheredExit base ks pos write) := by
  have hremaining : (deciphered base ks pos write d).wsFrameRemaining = d.wsFrameRemaining := rfl
  have hheader : wsParseFrameHeader ⟨(deciphered base ks pos write d).inU, 0,
      (deciphered base ks pos write d).wsMask, (deciphered base ks pos write d).wsMaskOffset⟩ =
    wsParseFrameHeader ⟨d.inU, 0, d.wsMask, d.wsMaskOffset⟩ := rfl
  unfold decryptWsTurn
  rw [hremaining, hheader]
  by_cases h0 : d.wsFrameRemaining = 0
  · rw [if_pos h0, if_pos h0]
    cases wsParseFrameHeader ⟨d.inU, 0, d.wsMask, d.wsMaskOffset⟩ with
    | error a => rfl
    | ok p =>
      obtain ⟨v, payloadLen⟩ := p
      dsimp only
      by_cases hneg : payloadLen < 0
      · rw [if_pos hneg, if_pos hneg]
        rfl
      rw [if_neg hneg, if_neg hneg]
      by_cases hzero : payloadLen = 0
      · rw [if_pos hzero, if_pos hzero]
        rfl
      rw [if_neg hzero, if_neg hzero]
      exact congrArg Turn.again (decryptWsPayload_deciphered base ks pos write { d with
        inU := v.input
        wsFrameRemaining := v.remaining
        wsMask := v.mask
        wsMaskOffset := v.maskOffset })
  · rw [if_neg h0, if_neg h0]
    exact congrArg Turn.again (decryptWsPayload_deciphered base ks pos write d)

/-- A turn over HTTP chunks. -/
theorem decryptChunkTurn_deciphered (d : Conn W) {q : ℕ} {w : CtrContext} :
    decryptChunkTurn (deciphered base ks pos write d) ⟨⟨ks, pos + d.inp.length⟩, write⟩ =
      (decryptChunkTurn d ⟨⟨fun _ => 0, q⟩, w⟩).map (deciphered base ks pos write)
        (decipheredExit base ks pos write) := by
  have hplace : (⟨(deciphered base ks pos write d).inU, [], 0,
      (deciphered base ks pos write d).httpChunkRemaining,
      (deciphered base ks pos write d).httpChunkHeaderState⟩ : Unwrap) =
    ⟨d.inU, [], 0, d.httpChunkRemaining, d.httpChunkHeaderState⟩ := rfl
  unfold decryptChunkTurn
  dsimp only
  rw [hplace]
  cases Unwrap.advance httpStreamChunkHeaderParse
      ⟨d.inU, [], 0, d.httpChunkRemaining, d.httpChunkHeaderState⟩ with
  | error exit =>
    obtain ⟨u, failure⟩ := exit
    cases failure <;> rfl
  | ok u =>
    exact congrArg Turn.again (decryptChunkPayload_deciphered base ks pos write { d with
      inU := u.src
      httpChunkRemaining := u.remaining
      httpChunkHeaderState := u.state })

/-- A turn over TLS records. -/
theorem decryptTlsTurn_deciphered (d : Conn W) {q : ℕ} {w : CtrContext} :
    decryptTlsTurn (deciphered base ks pos write d) ⟨⟨ks, pos + d.inp.length⟩, write⟩ =
      (decryptTlsTurn d ⟨⟨fun _ => 0, q⟩, w⟩).map (deciphered base ks pos write)
        (decipheredExit base ks pos write) := by
  have hleft : (deciphered base ks pos write d).leftTlsPacketLength = d.leftTlsPacketLength := rfl
  have hinU : (deciphered base ks pos write d).inU = d.inU := rfl
  unfold decryptTlsTurn
  rw [hleft, hinU]
  by_cases hneg : d.leftTlsPacketLength < 0
  · rw [if_pos hneg, if_pos hneg]
    rfl
  rw [if_neg hneg, if_neg hneg]
  by_cases h0 : d.leftTlsPacketLength = 0
  · rw [if_pos h0, if_pos h0]
    by_cases hshort : d.inU.length < 5
    · rw [if_pos hshort, if_pos hshort]
      rfl
    rw [if_neg hshort, if_neg hshort]
    by_cases hrecord : d.inU.take 3 ≠ [0x17, 0x03, 0x03]
    · rw [if_pos hrecord, if_pos hrecord]
      rfl
    rw [if_neg hrecord, if_neg hrecord]
    exact congrArg Turn.again
      (decryptTlsPayload_deciphered base ks pos write { d with inU := d.inU.drop 5 } _)
  · rw [if_neg h0, if_neg h0]
    exact congrArg Turn.again (decryptTlsPayload_deciphered base ks pos write d _)

/-- **A turn of the loop does to the framing what it does without a cipher.** -/
theorem decryptTurn_deciphered {d : Conn W} (hd : Unciphered d) :
    decryptTurn (deciphered base ks pos write d) =
      (decryptTurn d).map (deciphered base ks pos write)
        (decipheredExit base ks pos write) := by
  obtain ⟨q, w, hd⟩ := hd
  have hcrypto : (deciphered base ks pos write d).crypto =
      some ⟨⟨ks, pos + d.inp.length⟩, write⟩ := rfl
  have hinU : (deciphered base ks pos write d).inU = d.inU := rfl
  have hws : (deciphered base ks pos write d).wsState = d.wsState := rfl
  have hmode : (deciphered base ks pos write d).transportMode = d.transportMode := rfl
  have htls : (deciphered base ks pos write d).cIsTls = d.cIsTls := rfl
  unfold decryptTurn
  rw [hcrypto, hd, hinU, hws, hmode, htls]
  dsimp only
  by_cases h1 : d.inU.length = 0
  · rw [if_pos h1, if_pos h1]
    rfl
  rw [if_neg h1, if_neg h1]
  by_cases h2 : d.wsState = .active
  · rw [if_pos h2, if_pos h2]
    exact decryptWsTurn_deciphered base ks pos write d
  rw [if_neg h2, if_neg h2]
  by_cases h3 : d.transportMode = .httpStream
  · rw [if_pos h3, if_pos h3]
    exact decryptChunkTurn_deciphered base ks pos write d
  rw [if_neg h3, if_neg h3]
  by_cases h4 : d.cIsTls = true
  · rw [if_pos h4, if_pos h4]
    exact decryptTlsTurn_deciphered base ks pos write d
  rw [if_neg h4, if_neg h4]
  exact congrArg Turn.again (decryptTo_deciphered base ks pos write d d.inU.length)

/-- **A call of `crypto_decrypt_input` does to the framing what it does without a cipher**, and
the cipher runs through the payload in order. -/
theorem decryptInput_deciphered {d : Conn W} (hd : Unciphered d) :
    cpuTcpAesCryptoCtr128DecryptInput (deciphered base ks pos write d) =
      decipheredExit base ks pos write (cpuTcpAesCryptoCtr128DecryptInput d) :=
  loop_map decryptTurn_shrinks decryptTurn_shrinks (deciphered base ks pos write)
    (decipheredExit base ks pos write) (fun _ _ => decryptTurn_unciphered)
    (fun _ => decryptTurn_deciphered base ks pos write) hd

end Deciphered

/-! ### The start -/

/-- **What follows the block.**  64 bytes stand at the front of `c->in`, no cipher has been set
up, and of the client's bytes behind them `plain` has lost its framing and `raw` has not.
In chunked mode no more than `T3_PRECRYPTO_BYTES` are unwrapped before there is a cipher, and
the Session Header has been taken off; elsewhere nothing waits in `in_u`. -/
structure AtBlock (c : Conn W) (plain raw : Bytes) : Prop where
  block : 64 ≤ c.inp.length
  crypto : c.crypto = none
  webSocket : c.wsState = .active → c.inp.drop 64 = plain ++ raw ∧ c.inU = []
  chunked : c.wsState ≠ .active → c.transportMode = .httpStream →
    c.inp.drop 64 = [] ∧ plain = [] ∧ raw = c.inU
  unframed : c.wsState ≠ .active → c.transportMode ≠ .httpStream →
    plain = [] ∧ raw = c.inp.drop 64 ∧ c.inU = []

/-- What is left of `c->in` goes behind what waits in `in_u`. -/
theorem startCrypto_inU (env : ExtServerEnv W) (c : Conn W) (pr : Obfs2ParseResult) :
    (startCrypto env c pr).inU = c.inU ++ c.inp.drop 64 := rfl

/-- With the raw bytes in `in_u` the start is one of decryption behind an empty `c->in`. -/
theorem startCrypto_deciphered (env : ExtServerEnv W) (c : Conn W) (pr : Obfs2ParseResult)
    {raw : Bytes} (h : (startCrypto env c pr).inU = raw) :
    startCrypto env c pr =
      deciphered (startCrypto env c pr) (env.prim.aes256Ctr pr.keys.readKey pr.keys.readIv) 64
        ⟨env.prim.aes256Ctr pr.keys.writeKey pr.keys.writeIv, 0⟩ (deframing c raw) := by
  rw [← h]
  rfl

/-- How a connection waits for its block between two reads: what has arrived is in `c->in`, but
for an HTTP stream, where it is in `in_u` and at most `T3_PRECRYPTO_BYTES` of it have been
unwrapped. -/
structure BeforeCipher (c : Conn W) : Prop where
  crypto : c.crypto = none
  chunked : c.transportMode = .httpStream → c.wsState = .none ∧ c.inp.length ≤ T3_PRECRYPTO_BYTES
  unframed : c.transportMode ≠ .httpStream → c.inU = []

/-- The unwrapping loop takes no more than is wanted. -/
theorem unwrapLoop_dst_le (parse : Bytes → ChunkHeader) (u : Unwrap) :
    (unwrapLoop parse u).1.dst.length ≤ u.dst.length + u.needed := by
  refine loop_inv (I := fun v => v.dst.length + v.needed ≤ u.dst.length + u.needed)
    (Q := fun e => e.1.dst.length ≤ u.dst.length + u.needed) (unwrapTurn_shrinks parse) ?_ ?_
    (le_refl _)
  · intro v w hv hturn
    unfold unwrapTurn at hturn
    split_ifs at hturn
    cases hadv : v.advance parse with
    | error e =>
      rw [hadv] at hturn
      exact nomatch hturn
    | ok x =>
      rw [hadv] at hturn
      dsimp only at hturn
      split_ifs at hturn
      obtain ⟨hneeded, hdst⟩ := Unwrap.advance_needed hadv
      rw [← Turn.again.inj hturn]
      have h1 : x.toRead ≤ x.needed := Nat.min_le_right _ _
      simp only [Unwrap.take, List.length_append, List.length_take, hdst, hneeded] at h1 ⊢
      omega
  · intro v e hv hturn
    unfold unwrapTurn at hturn
    split_ifs at hturn
    · rw [← Turn.done.inj hturn]
      dsimp only
      omega
    · cases hadv : v.advance parse with
      | error exit =>
        obtain ⟨x, failure⟩ := exit
        rw [hadv] at hturn
        rw [← Turn.done.inj hturn, (Unwrap.advance_exit hadv).2]
        omega
      | ok x =>
        rw [hadv] at hturn
        dsimp only at hturn
        split_ifs at hturn
        rw [← Turn.done.inj hturn, (Unwrap.advance_needed hadv).2]
        omega

/-- Where `http_stream_unwrap_precrypto` succeeds, `in` holds no more than is wanted. -/
theorem httpStreamUnwrapPrecrypto_beforeCipher {c d : Conn W} {r : ℤ}
    (h : httpStreamUnwrapPrecrypto c = (d, r)) (hr : ¬ r < 0) :
    d.crypto = c.crypto ∧ d.wsState = c.wsState ∧ d.transportMode = c.transportMode ∧
      d.inp.length ≤ c.inp.length + (T3_PRECRYPTO_BYTES - c.inp.length) := by
  have hdst := unwrapLoop_dst_le httpStreamChunkHeaderParse ⟨c.inU, c.inp,
    T3_PRECRYPTO_BYTES - c.inp.length, c.httpChunkRemaining, c.httpChunkHeaderState⟩
  unfold httpStreamUnwrapPrecrypto at h
  dsimp only at h
  generalize unwrapLoop httpStreamChunkHeaderParse ⟨c.inU, c.inp,
    T3_PRECRYPTO_BYTES - c.inp.length, c.httpChunkRemaining, c.httpChunkHeaderState⟩ = e at h hdst
  obtain ⟨u, failure⟩ := e
  cases failure with
  | none =>
    rw [← (Prod.mk.inj h).1]
    exact ⟨rfl, rfl, rfl, hdst⟩
  | some err =>
    exfalso
    apply hr
    rw [← (Prod.mk.inj h).2]
    decide

/-- The reader leaves it so. -/
theorem readerDecode_beforeCipher {m : ReaderMethods W} {c d : Conn W} (queue : List Bytes)
    (h : BeforeCipher c) (hd : readerDecode m (readerFill c queue) = .ok d) : BeforeCipher d := by
  have hnone : ¬ c.crypto.isSome = true := by
    rw [h.crypto]
    exact Bool.false_ne_true
  by_cases hmode : c.transportMode = .httpStream
  · obtain ⟨hws, hle⟩ := h.chunked hmode
    rw [readerFill, if_pos (Or.inr hmode), readerDecode, if_neg hnone, if_pos hmode] at hd
    cases hres : httpStreamUnwrapPrecrypto { c with inU := c.inU ++ queue.flatten } with
    | mk c' r =>
      rw [hres] at hd
      dsimp only at hd
      split_ifs at hd with hr
      rw [← Except.ok.inj hd]
      obtain ⟨hcrypto, hstate, htransport, hlen⟩ := httpStreamUnwrapPrecrypto_beforeCipher hres hr
      have htop : c.inp.length + (T3_PRECRYPTO_BYTES - c.inp.length) = T3_PRECRYPTO_BYTES :=
        Nat.add_sub_cancel' hle
      exact ⟨hcrypto.trans h.crypto, fun _ => ⟨hstate.trans hws, hlen.trans htop.le⟩,
        fun hne => absurd (htransport.trans hmode) hne⟩
  · have hor : ¬ (c.crypto.isSome = true ∨ c.transportMode = .httpStream) :=
      not_or.mpr ⟨hnone, hmode⟩
    rw [readerFill, if_neg hor, readerDecode, if_neg hnone, if_neg hmode] at hd
    rw [← Except.ok.inj hd]
    exact ⟨h.crypto, fun heq => absurd heq hmode, h.unframed⟩

/-- A stage takes bytes from the front of `c->in` and leaves the transport alone. -/
structure Front (c c' : Conn W) : Prop where
  inp : ∃ k, c'.inp = c.inp.drop k
  inU : c'.inU = c.inU
  crypto : c'.crypto = c.crypto
  wsState : c'.wsState = c.wsState
  transportMode : c'.transportMode = c.transportMode

namespace Front

variable {a b c : Conn W}

theorem refl (c : Conn W) : Front c c := ⟨⟨0, rfl⟩, rfl, rfl, rfl, rfl⟩

theorem trans (h : Front a b) (h' : Front b c) : Front a c where
  inp := by
    obtain ⟨k, hk⟩ := h.inp
    obtain ⟨j, hj⟩ := h'.inp
    exact ⟨k + j, by rw [hj, hk, List.drop_drop]⟩
  inU := h'.inU.trans h.inU
  crypto := h'.crypto.trans h.crypto
  wsState := h'.wsState.trans h.wsState
  transportMode := h'.transportMode.trans h.transportMode

theorem length_le (h : Front a b) : b.inp.length ≤ a.inp.length := by
  obtain ⟨k, hk⟩ := h.inp
  rw [hk, List.length_drop]
  exact Nat.sub_le _ _

end Front

section Reach

variable (env : ExtServerEnv W) {c c' : Conn W}

theorem parseLength_ok (h : parseLength c = .ok c') : c' = c := by
  unfold parseLength at h
  split_ifs at h
  exact (Except.ok.inj h).symm

theorem parseFlags_front (h : parseFlags c = .ok c') : Front c c' := by
  unfold parseFlags at h
  dsimp only at h
  by_cases hflags : c.cError = true ∨ c.cStopParse = true
  · rw [if_pos hflags] at h
    exact nomatch h
  · rw [if_neg hflags] at h
    rw [← Except.ok.inj h]
    exact ⟨⟨0, rfl⟩, rfl, rfl, rfl, rfl⟩

theorem proxyHeader_front (h : proxyHeader env c = .ok c') : Front c c' := by
  unfold proxyHeader at h
  by_cases hproxy : c.cProxyProtocol = true
  · rw [if_pos hproxy] at h
    cases hparse : env.proxyProtocolParse c.inp with
    | needMore =>
      rw [hparse] at h
      exact nomatch h
    | malformed =>
      rw [hparse] at h
      exact nomatch h
    | header consumed addr =>
      rw [hparse] at h
      dsimp only at h
      split_ifs at h
      rw [parseLength_ok h]
      exact ⟨⟨consumed, rfl⟩, rfl, rfl, rfl, rfl⟩
  · rw [if_neg hproxy] at h
    rw [← Except.ok.inj h]
    exact .refl c

theorem fakeTls_front (h : fakeTls env c = .ok c') : Front c c' := by
  unfold fakeTls at h
  by_cases htls : c.cIsTls = true
  · rw [if_pos htls] at h
    unfold firstTlsPacket at h
    dsimp only at h
    split_ifs at h
    rw [← Except.ok.inj h]
    exact ⟨⟨11, rfl⟩, rfl, rfl, rfl, rfl⟩
  · rw [if_neg htls] at h
    cases hdflt : env.defaultDomainInfo with
    | none =>
      rw [hdflt] at h
      rw [← Except.ok.inj h]
      exact .refl c
    | some dflt =>
      rw [hdflt] at h
      dsimp only at h
      split_ifs at h
      rw [← Except.ok.inj h]
      exact .refl c

/-- The hook takes the Session Header, or there are not even four bytes. -/
theorem dispatchHook_ok (h : dispatchHook env c = .ok c') :
    Front c c' ∧ (c'.inp = c.inp.drop 4 ∨ c'.inp.length < 4) := by
  unfold dispatchHook at h
  rcases type3DispatchOnCryptoInit_cases env.toDispatchEnv c with
    ⟨-, heq⟩ | ⟨-, hlen, heq⟩ | ⟨-, -, ⟨r, -, heq⟩ | ⟨-, heq⟩ | ⟨-, heq⟩⟩
  · rw [heq] at h
    exact nomatch h
  · rw [heq] at h
    rw [← Except.ok.inj h]
    exact ⟨.refl c, Or.inr hlen⟩
  · rw [heq] at h
    exact nomatch h
  · rw [heq] at h
    exact nomatch h
  · rw [heq] at h
    rw [← Except.ok.inj h]
    exact ⟨⟨⟨4, rfl⟩, rfl, rfl, rfl, rfl⟩, Or.inl rfl⟩

/-- A request that opens an HTTP stream leaves no WebSocket, and unwraps no more than is
wanted. -/
theorem httpStreamRequest_beforeCipher (h : BeforeCipher c) (hinU : c.inU = [])
    (hd : httpStreamRequest c = .ok c') : BeforeCipher c' ∧ c'.wsState = .none := by
  unfold httpStreamRequest at hd
  cases hend : findSub headersEnd (peekBuf c.inp) with
  | none =>
    rw [hend] at hd
    dsimp only at hd
    split_ifs at hd
  | some headersLen =>
    rw [hend] at hd
    dsimp only at hd
    have hcrypto : (enterHttpStream c (peekBuf c.inp) headersLen).crypto = none := h.crypto
    have hstate : (enterHttpStream c (peekBuf c.inp) headersLen).wsState = .none := rfl
    have hinU' : (enterHttpStream c (peekBuf c.inp) headersLen).inU = [] := hinU
    generalize enterHttpStream c (peekBuf c.inp) headersLen = d at hd hcrypto hstate hinU'
    cases htrans : transitionUnwrap d with
    | error e =>
      rw [htrans] at hd
      exact nomatch hd
    | ok x =>
      rw [htrans] at hd
      rw [needInput_ok hd]
      unfold transitionUnwrap at htrans
      by_cases hframed : d.inp.length > 0 ∧ d.transportMode = .httpStream
      · rw [if_pos hframed] at htrans
        have hdst := unwrapLoop_dst_le transitionChunkHeader ⟨d.inp, [], T3_PRECRYPTO_BYTES,
          d.httpChunkRemaining, d.httpChunkHeaderState⟩
        generalize unwrapLoop transitionChunkHeader ⟨d.inp, [], T3_PRECRYPTO_BYTES,
          d.httpChunkRemaining, d.httpChunkHeaderState⟩ = e at htrans hdst
        obtain ⟨u, failure⟩ := e
        cases failure with
        | some err => exact nomatch htrans
        | none =>
          rw [← Except.ok.inj htrans]
          refine ⟨⟨hcrypto, fun _ => ⟨hstate, ?_⟩, fun hne => absurd hframed.2 hne⟩, hstate⟩
          dsimp only [List.length_nil] at hdst ⊢
          omega
      · rw [if_neg hframed] at htrans
        rw [← Except.ok.inj htrans]
        refine ⟨⟨hcrypto, fun hmode => ⟨hstate, ?_⟩, fun _ => hinU'⟩, hstate⟩
        have hempty : ¬ d.inp.length > 0 := fun hpos => hframed ⟨hpos, hmode⟩
        omega

/-- The detector keeps the connection waiting as it should. -/
theorem detect_beforeCipher (h : BeforeCipher c) (hd : detect env.acceptKey c = .ok c') :
    BeforeCipher c' := by
  by_cases hhandshake : c.wsState = .handshake
  · have hmode : c.transportMode ≠ .httpStream := by
      intro hmode
      rw [(h.chunked hmode).1] at hhandshake
      cases hhandshake
    have hinU : c.inU = [] := h.unframed hmode
    rw [detect, if_pos hhandshake] at hd
    by_cases hstarts : StartsRequest c.inp
    · rw [if_pos hstarts] at hd
      cases hreq : httpStreamRequest c with
      | error e =>
        rw [hreq] at hd
        cases hd
      | ok d =>
        obtain ⟨hbefore, hnone⟩ := httpStreamRequest_beforeCipher h hinU hreq
        rw [hreq] at hd
        have hnot : ¬ d.wsState = .handshake := by
          rw [hnone]
          exact WsState.noConfusion
        replace hd : (if d.wsState = .handshake then wsHandshake env.acceptKey d else .ok d) =
          .ok c' := hd
        rw [if_neg hnot] at hd
        rw [← Except.ok.inj hd]
        exact hbefore
    · rw [if_neg hstarts] at hd
      replace hd : (if c.wsState = .handshake then wsHandshake env.acceptKey c else .ok c) =
        .ok c' := hd
      rw [if_pos hhandshake] at hd
      unfold wsHandshake at hd
      cases hup : wsParseUpgradeRequest c.inp with
      | needMore =>
        rw [hup] at hd
        cases hd
      | refused =>
        rw [hup] at hd
        rw [← Except.ok.inj hd]
        exact ⟨h.crypto, fun heq => absurd heq hmode, h.unframed⟩
      | upgrade wsKey =>
        rw [hup] at hd
        dsimp only at hd
        cases hkey : env.acceptKey wsKey with
        | none =>
          rw [hkey] at hd
          cases hd
        | some accept =>
          rw [hkey] at hd
          rw [needInput_ok hd]
          exact ⟨h.crypto, fun heq => absurd heq hmode, h.unframed⟩
  · rw [detect_of_ne hhandshake] at hd
    rw [← Except.ok.inj hd]
    exact h

/-- A turn that began with `c0` has got to the obfuscated2 header, with `c`. -/
def ReachesBlock (c0 c : Conn W) : Prop :=
  ∃ c1 c2 c3, detect env.acceptKey c0 = .ok c1 ∧ preCrypto env c1 = .ok c2 ∧
    (parseFlags c2).bind parseLength = .ok c3 ∧ c3.rpc.inPacketNum = -3 ∧
    (proxyHeader env c3).bind (fakeTls env) = .ok c

/-- A turn gets to one header at most. -/
theorem ReachesBlock.unique {c0 c c' : Conn W} (h : ReachesBlock env c0 c)
    (h' : ReachesBlock env c0 c') : c = c' := by
  obtain ⟨c1, c2, c3, hdetect, hpre, hflags, -, htls⟩ := h
  obtain ⟨c1', c2', c3', hdetect', hpre', hflags', -, htls'⟩ := h'
  obtain rfl := Except.ok.inj (hdetect.symm.trans hdetect')
  obtain rfl := Except.ok.inj (hpre.symm.trans hpre')
  obtain rfl := Except.ok.inj (hflags.symm.trans hflags')
  exact Except.ok.inj (htls.symm.trans htls')

/-- What is left of such a turn is the stage of the header. -/
theorem parseStages_of_reaches {c0 : Conn W} (h : ReachesBlock env c0 c) :
    parseStages env c0 = obfs2Header env c := by
  obtain ⟨c1, c2, c3, hdetect, hpre, hflags, hnum, htls⟩ := h
  have hsession : parseSession env c2 = handshake env c3 := by
    rw [parseSession, hflags]
    exact if_pos hnum
  rw [parseStages, hdetect]
  show ((preCrypto env c1).bind (parseSession env)) = _
  rw [hpre]
  show parseSession env c2 = _
  rw [hsession, handshake, htls]
  rfl

/-- What a turn takes off behind the hook comes from the front of `in`. -/
theorem front_of_stages {c2 c3 : Conn W} (h : (parseFlags c2).bind parseLength = .ok c3)
    (h' : (proxyHeader env c3).bind (fakeTls env) = .ok c) : Front c2 c := by
  obtain ⟨d, hflags, hlength⟩ := bind_ok_iff.mp h
  obtain ⟨e, hproxy, htls⟩ := bind_ok_iff.mp h'
  rw [parseLength_ok hlength] at hproxy
  exact ((parseFlags_front hflags).trans (proxyHeader_front env hproxy)).trans
    (fakeTls_front env htls)

/-- **At the block.**  Wherever a turn gets to the 64 bytes of an obfuscated2 header, what has
lost its framing behind them is told from what has not. -/
theorem atBlock_of_reaches {c0 : Conn W} (h0 : BeforeCipher c0) (h : ReachesBlock env c0 c)
    (hlen : 64 ≤ c.inp.length) : ∃ plain raw, AtBlock c plain raw := by
  obtain ⟨c1, c2, c3, hdetect, hpre, hflags, -, htls⟩ := h
  have h1 : BeforeCipher c1 := detect_beforeCipher env h0 hdetect
  have hfront : Front c2 c := front_of_stages env hflags htls
  unfold preCrypto at hpre
  have hisNone : c1.crypto.isNone = true := by
    rw [h1.crypto]
    rfl
  by_cases hws : c1.wsState = .active
  · have hmode : c1.transportMode ≠ .httpStream := by
      intro hmode
      rw [(h1.chunked hmode).1] at hws
      exact nomatch hws
    rw [if_pos ⟨hws, hisNone⟩] at hpre
    obtain ⟨d, hneed, hhook⟩ := bind_ok_iff.mp hpre
    obtain ⟨e, hunwrap, hinput⟩ := bind_ok_iff.mp hneed
    rw [needInput_ok hinput] at hhook
    unfold wsPreCrypto at hunwrap
    cases hloop : wsUnwrapLoop
        ⟨⟨c1.inp, c1.wsFrameRemaining, c1.wsMask, c1.wsMaskOffset⟩, []⟩ with
    | error a =>
      rw [hloop] at hunwrap
      exact nomatch hunwrap
    | ok p =>
      obtain ⟨u, alive⟩ := p
      rw [hloop] at hunwrap
      cases alive with
      | false => exact nomatch hunwrap
      | true =>
        have he := Except.ok.inj hunwrap
        have hcrypto : e.crypto = none := he ▸ h1.crypto
        have hstate : e.wsState = .active := he ▸ hws
        have hinU : e.inU = [] := he ▸ h1.unframed hmode
        have hinp : e.inp = u.unmasked ++ u.frames.input := he ▸ rfl
        have hall : Front e c := (dispatchHook_ok env hhook).1.trans hfront
        obtain ⟨k, hk⟩ := hall.inp
        have hactive : c.wsState = .active := hall.wsState.trans hstate
        refine ⟨u.unmasked.drop (k + 64), u.frames.input.drop (k + 64 - u.unmasked.length), hlen,
          hall.crypto.trans hcrypto, fun _ => ⟨?_, hall.inU.trans hinU⟩,
          fun hne => absurd hactive hne, fun hne => absurd hactive hne⟩
        rw [hk, List.drop_drop, hinp, List.drop_append]
  · rw [if_neg fun hboth => hws hboth.1] at hpre
    by_cases hstream : c1.transportMode = .httpStream
    · obtain ⟨-, hle⟩ := h1.chunked hstream
      have hne : c1.transportMode ≠ .ws := by
        rw [hstream]
        exact TransportMode.noConfusion
      rw [if_pos ⟨hne, hisNone⟩] at hpre
      obtain ⟨d, hinput, hhook⟩ := bind_ok_iff.mp hpre
      rw [needInput_ok hinput] at hhook
      obtain ⟨hhookFront, htaken⟩ := dispatchHook_ok env hhook
      have hall : Front c1 c := hhookFront.trans hfront
      have hshort := hfront.length_le
      have hexact : c.inp.drop 64 = [] := by
        apply List.drop_eq_nil_of_le
        rcases htaken with htaken | htaken
        · rw [htaken, List.length_drop] at hshort
          unfold T3_PRECRYPTO_BYTES at hle
          omega
        · omega
      exact ⟨[], c.inU, hlen, hall.crypto.trans h1.crypto,
        fun hactive => absurd (hall.wsState ▸ hactive) hws, fun _ _ => ⟨hexact, rfl, rfl⟩,
        fun _ hother => absurd (hall.transportMode.trans hstream) hother⟩
    · have hall : Front c1 c := by
        split_ifs at hpre
        · obtain ⟨d, hinput, hhook⟩ := bind_ok_iff.mp hpre
          rw [needInput_ok hinput] at hhook
          exact (dispatchHook_ok env hhook).1.trans hfront
        · rw [Except.ok.inj hpre]
          exact hfront
      exact ⟨[], c.inp.drop 64, hlen, hall.crypto.trans h1.crypto,
        fun hactive => absurd (hall.wsState ▸ hactive) hws,
        fun _ hmode => absurd (hall.transportMode ▸ hmode) hstream,
        fun _ _ => ⟨rfl, rfl, hall.inU.trans (h1.unframed hstream)⟩⟩

end Reach

end Server
end Teleproto3
