/-
# Decrypting what has arrived

`cpu_tcp_aes_crypto_ctr128_decrypt_input` of `server/src/net/net-tcp-connections.c`: the raw
bytes in `in_u` lose their transport framing (WebSocket frames, HTTP chunks or TLS
records) and are decrypted into `in`.

The loop turns until `in_u` is empty or the framing needs more.  Each turn that goes on
makes `in_u` shorter, or leaves a chunk that has no data left; `decryptSize` counts both.
-/

import Teleproto3.Server.ChunkUnwrap
import Teleproto3.Server.WebSocket

namespace Teleproto3
namespace Server

open Lib

variable {W : Type*}

/-- How a call of `crypto_decrypt_input` ends: in an assertion, or with a connection and what
the call returns. -/
abbrev DecryptExit (W : Type*) := Except Abort (Conn W × ℤ)

/-- `rwm_encrypt_decrypt_to (&c->in_u, &c->in, len, T->read_aeskey, 1)`. -/
def decryptTo (c : Conn W) (T : AesCrypto) (len : ℕ) : Conn W :=
  { c with
    inU := c.inU.drop len
    inp := c.inp ++ xorAt T.read.ks T.read.pos (c.inU.take len)
    crypto := some { T with read := ⟨T.read.ks, T.read.pos + (c.inU.take len).length⟩ } }

/-- The payload of a WebSocket frame is unmasked and decrypted. -/
def decryptWsPayload (c : Conn W) (T : AesCrypto) : Conn W :=
  let len := min c.wsFrameRemaining c.inU.length
  let plain := wsUnmaskData c.wsMask c.wsMaskOffset (c.inU.take len)
  { c with
    inU := c.inU.drop len
    inp := c.inp ++ xorAt T.read.ks T.read.pos plain
    crypto := some { T with read := ⟨T.read.ks, T.read.pos + len⟩ }
    wsFrameRemaining := c.wsFrameRemaining - len
    wsMaskOffset := (c.wsMaskOffset + len) % 4 }

/-- A turn of the loop over WebSocket frames. -/
def decryptWsTurn (c : Conn W) (T : AesCrypto) : Turn (Conn W) (DecryptExit W) :=
  if c.wsFrameRemaining = 0 then
    match wsParseFrameHeader ⟨c.inU, 0, c.wsMask, c.wsMaskOffset⟩ with
    | .error a => .done (.error a)
    | .ok (w, payloadLen) =>
      let c := { c with
        inU := w.input
        wsFrameRemaining := w.remaining
        wsMask := w.mask
        wsMaskOffset := w.maskOffset }
      if payloadLen < 0 then .done (.ok (failConnection c (-1), 0))
      else if payloadLen = 0 then .done (.ok (c, 0))
      else .again (decryptWsPayload c T)
  else .again (decryptWsPayload c T)

/-- The data of an HTTP chunk is decrypted. -/
def decryptChunkPayload (c : Conn W) (T : AesCrypto) : Conn W :=
  let toRead := min c.inU.length c.httpChunkRemaining
  { decryptTo c T toRead with
    httpChunkRemaining := c.httpChunkRemaining - toRead
    httpChunkHeaderState :=
      if c.httpChunkRemaining - toRead = 0 then .needCrlf else c.httpChunkHeaderState }

/-- A turn of the loop over HTTP chunks.  The framing in front of the data is the one
`http_stream_unwrap_precrypto` removes. -/
def decryptChunkTurn (c : Conn W) (T : AesCrypto) : Turn (Conn W) (DecryptExit W) :=
  let u : Unwrap := ⟨c.inU, [], 0, c.httpChunkRemaining, c.httpChunkHeaderState⟩
  let put (u : Unwrap) : Conn W :=
    { c with inU := u.src, httpChunkRemaining := u.remaining, httpChunkHeaderState := u.state }
  match u.advance httpStreamChunkHeaderParse with
  | .error (u, none) => .done (.ok (put u, 0))
  | .error (u, some err) => .done (.ok (failConnection (put u) err, 0))
  | .ok u => .again (decryptChunkPayload (put u) T)

/-- The record at hand is decrypted. -/
def decryptTlsPayload (c : Conn W) (T : AesCrypto) (left : ℕ) : Conn W :=
  let len := min left c.inU.length
  { decryptTo c T len with leftTlsPacketLength := left - len }

/-- A turn of the loop over TLS records. -/
def decryptTlsTurn (c : Conn W) (T : AesCrypto) : Turn (Conn W) (DecryptExit W) :=
  if c.leftTlsPacketLength < 0 then .done (.error .leftTlsPacketLength)
  else if c.leftTlsPacketLength = 0 then
    if c.inU.length < 5 then .done (.ok (c, 5 - c.inU.length))
    else if c.inU.take 3 ≠ [0x17, 0x03, 0x03] then .done (.ok (failConnection c (-1), 0))
    else
      .again (decryptTlsPayload { c with inU := c.inU.drop 5 } T
        (beValue ((c.inU.drop 3).take 2)))
  else .again (decryptTlsPayload c T c.leftTlsPacketLength.toNat)

/-- One turn of the loop. -/
def decryptTurn (c : Conn W) : Turn (Conn W) (DecryptExit W) :=
  match c.crypto with
  | none => .done (.error .crypto)
  | some T =>
    if c.inU.length = 0 then .done (.ok (c, 0))
    else if c.wsState = .active then decryptWsTurn c T
    else if c.transportMode = .httpStream then decryptChunkTurn c T
    else if c.cIsTls then decryptTlsTurn c T
    else .again (decryptTo c T c.inU.length)

/-- What each turn that goes on makes smaller. -/
def decryptSize (c : Conn W) : ℕ :=
  2 * c.inU.length +
    if c.httpChunkHeaderState = .inPayload ∧ c.httpChunkRemaining = 0 then 1 else 0

/-- **What decryption leaves alone:** everything but the two input buffers, the cipher, the
places in the framing and, where it fails, the error state.  The connection holds on to no
more bytes than before. -/
structure DecryptFrame (c c' : Conn W) : Prop where
  held_le : held c' ≤ held c
  crypto : c.crypto.isSome → c'.crypto.isSome
  rest : c' =
    { c with
      inp := c'.inp
      inU := c'.inU
      crypto := c'.crypto
      wsFrameRemaining := c'.wsFrameRemaining
      wsMask := c'.wsMask
      wsMaskOffset := c'.wsMaskOffset
      httpChunkRemaining := c'.httpChunkRemaining
      httpChunkHeaderState := c'.httpChunkHeaderState
      leftTlsPacketLength := c'.leftTlsPacketLength
      cError := c'.cError
      status := c'.status
      error := c'.error }

namespace DecryptFrame

variable {a b c : Conn W}

theorem refl (c : Conn W) : DecryptFrame c c := ⟨le_refl _, id, rfl⟩

theorem trans (h : DecryptFrame a b) (h' : DecryptFrame b c) : DecryptFrame a c where
  held_le := h'.held_le.trans h.held_le
  crypto := h'.crypto ∘ h.crypto
  rest := h'.rest.trans (by rw [h.rest])

theorem skipBytes (h : DecryptFrame a b) : b.skipBytes = a.skipBytes := by rw [h.rest]

theorem wsState (h : DecryptFrame a b) : b.wsState = a.wsState := by rw [h.rest]

theorem transportMode (h : DecryptFrame a b) : b.transportMode = a.transportMode := by rw [h.rest]

theorem rpc (h : DecryptFrame a b) : b.rpc = a.rpc := by rw [h.rest]

theorem failConnection (c : Conn W) (err : ℤ) : DecryptFrame c (failConnection c err) :=
  ⟨le_refl _, id, rfl⟩

theorem decryptTo (c : Conn W) (T : AesCrypto) (len : ℕ) : DecryptFrame c (decryptTo c T len) where
  held_le := by
    simp only [held, Server.decryptTo, List.length_append, xorAt_length, List.length_take,
      List.length_drop]
    omega
  crypto := fun _ => rfl
  rest := rfl

end DecryptFrame

/-- What a turn is to do: leave the frame alone, and shrink where it goes on. -/
def DecryptTurnOk (c : Conn W) (turn : Turn (Conn W) (DecryptExit W)) : Prop :=
  (∀ c', turn = .again c' → DecryptFrame c c' ∧ decryptSize c' < decryptSize c) ∧
    ∀ c' r, turn = .done (.ok (c', r)) → DecryptFrame c c'

theorem DecryptTurnOk.of_again {c c' : Conn W} (h : DecryptFrame c c')
    (hsize : decryptSize c' < decryptSize c) : DecryptTurnOk c (.again c') :=
  ⟨fun _ heq => Turn.again.inj heq ▸ ⟨h, hsize⟩, fun _ _ heq => nomatch heq⟩

theorem DecryptTurnOk.of_done {c c' : Conn W} {r : ℤ} (h : DecryptFrame c c') :
    DecryptTurnOk c (.done (.ok (c', r))) :=
  ⟨fun _ heq => (nomatch heq),
    fun _ _ heq => (Prod.mk.inj (Except.ok.inj (Turn.done.inj heq))).1 ▸ h⟩

theorem DecryptTurnOk.of_abort {c : Conn W} {a : Abort} : DecryptTurnOk c (.done (.error a)) :=
  ⟨fun _ heq => (nomatch heq), fun _ _ heq => (nomatch heq)⟩

/-- With the places in the chunk framing unchanged, fewer bytes in `in_u` are a smaller
size. -/
theorem decryptSize_lt {c c' : Conn W} (hlen : c'.inU.length < c.inU.length)
    (hr : c'.httpChunkRemaining = c.httpChunkRemaining)
    (hs : c'.httpChunkHeaderState = c.httpChunkHeaderState) : decryptSize c' < decryptSize c := by
  unfold decryptSize
  rw [hr, hs]
  omega

theorem decryptWsPayload_frame (c : Conn W) (T : AesCrypto) :
    DecryptFrame c (decryptWsPayload c T) where
  held_le := by
    simp only [held, decryptWsPayload, List.length_append, xorAt_length, wsUnmaskData,
      List.length_take, List.length_drop]
    omega
  crypto := fun _ => rfl
  rest := rfl

theorem decryptWsPayload_length (c : Conn W) (T : AesCrypto) :
    (decryptWsPayload c T).inU.length = c.inU.length - min c.wsFrameRemaining c.inU.length :=
  List.length_drop

theorem decryptWsTurn_ok (c : Conn W) (T : AesCrypto) (hin : c.inU.length ≠ 0) :
    DecryptTurnOk c (decryptWsTurn c T) := by
  unfold decryptWsTurn
  by_cases h0 : c.wsFrameRemaining = 0
  · rw [if_pos h0]
    cases hparse : wsParseFrameHeader ⟨c.inU, 0, c.wsMask, c.wsMaskOffset⟩ with
    | error a => exact .of_abort
    | ok p =>
      obtain ⟨w, payloadLen⟩ := p
      have hle : w.input.length ≤ c.inU.length := wsParseFrameHeader_length hparse
      have hframe : DecryptFrame c { c with
          inU := w.input
          wsFrameRemaining := w.remaining
          wsMask := w.mask
          wsMaskOffset := w.maskOffset } :=
        ⟨Nat.add_le_add_left hle _, id, rfl⟩
      dsimp only
      by_cases hneg : payloadLen < 0
      · rw [if_pos hneg]
        exact .of_done (hframe.trans (.failConnection _ _))
      · rw [if_neg hneg]
        by_cases hzero : payloadLen = 0
        · rw [if_pos hzero]
          exact .of_done hframe
        · rw [if_neg hzero]
          have hlt : w.input.length < c.inU.length :=
            wsParseFrameHeader_consumed (by omega) hparse
          refine .of_again (hframe.trans (decryptWsPayload_frame _ T))
            (decryptSize_lt ?_ rfl rfl)
          rw [decryptWsPayload_length]
          dsimp only
          omega
  · rw [if_neg h0]
    refine .of_again (decryptWsPayload_frame c T) (decryptSize_lt ?_ rfl rfl)
    rw [decryptWsPayload_length]
    omega

theorem decryptChunkPayload_frame (c : Conn W) (T : AesCrypto) :
    DecryptFrame c (decryptChunkPayload c T) where
  held_le := (DecryptFrame.decryptTo c T _).held_le
  crypto := fun _ => rfl
  rest := rfl

theorem decryptChunkPayload_size (c : Conn W) (T : AesCrypto) :
    decryptSize (decryptChunkPayload c T) =
      2 * (c.inU.length - min c.inU.length c.httpChunkRemaining) := by
  have hflag : ¬ ((decryptChunkPayload c T).httpChunkHeaderState = .inPayload ∧
      (decryptChunkPayload c T).httpChunkRemaining = 0) := by
    rintro ⟨hs, hr⟩
    have hr' : c.httpChunkRemaining - min c.inU.length c.httpChunkRemaining = 0 := hr
    simp only [decryptChunkPayload, if_pos hr', reduceCtorEq] at hs
  have hlen : (decryptChunkPayload c T).inU.length =
      c.inU.length - min c.inU.length c.httpChunkRemaining := List.length_drop
  rw [decryptSize, if_neg hflag, hlen, Nat.add_zero]

theorem decryptChunkTurn_ok (c : Conn W) (T : AesCrypto) (hin : c.inU.length ≠ 0) :
    DecryptTurnOk c (decryptChunkTurn c T) := by
  have hput (u : Unwrap) (hle : u.src.length ≤ c.inU.length) : DecryptFrame c
      { c with inU := u.src, httpChunkRemaining := u.remaining, httpChunkHeaderState := u.state } :=
    ⟨Nat.add_le_add_left hle _, id, rfl⟩
  unfold decryptChunkTurn
  dsimp only
  cases hadv : Unwrap.advance httpStreamChunkHeaderParse
      ⟨c.inU, [], 0, c.httpChunkRemaining, c.httpChunkHeaderState⟩ with
  | error exit =>
    obtain ⟨u, failure⟩ := exit
    have hle : u.src.length ≤ c.inU.length := (Unwrap.advance_exit hadv).1
    cases failure with
    | none => exact .of_done (hput u hle)
    | some err => exact .of_done ((hput u hle).trans (.failConnection _ _))
  | ok u =>
    have hsrc := Unwrap.advance_src hadv
    have hle : u.src.length ≤ c.inU.length := by
      rcases hsrc with ⟨rfl, -⟩ | ⟨hlt, -⟩
      · exact le_refl _
      · exact Nat.le_of_lt hlt
    refine .of_again ((hput u hle).trans (decryptChunkPayload_frame _ T)) ?_
    rw [decryptChunkPayload_size]
    dsimp only
    unfold decryptSize
    -- A chunk with data gives at least one byte; one without moves on to its line end.
    rcases hsrc with ⟨rfl, hr | hs⟩ | ⟨hlt, h0⟩
    · dsimp only at hr ⊢
      omega
    · dsimp only at hs ⊢
      by_cases hr : c.httpChunkRemaining = 0
      · rw [if_pos ⟨hs, hr⟩]
        omega
      · omega
    · dsimp only at hlt
      omega

theorem decryptTlsPayload_frame (c : Conn W) (T : AesCrypto) (left : ℕ) :
    DecryptFrame c (decryptTlsPayload c T left) where
  held_le := (DecryptFrame.decryptTo c T _).held_le
  crypto := fun _ => rfl
  rest := rfl

theorem decryptTlsPayload_length (c : Conn W) (T : AesCrypto) (left : ℕ) :
    (decryptTlsPayload c T left).inU.length = c.inU.length - min left c.inU.length :=
  List.length_drop

theorem decryptTlsTurn_ok (c : Conn W) (T : AesCrypto) (hin : c.inU.length ≠ 0) :
    DecryptTurnOk c (decryptTlsTurn c T) := by
  unfold decryptTlsTurn
  by_cases hneg : c.leftTlsPacketLength < 0
  · rw [if_pos hneg]
    exact .of_abort
  · rw [if_neg hneg]
    by_cases h0 : c.leftTlsPacketLength = 0
    · rw [if_pos h0]
      by_cases hshort : c.inU.length < 5
      · rw [if_pos hshort]
        exact .of_done (.refl c)
      · rw [if_neg hshort]
        by_cases hrec : c.inU.take 3 ≠ [0x17, 0x03, 0x03]
        · rw [if_pos hrec]
          exact .of_done (.failConnection c _)
        · rw [if_neg hrec]
          have hdrop : DecryptFrame c { c with inU := c.inU.drop 5 } := by
            refine ⟨Nat.add_le_add_left ?_ _, id, rfl⟩
            rw [List.length_drop]
            exact Nat.sub_le _ _
          refine .of_again (hdrop.trans (decryptTlsPayload_frame _ T _)) (decryptSize_lt ?_ rfl rfl)
          rw [decryptTlsPayload_length]
          dsimp only
          rw [List.length_drop]
          omega
    · rw [if_neg h0]
      refine .of_again (decryptTlsPayload_frame c T _) (decryptSize_lt ?_ rfl rfl)
      rw [decryptTlsPayload_length]
      omega

/-- **One turn** leaves the frame alone, and shrinks what is to be decrypted. -/
theorem decryptTurn_ok (c : Conn W) : DecryptTurnOk c (decryptTurn c) := by
  unfold decryptTurn
  cases c.crypto with
  | none => exact .of_abort
  | some T =>
    dsimp only
    by_cases hin : c.inU.length = 0
    · rw [if_pos hin]
      exact .of_done (.refl c)
    · rw [if_neg hin]
      by_cases hws : c.wsState = .active
      · rw [if_pos hws]
        exact decryptWsTurn_ok c T hin
      · rw [if_neg hws]
        by_cases hhttp : c.transportMode = .httpStream
        · rw [if_pos hhttp]
          exact decryptChunkTurn_ok c T hin
        · rw [if_neg hhttp]
          by_cases htls : c.cIsTls = true
          · rw [if_pos htls]
            exact decryptTlsTurn_ok c T hin
          · rw [if_neg htls]
            refine .of_again (.decryptTo c T _) (decryptSize_lt ?_ rfl rfl)
            simp only [decryptTo, List.length_drop]
            omega

theorem decryptTurn_shrinks : Shrinks (decryptTurn (W := W)) decryptSize :=
  fun c c' h => ((decryptTurn_ok c).1 c' h).2

/-- `cpu_tcp_aes_crypto_ctr128_decrypt_input`. -/
def cpuTcpAesCryptoCtr128DecryptInput (c : Conn W) : DecryptExit W :=
  loop decryptTurn decryptSize decryptTurn_shrinks c

/-- **Decryption leaves its frame alone**, however many turns it takes. -/
theorem cpuTcpAesCryptoCtr128DecryptInput_frame {c c' : Conn W} {r : ℤ}
    (h : cpuTcpAesCryptoCtr128DecryptInput c = .ok (c', r)) : DecryptFrame c c' := by
  have hloop := loop_inv (I := fun d => DecryptFrame c d)
    (Q := fun exit => ∀ c' r, exit = .ok (c', r) → DecryptFrame c c') decryptTurn_shrinks
    (fun d d' hd hturn => hd.trans ((decryptTurn_ok d).1 d' hturn).1)
    (fun d exit hd hturn c' r hexit =>
      hd.trans ((decryptTurn_ok d).2 c' r (hturn.trans (congrArg Turn.done hexit))))
    (DecryptFrame.refl c)
  exact hloop c' r h

end Server
end Teleproto3
