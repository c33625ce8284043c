/-
# WebSocket frames on the server

`ws_parse_frame_header` and `ws_unmask_data` of `server/src/net/net-websocket.c`, and the
loop of `tcp_rpcs_compact_parse_execute` that takes the payload out of the frames before
there is a cipher.

The header of a control frame is skipped together with its payload in one call of
`rwm_skip_data`, whose length is an `int` sum that can wrap around.
-/

import Teleproto3.Lib.Bytes
import Teleproto3.Lib.Loop
import Teleproto3.Lib.Word32
import Teleproto3.Server.Conn

namespace Teleproto3
namespace Server

open Lib

/-- The buffer a frame is read from and the fields `ws_frame_remaining`, `ws_mask` and
`ws_mask_offset`. -/
structure WsIn where
  input : Bytes
  remaining : ℕ
  mask : Bytes
  maskOffset : ℕ
  deriving DecidableEq, Repr

/-- The payload length of a frame and the number of header bytes read for it, or what
`ws_parse_frame_header` returns instead: 0 to wait for more, -1 for a frame it refuses. -/
def wsPayloadLength (input : Bytes) : Except ℤ (ℕ × ℕ) :=
  let peekLen := min input.length 14
  let len7 := (input.getD 1 0).toNat % 128
  if len7 = 126 then
    if peekLen < 4 then .error 0 else .ok (beValue ((input.drop 2).take 2), 4)
  else if len7 = 127 then
    if peekLen < 10 then .error 0
    else if (input.drop 2).take 4 ≠ [0, 0, 0, 0] then .error (-1)
    else
      let payloadLen := beValue ((input.drop 6).take 4)
      if payloadLen ≥ 2 ^ 31 then .error (-1) else .ok (payloadLen, 10)
  else .ok (len7, 2)

/-- The part of `ws_parse_frame_header` after the masking key has been read. -/
def wsFrameOpcode (w : WsIn) (opcode headerLen payloadLen : ℕ) : Except Abort (WsIn × ℤ) :=
  if opcode = 0x8 then .ok (w, -1)
  else if opcode = 0x9 ∨ opcode = 0xA then
    let whole := wrap32 ((headerLen : ℤ) + payloadLen)
    if w.input.length < whole then .ok (w, 0)
    else if whole < 0 then .error (.rwmProcessEx whole)
    else .ok ({ w with input := w.input.drop whole.toNat }, 0)
  else if w.input.length < headerLen then .ok (w, 0)
  else .ok ({ w with input := w.input.drop headerLen, remaining := payloadLen }, payloadLen)

/-- `ws_parse_frame_header`, with what it returns. -/
def wsParseFrameHeader (w : WsIn) : Except Abort (WsIn × ℤ) :=
  if w.input.length < 2 then .ok (w, 0)
  else
    let opcode := (w.input.getD 0 0).toNat % 16
    match wsPayloadLength w.input with
    | .error ret => .ok (w, ret)
    | .ok (payloadLen, pos) =>
      if (w.input.getD 1 0).toNat / 128 = 1 then
        if min w.input.length 14 < pos + 4 then .ok (w, 0)
        else
          wsFrameOpcode { w with mask := (w.input.drop pos).take 4, maskOffset := 0 } opcode
            (pos + 4) payloadLen
      else wsFrameOpcode w opcode pos payloadLen

/-- `ws_unmask_data`: the bytes combined with the masking key from the offset on. -/
def wsUnmaskData (mask : Bytes) (offset : ℕ) (data : Bytes) : Bytes :=
  xorAt (fun i => mask.getD (i % 4) 0) offset data

/-- The state of the loop over frames, with the payload taken out so far. -/
structure WsUnwrap where
  frames : WsIn
  unmasked : Bytes
  deriving DecidableEq, Repr

/-- How the loop ends: in an assertion, or with whether the connection goes on. -/
abbrev WsUnwrap.Exit := Except Abort (WsUnwrap × Bool)

/-- The payload at hand is unmasked. -/
def WsUnwrap.take (u : WsUnwrap) (toRead : ℕ) : WsUnwrap where
  frames := { u.frames with
    input := u.frames.input.drop toRead
    remaining := u.frames.remaining - toRead
    maskOffset := (u.frames.maskOffset + toRead) % 4 }
  unmasked := u.unmasked ++
    wsUnmaskData u.frames.mask u.frames.maskOffset (u.frames.input.take toRead)

/-- The payload part of a turn. -/
def wsTakeTurn (u : WsUnwrap) : Turn WsUnwrap WsUnwrap.Exit :=
  let toRead := min u.frames.input.length u.frames.remaining
  if toRead = 0 then .done (.ok (u, true)) else .again (u.take toRead)

/-- One turn of the loop. -/
def wsUnwrapTurn (u : WsUnwrap) : Turn WsUnwrap WsUnwrap.Exit :=
  if u.frames.input.length = 0 then .done (.ok (u, true))
  else if u.frames.remaining = 0 then
    match wsParseFrameHeader u.frames with
    | .error a => .done (.error a)
    | .ok (w, payloadLen) =>
      if payloadLen < 0 then .done (.ok ({ u with frames := w }, false))
      else if payloadLen = 0 then .done (.ok ({ u with frames := w }, true))
      else wsTakeTurn { u with frames := w }
  else wsTakeTurn u

/-- What is returned in place of a payload length is never a length. -/
theorem wsPayloadLength_error {input : Bytes} {r : ℤ} (h : wsPayloadLength input = .error r) :
    r ≤ 0 := by
  unfold wsPayloadLength at h
  dsimp only at h
  by_cases h126 : (input.getD 1 0).toNat % 128 = 126
  · rw [if_pos h126] at h
    split_ifs at h
    have := Except.error.inj h
    omega
  · rw [if_neg h126] at h
    split_ifs at h <;> (have hret := Except.error.inj h; omega)

/-- At least two bytes are read for a payload length. -/
theorem wsPayloadLength_pos {input : Bytes} {payloadLen pos : ℕ}
    (h : wsPayloadLength input = .ok (payloadLen, pos)) : 2 ≤ pos := by
  unfold wsPayloadLength at h
  dsimp only at h
  by_cases h126 : (input.getD 1 0).toNat % 128 = 126
  · rw [if_pos h126] at h
    split_ifs at h
    have := (Prod.mk.inj (Except.ok.inj h)).2
    omega
  · rw [if_neg h126] at h
    split_ifs at h <;> (have hpos := (Prod.mk.inj (Except.ok.inj h)).2; omega)

theorem wsFrameOpcode_length {w w' : WsIn} {opcode headerLen payloadLen : ℕ} {ret : ℤ}
    (h : wsFrameOpcode w opcode headerLen payloadLen = .ok (w', ret)) :
    w'.input.length ≤ w.input.length := by
  have hsame {r : ℤ} (h : (.ok (w, r) : Except Abort (WsIn × ℤ)) = .ok (w', ret)) :
      w'.input.length ≤ w.input.length := by
    rw [(Prod.mk.inj (Except.ok.inj h)).1]
  have hdrop {n : ℕ} {v : WsIn} {r : ℤ} (hv : v.input = w.input.drop n)
      (h : (.ok (v, r) : Except Abort (WsIn × ℤ)) = .ok (w', ret)) :
      w'.input.length ≤ w.input.length := by
    rw [← (Prod.mk.inj (Except.ok.inj h)).1, hv, List.length_drop]
    exact Nat.sub_le _ _
  unfold wsFrameOpcode at h
  by_cases hclose : opcode = 0x8
  · rw [if_pos hclose] at h
    exact hsame h
  · rw [if_neg hclose] at h
    by_cases hcontrol : opcode = 0x9 ∨ opcode = 0xA
    · rw [if_pos hcontrol] at h
      dsimp only at h
      generalize wrap32 ((headerLen : ℤ) + payloadLen) = whole at h
      by_cases hshort : (w.input.length : ℤ) < whole
      · rw [if_pos hshort] at h
        exact hsame h
      · rw [if_neg hshort] at h
        by_cases hneg : whole < 0
        · rw [if_pos hneg] at h
          exact nomatch h
        · rw [if_neg hneg] at h
          exact hdrop rfl h
    · rw [if_neg hcontrol] at h
      by_cases hshort : w.input.length < headerLen
      · rw [if_pos hshort] at h
        exact hsame h
      · rw [if_neg hshort] at h
        exact hdrop rfl h

/-- No frame header lengthens the buffer. -/
theorem wsParseFrameHeader_length {w w' : WsIn} {ret : ℤ}
    (h : wsParseFrameHeader w = .ok (w', ret)) : w'.input.length ≤ w.input.length := by
  have hsame {r : ℤ} (h : (.ok (w, r) : Except Abort (WsIn × ℤ)) = .ok (w', ret)) :
      w'.input.length ≤ w.input.length := by
    rw [(Prod.mk.inj (Except.ok.inj h)).1]
  unfold wsParseFrameHeader at h
  by_cases hshort : w.input.length < 2
  · rw [if_pos hshort] at h
    exact hsame h
  · rw [if_neg hshort] at h
    dsimp only at h
    cases hlen : wsPayloadLength w.input with
    | error r =>
      rw [hlen] at h
      exact hsame h
    | ok p =>
      obtain ⟨payloadLen, pos⟩ := p
      rw [hlen] at h
      dsimp only at h
      by_cases hmasked : (w.input.getD 1 0).toNat / 128 = 1
      · rw [if_pos hmasked] at h
        by_cases hkey : min w.input.length 14 < pos + 4
        · rw [if_pos hkey] at h
          exact hsame h
        · rw [if_neg hkey] at h
          have hle := wsFrameOpcode_length h
          exact hle
      · rw [if_neg hmasked] at h
        exact wsFrameOpcode_length h

/-- A header that opens a payload has been consumed. -/
theorem wsParseFrameHeader_consumed {w w' : WsIn} {ret : ℤ} (hret : 0 < ret)
    (h : wsParseFrameHeader w = .ok (w', ret)) : w'.input.length < w.input.length := by
  have hop (v : WsIn) (opcode headerLen payloadLen : ℕ) (hpos : 0 < headerLen)
      (hin : 0 < v.input.length)
      (hv : wsFrameOpcode v opcode headerLen payloadLen = .ok (w', ret)) :
      w'.input.length < v.input.length := by
    have hzero {u : WsIn} {r : ℤ} (hr : r ≤ 0)
        (hu : (.ok (u, r) : Except Abort (WsIn × ℤ)) = .ok (w', ret)) : False := by
      have := (Prod.mk.inj (Except.ok.inj hu)).2
      omega
    unfold wsFrameOpcode at hv
    by_cases hclose : opcode = 0x8
    · rw [if_pos hclose] at hv
      exact (hzero (by decide) hv).elim
    · rw [if_neg hclose] at hv
      by_cases hcontrol : opcode = 0x9 ∨ opcode = 0xA
      · rw [if_pos hcontrol] at hv
        dsimp only at hv
        generalize wrap32 ((headerLen : ℤ) + payloadLen) = whole at hv
        by_cases hshort : (v.input.length : ℤ) < whole
        · rw [if_pos hshort] at hv
          exact (hzero (le_refl 0) hv).elim
        · rw [if_neg hshort] at hv
          by_cases hneg : whole < 0
          · rw [if_pos hneg] at hv
            exact nomatch hv
          · rw [if_neg hneg] at hv
            exact (hzero (le_refl 0) hv).elim
      · rw [if_neg hcontrol] at hv
        by_cases hshort : v.input.length < headerLen
        · rw [if_pos hshort] at hv
          exact (hzero (le_refl 0) hv).elim
        · rw [if_neg hshort] at hv
          have hlen : w'.input.length = v.input.length - headerLen := by
            rw [← (Prod.mk.inj (Except.ok.inj hv)).1]
            exact List.length_drop
          omega
  unfold wsParseFrameHeader at h
  by_cases hshort : w.input.length < 2
  · rw [if_pos hshort] at h
    have := (Prod.mk.inj (Except.ok.inj h)).2
    omega
  · rw [if_neg hshort] at h
    dsimp only at h
    cases hlen : wsPayloadLength w.input with
    | error r =>
      rw [hlen] at h
      have hr := (Prod.mk.inj (Except.ok.inj h)).2
      have := wsPayloadLength_error hlen
      omega
    | ok p =>
      obtain ⟨payloadLen, pos⟩ := p
      rw [hlen] at h
      dsimp only at h
      have hpos := wsPayloadLength_pos hlen
      by_cases hmasked : (w.input.getD 1 0).toNat / 128 = 1
      · rw [if_pos hmasked] at h
        by_cases hkey : min w.input.length 14 < pos + 4
        · rw [if_pos hkey] at h
          have := (Prod.mk.inj (Except.ok.inj h)).2
          omega
        · rw [if_neg hkey] at h
          have hlt := hop _ _ _ _ (by omega) (by dsimp only; omega) h
          exact hlt
      · rw [if_neg hmasked] at h
        exact hop _ _ _ _ (by omega) (by omega) h

theorem wsTakeTurn_shrinks {u u' : WsUnwrap} (h : wsTakeTurn u = .again u') :
    u'.frames.input.length < u.frames.input.length := by
  have hle := Nat.min_le_left u.frames.input.length u.frames.remaining
  unfold wsTakeTurn at h
  dsimp only at h
  generalize min u.frames.input.length u.frames.remaining = toRead at h hle
  by_cases h0 : toRead = 0
  · rw [if_pos h0] at h
    exact nomatch h
  · rw [if_neg h0] at h
    have hlen : u'.frames.input.length = u.frames.input.length - toRead := by
      rw [← Turn.again.inj h]
      exact List.length_drop
    omega

theorem wsUnwrapTurn_shrinks : Shrinks wsUnwrapTurn fun u => u.frames.input.length := by
  intro u u' h
  unfold wsUnwrapTurn at h
  by_cases h0 : u.frames.input.length = 0
  · rw [if_pos h0] at h
    exact nomatch h
  · rw [if_neg h0] at h
    by_cases h1 : u.frames.remaining = 0
    · rw [if_pos h1] at h
      cases hparse : wsParseFrameHeader u.frames with
      | error a =>
        rw [hparse] at h
        exact nomatch h
      | ok p =>
        obtain ⟨w, payloadLen⟩ := p
        rw [hparse] at h
        dsimp only at h
        split_ifs at h
        exact lt_of_lt_of_le (wsTakeTurn_shrinks h) (wsParseFrameHeader_length hparse)
    · rw [if_neg h1] at h
      exact wsTakeTurn_shrinks h

/-- The loop over frames. -/
def wsUnwrapLoop (u : WsUnwrap) : WsUnwrap.Exit :=
  loop wsUnwrapTurn (fun u => u.frames.input.length) wsUnwrapTurn_shrinks u

/-- The bytes of either kind. -/
def WsUnwrap.size (u : WsUnwrap) : ℕ := u.frames.input.length + u.unmasked.length

/-- Taking payload adds no byte. -/
theorem wsTakeTurn_size (u : WsUnwrap) :
    (∀ v, wsTakeTurn u = .again v → v.size ≤ u.size) ∧
      ∀ v alive, wsTakeTurn u = .done (.ok (v, alive)) → v.size ≤ u.size := by
  have hle := Nat.min_le_left u.frames.input.length u.frames.remaining
  unfold wsTakeTurn
  dsimp only
  generalize min u.frames.input.length u.frames.remaining = toRead at hle
  by_cases h0 : toRead = 0
  · rw [if_pos h0]
    refine ⟨fun v h => (nomatch h), fun v alive h => ?_⟩
    rw [(Prod.mk.inj (Except.ok.inj (Turn.done.inj h))).1]
  · rw [if_neg h0]
    refine ⟨fun v h => ?_, fun v alive h => (nomatch h)⟩
    rw [← Turn.again.inj h]
    simp only [WsUnwrap.size, WsUnwrap.take, List.length_drop, List.length_append, wsUnmaskData,
      xorAt_length, List.length_take]
    omega

/-- A turn adds no byte. -/
theorem wsUnwrapTurn_size (u : WsUnwrap) :
    (∀ v, wsUnwrapTurn u = .again v → v.size ≤ u.size) ∧
      ∀ v alive, wsUnwrapTurn u = .done (.ok (v, alive)) → v.size ≤ u.size := by
  have hdone {u' : WsUnwrap} {b : Bool} (hle : u'.size ≤ u.size) (v : WsUnwrap) (alive : Bool)
      (h : (.done (.ok (u', b)) : Turn WsUnwrap WsUnwrap.Exit) = .done (.ok (v, alive))) :
      v.size ≤ u.size :=
    (Prod.mk.inj (Except.ok.inj (Turn.done.inj h))).1 ▸ hle
  unfold wsUnwrapTurn
  by_cases h0 : u.frames.input.length = 0
  · rw [if_pos h0]
    exact ⟨fun v h => (nomatch h), hdone (le_refl _)⟩
  · rw [if_neg h0]
    by_cases h1 : u.frames.remaining = 0
    · rw [if_pos h1]
      cases hparse : wsParseFrameHeader u.frames with
      | error a => exact ⟨fun v h => (nomatch h), fun v alive h => (nomatch h)⟩
      | ok p =>
        obtain ⟨w, payloadLen⟩ := p
        have hle : WsUnwrap.size { u with frames := w } ≤ u.size :=
          Nat.add_le_add_right (wsParseFrameHeader_length hparse) _
        dsimp only
        by_cases hneg : payloadLen < 0
        · rw [if_pos hneg]
          exact ⟨fun v h => (nomatch h), hdone hle⟩
        · rw [if_neg hneg]
          by_cases hzero : payloadLen = 0
          · rw [if_pos hzero]
            exact ⟨fun v h => (nomatch h), hdone hle⟩
          · rw [if_neg hzero]
            exact ⟨fun v h => ((wsTakeTurn_size _).1 v h).trans hle,
              fun v alive h => ((wsTakeTurn_size _).2 v alive h).trans hle⟩
    · rw [if_neg h1]
      exact wsTakeTurn_size u

/-- **The loop adds no byte.** -/
theorem wsUnwrapLoop_size {u v : WsUnwrap} {alive : Bool} (h : wsUnwrapLoop u = .ok (v, alive)) :
    v.size ≤ u.size := by
  have hloop := loop_inv (I := fun w => w.size ≤ u.size)
    (Q := fun exit => ∀ v alive, exit = .ok (v, alive) → v.size ≤ u.size) wsUnwrapTurn_shrinks
    (fun w w' hw hb => ((wsUnwrapTurn_size w).1 w' hb).trans hw)
    (fun w exit hw hb v alive hexit =>
      ((wsUnwrapTurn_size w).2 v alive (hb.trans (congrArg Turn.done hexit))).trans hw)
    (le_refl _)
  exact hloop v alive h

end Server
end Teleproto3
