/-
# WebSocket frames on the client's side

The writer of masked frames and the reader of unmasked ones in
`lib/src/t3_client_ws.c`.

`WsFrame` is a binary frame as a server may send one, empty payload included.
On such a frame with anything behind it the reader hands out the payload
(`t3cWsFrameRead_encode`); on a part of it, it asks for more
(`t3cWsFrameRead_incomplete`).
-/

import Mathlib.Data.List.GetD
import Teleproto3.Lib.Bytes

namespace Teleproto3
namespace Client

open Lib

/-! ### The writer -/

/-- The bytes `t3c_ws_frame_write` puts in front of the masking key.  The 64-bit form
carries the low 32 bits of the length only. -/
def wsWriteHeader (n : ℕ) : Bytes :=
  if n < 126 then [0x82, 0x80 ||| UInt8.ofNat n]
  else if n ≤ 65535 then [0x82, 0x80 ||| 126] ++ beBytes 2 n
  else [0x82, 0x80 ||| 127, 0, 0, 0, 0] ++ beBytes 4 n

/-- The payload combined with the masking key. -/
def wsMaskPayload (mask : Fin 4 → UInt8) (payload : Bytes) : Bytes :=
  payload.mapIdx fun i b => b ^^^ mask (Fin.ofNat 4 i)

/-- `t3c_ws_frame_write`, with the capacity of `out` and the masking key drawn. -/
def t3cWsFrameWrite (outCap : ℕ) (mask : Fin 4 → UInt8) (payload : Bytes) : Option Bytes :=
  let header := wsWriteHeader payload.length
  let total := header.length + 4 + payload.length
  if outCap < total then none
  else some (header ++ [mask 0, mask 1, mask 2, mask 3] ++ wsMaskPayload mask payload)

theorem wsWriteHeader_length (n : ℕ) :
    (wsWriteHeader n).length = if n < 126 then 2 else if n ≤ 65535 then 4 else 10 := by
  unfold wsWriteHeader
  split_ifs <;> simp

/-- A written frame is as long as the header, the key and the payload. -/
theorem t3cWsFrameWrite_length {outCap : ℕ} {mask : Fin 4 → UInt8} {payload frame : Bytes}
    (h : t3cWsFrameWrite outCap mask payload = some frame) :
    frame.length = (wsWriteHeader payload.length).length + 4 + payload.length := by
  unfold t3cWsFrameWrite at h
  simp only at h
  split_ifs at h
  cases h
  simp [wsMaskPayload]
  omega

/-! ### The reader -/

/-- What `t3c_ws_frame_read` reports: `1`, `-1`, or `0` with the payload. -/
inductive WsRead
  | needMore
  | error
  | frame (payload : Bytes) (payloadLen consumed : ℕ)
  deriving DecidableEq, Repr

/-- The end of `t3c_ws_frame_read`.  The total is a `size_t`. -/
def wsReadPayload (buf : Bytes) (masked : Bool) (len headerSize : ℕ) : WsRead :=
  let headerSize := if masked then headerSize + 4 else headerSize
  let total := (headerSize + len) % 2 ^ 64
  if buf.length < total then .needMore
  else if masked then .error
  else .frame ((buf.drop headerSize).take len) len total

/-- `t3c_ws_frame_read`. -/
def t3cWsFrameRead (buf : Bytes) : WsRead :=
  if buf.length < 2 then .needMore
  else
    let masked : Bool := (buf.getD 1 0).toNat / 128 = 1
    let len := (buf.getD 1 0).toNat % 128
    if len = 126 then
      if buf.length < 4 then .needMore
      else wsReadPayload buf masked (beValue ((buf.drop 2).take 2)) 4
    else if len = 127 then
      if buf.length < 10 then .needMore
      else wsReadPayload buf masked (beValue ((buf.drop 2).take 8)) 10
    else wsReadPayload buf masked len 2

/-- A frame handed out takes bytes, unless its length is one that no buffer holds. -/
theorem t3cWsFrameRead_consumed_pos {buf payload : Bytes} {payloadLen consumed : ℕ}
    (h : t3cWsFrameRead buf = .frame payload payloadLen consumed) (hlen : payloadLen < 2 ^ 63) :
    0 < consumed := by
  have hend : ∀ masked len headerSize, 2 ≤ headerSize → headerSize ≤ 10 →
      wsReadPayload buf masked len headerSize = .frame payload payloadLen consumed →
        0 < consumed := by
    intro masked len headerSize h2 h10 hread
    simp only [wsReadPayload] at hread
    split_ifs at hread
    cases hread
    rw [Nat.mod_eq_of_lt (by omega)]
    omega
  simp only [t3cWsFrameRead] at h
  split_ifs at h
  · exact hend _ _ 4 (by omega) (by omega) h
  · exact hend _ _ 10 (by omega) (by omega) h
  · exact hend _ _ 2 (by omega) (by omega) h

/-! ### Valid frames -/

/-- A binary frame as a server may send it: first byte with opcode 2 or, in a
continuation, 0, and no reserved bit; the length in its shortest form. -/
structure WsFrame where
  first : UInt8
  payload : Bytes
  opcode : first &&& 0x0F = 0x02 ∨ first &&& 0x0F = 0x00
  reserved : first &&& 0x70 = 0
  payload_lt : payload.length < 2 ^ 63

namespace WsFrame

/-- The first byte of a binary frame without a continuation. -/
theorem binary_opcode : (0x82 : UInt8) &&& 0x0F = 0x02 ∨ (0x82 : UInt8) &&& 0x0F = 0x00 := by
  decide

theorem binary_reserved : (0x82 : UInt8) &&& 0x70 = 0 := by decide

/-- The length of a payload as the header carries it, without a mask. -/
def lenBytes (n : ℕ) : Bytes :=
  if n < 126 then [UInt8.ofNat n]
  else if n ≤ 65535 then 126 :: beBytes 2 n
  else 127 :: beBytes 8 n

/-- First byte and length. -/
def header (f : WsFrame) : Bytes := f.first :: lenBytes f.payload.length

/-- The bytes of a frame on the wire. -/
def encode (f : WsFrame) : Bytes := f.header ++ f.payload

end WsFrame

/-- The end of the reader on a header it has read and whatever follows it. -/
theorem wsReadPayload_append (h q : Bytes) (len : ℕ) (hlen : h.length + len < 2 ^ 64) :
    wsReadPayload (h ++ q) false len h.length =
      if q.length < len then .needMore else .frame (q.take len) len (h.length + len) := by
  simp only [wsReadPayload, Bool.false_eq_true, if_false, Nat.mod_eq_of_lt hlen,
    List.length_append, List.drop_left, Nat.add_lt_add_iff_left]

namespace WsFrame

theorem lenBytes_length (n : ℕ) :
    (lenBytes n).length = if n < 126 then 1 else if n ≤ 65535 then 3 else 9 := by
  unfold lenBytes
  split_ifs <;> simp

variable (f : WsFrame)

theorem header_length : 2 ≤ f.header.length ∧ f.header.length ≤ 10 := by
  rw [header, List.length_cons, lenBytes_length]
  split_ifs <;> omega

theorem encode_length : f.encode.length = f.header.length + f.payload.length :=
  List.length_append

/-- Each form of the length is read back. -/
theorem read_header (q : Bytes) :
    t3cWsFrameRead (f.header ++ q) = wsReadPayload (f.header ++ q) false f.payload.length
      f.header.length := by
  have hlt := f.payload_lt
  have h2 := f.header_length.1
  have hbuf : ¬ (f.header ++ q).length < 2 := by
    rw [List.length_append]
    omega
  rw [t3cWsFrameRead, if_neg hbuf]
  rcases Nat.lt_or_ge f.payload.length 126 with hshort | hlong
  · have hh : f.header = [f.first, UInt8.ofNat f.payload.length] := by
      rw [header, lenBytes, if_pos hshort]
    have hb : ((f.header ++ q).getD 1 0).toNat = f.payload.length := by
      rw [hh]
      simp only [List.cons_append, List.nil_append, List.getD_cons_succ, List.getD_cons_zero,
        UInt8.toNat_ofNat']
      omega
    have hdiv : decide (f.payload.length / 128 = 1) = false := decide_eq_false (by omega)
    simp only [hb, hdiv, Nat.mod_eq_of_lt (show f.payload.length < 128 by omega)]
    rw [if_neg (by omega), if_neg (by omega), hh]
    rfl
  · rcases Nat.lt_or_ge 65535 f.payload.length with hbig | hmid
    · have hh : f.header = [f.first, 127] ++ beBytes 8 f.payload.length := by
        rw [header, lenBytes, if_neg (by omega), if_neg (by omega)]
        rfl
      have hb : ((f.header ++ q).getD 1 0).toNat = 127 := by
        rw [hh]
        rfl
      have hvalue : ((f.header ++ q).drop 2).take 8 = beBytes 8 f.payload.length := by
        rw [hh, List.append_assoc]
        exact List.take_left' (beBytes_length 8 _)
      have hhl : f.header.length = 10 := by rw [hh, List.length_append, beBytes_length]; rfl
      have hbl : ¬ (f.header ++ q).length < 10 := by rw [List.length_append]; omega
      simp only [hb]
      rw [if_neg (by decide), if_pos (by decide), if_neg hbl, hvalue,
        beValue_beBytes 8 _ (by omega), hhl]
      rfl
    · have hh : f.header = [f.first, 126] ++ beBytes 2 f.payload.length := by
        rw [header, lenBytes, if_neg (by omega), if_pos hmid]
        rfl
      have hb : ((f.header ++ q).getD 1 0).toNat = 126 := by
        rw [hh]
        rfl
      have hvalue : ((f.header ++ q).drop 2).take 2 = beBytes 2 f.payload.length := by
        rw [hh, List.append_assoc]
        exact List.take_left' (beBytes_length 2 _)
      have hhl : f.header.length = 4 := by rw [hh, List.length_append, beBytes_length]; rfl
      have hbl : ¬ (f.header ++ q).length < 4 := by rw [List.length_append]; omega
      simp only [hb]
      rw [if_pos (by decide), if_neg hbl, hvalue, beValue_beBytes 2 _ (by omega), hhl]
      rfl

end WsFrame

/-- **A valid frame is handed out**, whatever has arrived behind it. -/
theorem t3cWsFrameRead_encode (f : WsFrame) (rest : Bytes) :
    t3cWsFrameRead (f.encode ++ rest) =
      .frame f.payload f.payload.length f.encode.length := by
  have hlt := f.payload_lt
  have h10 := f.header_length.2
  rw [WsFrame.encode, List.append_assoc, f.read_header, wsReadPayload_append _ _ _ (by omega),
    if_neg (by rw [List.length_append]; omega), List.take_left, List.length_append]

/-- **A part of a valid frame asks for more.** -/
theorem t3cWsFrameRead_incomplete (f : WsFrame) (p : Bytes) (hp : p <+: f.encode)
    (hlt : p.length < f.encode.length) : t3cWsFrameRead p = .needMore := by
  have hpay := f.payload_lt
  have h10 := f.header_length.2
  rcases prefix_append_cases hp with ⟨hhead, hshort⟩ | ⟨q, rfl, hq⟩
  · -- The header is not complete: the second byte says how long it is.
    rw [t3cWsFrameRead]
    by_cases h2 : p.length < 2
    · rw [if_pos h2]
    rw [if_neg h2]
    have hb := getD_of_prefix hhead (i := 1) (by omega) 0
    have hlen : f.header.length = (WsFrame.lenBytes f.payload.length).length + 1 := rfl
    rw [WsFrame.lenBytes_length] at hlen
    rcases Nat.lt_or_ge f.payload.length 126 with hs | hl
    · rw [if_pos hs] at hlen
      omega
    · rw [if_neg (by omega)] at hlen
      rcases Nat.lt_or_ge 65535 f.payload.length with hbig | hmid
      · rw [if_neg (by omega)] at hlen
        have hb1 : f.header.getD 1 0 = 127 := by
          rw [WsFrame.header, WsFrame.lenBytes, if_neg (by omega), if_neg (by omega)]
          rfl
        rw [hb, hb1, if_neg (by decide), if_pos (by decide), if_pos (by omega)]
      · rw [if_pos hmid] at hlen
        have hb1 : f.header.getD 1 0 = 126 := by
          rw [WsFrame.header, WsFrame.lenBytes, if_neg (by omega), if_pos hmid]
          rfl
        rw [hb, hb1, if_pos (by decide), if_pos (by omega)]
  · have hql : q.length < f.payload.length := by
      rw [f.encode_length, List.length_append] at hlt
      omega
    rw [f.read_header, wsReadPayload_append _ _ _ (by omega), if_pos hql]

end Client
end Teleproto3
