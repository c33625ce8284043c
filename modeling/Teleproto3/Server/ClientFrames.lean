/-
# Frames of a WebSocket client

A client sends masked frames: data, ping, pong and close, with the payload length in any of the
three forms a header has for it.  `wsParseFrameHeader_frame` says what `ws_parse_frame_header` does
with any part of such a frame and whatever stands behind it.

A frame that is not `Served` ends the connection, or fails the assertion in `rwm_skip_data`: a
close frame, a payload of 2 GiB or more, and a ping or pong whose header and payload together are
as long as that.
-/

import Teleproto3.Server.WebSocket

namespace Teleproto3
namespace Server

open Lib

/-! ### Masking -/

section Masking

variable (mask : Bytes) (offset : ℕ) (data : Bytes)

@[simp] theorem wsUnmaskData_length : (wsUnmaskData mask offset data).length = data.length :=
  xorAt_length _ _ _

/-- Masking twice leaves what was there. -/
@[simp] theorem wsUnmaskData_masked :
    wsUnmaskData mask offset (wsUnmaskData mask offset data) = data := xorAt_xorAt _ _ _

theorem wsUnmaskData_append (rest : Bytes) :
    wsUnmaskData mask offset (data ++ rest) =
      wsUnmaskData mask offset data ++ wsUnmaskData mask (offset + data.length) rest :=
  xorAt_append _ _ _ _

/-- The key comes round every four bytes. -/
@[simp] theorem wsUnmaskData_mod :
    wsUnmaskData mask (offset % 4) data = wsUnmaskData mask offset data := by
  refine List.ext_getElem? fun i => ?_
  rw [wsUnmaskData, wsUnmaskData, xorAt_getElem?, xorAt_getElem?,
    show (offset % 4 + i) % 4 = (offset + i) % 4 by omega]

end Masking

/-! ### Frames -/

/-- The forms of a payload length: 7 bits, 16 bits and 64 bits. -/
inductive LengthForm
  | short
  | medium
  | long
  deriving DecidableEq, Repr

namespace LengthForm

/-- Payload lengths of a form. -/
def Fits : LengthForm → ℕ → Prop
  | short, n => n < 126
  | medium, n => n < 65536
  | long, n => n < 2 ^ 64

/-- The second byte of a masked frame, and the length behind it. -/
def bytes : LengthForm → ℕ → Bytes
  | short, n => [UInt8.ofNat (128 + n)]
  | medium, n => 254 :: beBytes 2 n
  | long, n => 255 :: beBytes 8 n

/-- The number of header bytes up to the masking key. -/
def size : LengthForm → ℕ
  | short => 2
  | medium => 4
  | long => 10

theorem bytes_length (form : LengthForm) (n : ℕ) : (form.bytes n).length + 1 = form.size := by
  cases form <;> simp [bytes, size]

end LengthForm

/-- **A masked frame of a client.**  Its first byte is the FIN bit, the reserved bits and the
opcode. -/
structure ClientFrame where
  first : UInt8
  form : LengthForm
  mask : Bytes
  payload : Bytes
  mask_length : mask.length = 4
  fits : form.Fits payload.length

namespace ClientFrame

variable (f : ClientFrame)

def opcode : ℕ := f.first.toNat % 16

/-- A ping or a pong. -/
def IsControl : Prop := f.opcode = 0x9 ∨ f.opcode = 0xA

/-- TEXT, BINARY, CONTINUATION, and the opcodes without a meaning. -/
def IsData : Prop := f.opcode ≠ 0x8 ∧ ¬ f.IsControl

instance : Decidable f.IsControl := inferInstanceAs (Decidable (_ ∨ _))

instance : Decidable f.IsData := inferInstanceAs (Decidable (_ ∧ _))

/-- The header. -/
def header : Bytes := f.first :: (f.form.bytes f.payload.length ++ f.mask)

/-- The bytes on the wire. -/
def encode : Bytes := f.header ++ wsUnmaskData f.mask 0 f.payload

def headerLen : ℕ := f.form.size + 4

/-- A frame the server goes on behind. -/
def Served : Prop :=
  f.opcode ≠ 0x8 ∧ f.payload.length < 2 ^ 31 ∧
    (f.IsControl → f.headerLen + f.payload.length < 2 ^ 31)

/-- A frame `ws_parse_frame_header` returns 0 for once it has consumed it: a ping, a pong, or a
data frame without payload. -/
def ReturnsZero : Prop := f.IsControl ∨ f.IsData ∧ f.payload = []

theorem header_length : f.header.length = f.headerLen := by
  have := f.form.bytes_length f.payload.length
  rw [header, headerLen, List.length_cons, List.length_append, f.mask_length]
  omega

theorem encode_length : f.encode.length = f.headerLen + f.payload.length := by
  rw [encode, List.length_append, f.header_length, wsUnmaskData_length]

theorem headerLen_le : 6 ≤ f.headerLen ∧ f.headerLen ≤ 14 := by
  unfold headerLen LengthForm.size
  cases f.form <;> decide

theorem encode_ne_nil : f.encode ≠ [] := by
  intro h
  have hlen := congrArg List.length h
  rw [f.encode_length] at hlen
  have := f.headerLen_le
  simp only [List.length_nil] at hlen
  omega

end ClientFrame

/-! ### Headers in part -/

/-- A byte of what has arrived is a byte of the stream. -/
theorem getD_arrived {p fut bs : Bytes} (h : p ++ fut = bs) {i : ℕ} (hi : i < p.length)
    (d : UInt8) : p.getD i d = bs.getD i d := by
  rw [← h]
  exact getD_of_prefix (List.prefix_append p fut) hi d

/-- Bytes of what has arrived are bytes of the stream. -/
theorem slice_arrived {p fut bs : Bytes} (h : p ++ fut = bs) {i n : ℕ} (hi : i + n ≤ p.length) :
    (p.drop i).take n = (bs.drop i).take n := by
  rw [← h, List.drop_append_of_le_length (by omega),
    List.take_append_of_le_length (by rw [List.length_drop]; omega)]

section Header

variable {f : ClientFrame} {p fut rest : Bytes}

/-- The second byte. -/
theorem second_byte (h : p ++ fut = f.encode ++ rest) (hlen : 2 ≤ p.length) :
    (p.getD 1 0).toNat = 128 + match f.form with
      | .short => f.payload.length
      | .medium => 126
      | .long => 127 := by
  have hfits := f.fits
  rw [getD_arrived h (by omega)]
  unfold ClientFrame.encode ClientFrame.header
  generalize f.payload.length = n at hfits ⊢
  cases hform : f.form with
  | short =>
    rw [hform] at hfits
    simp only [LengthForm.Fits] at hfits
    simp only [LengthForm.bytes, List.cons_append, List.getD_cons_succ, List.getD_cons_zero,
      UInt8.toNat_ofNat']
    omega
  | medium => rfl
  | long => rfl

/-- What is read of a length. -/
theorem wsPayloadLength_frame (h : p ++ fut = f.encode ++ rest) (hlen : 2 ≤ p.length) :
    wsPayloadLength p =
      if p.length < f.form.size then .error 0
      else if 2 ^ 31 ≤ f.payload.length then .error (-1)
      else .ok (f.payload.length, f.form.size) := by
  have hsecond := second_byte h hlen
  have hfits := f.fits
  have hbytes : f.encode ++ rest = f.first :: (f.form.bytes f.payload.length ++
      (f.mask ++ (wsUnmaskData f.mask 0 f.payload ++ rest))) := by
    simp only [ClientFrame.encode, ClientFrame.header, List.cons_append, List.append_assoc]
  rw [hbytes] at h
  generalize f.mask ++ (wsUnmaskData f.mask 0 f.payload ++ rest) = behind at h
  unfold wsPayloadLength
  dsimp only
  generalize hn : f.payload.length = n at h hsecond hfits ⊢
  cases hform : f.form with
  | short =>
    rw [hform] at hsecond hfits
    simp only [LengthForm.Fits] at hsecond hfits
    rw [hsecond, show (128 + n) % 128 = n by omega, if_neg (by omega), if_neg (by omega),
      LengthForm.size, if_neg (by omega), if_neg (by omega)]
  | medium =>
    rw [hform] at h hsecond hfits
    simp only [LengthForm.Fits] at hsecond hfits
    rw [hsecond, if_pos (by decide), LengthForm.size]
    by_cases hshort : p.length < 4
    · rw [if_pos (by omega), if_pos hshort]
    · have hvalue : beValue ((p.drop 2).take 2) = n := by
        rw [slice_arrived h (by omega)]
        show beValue ((beBytes 2 n ++ behind).take 2) = n
        rw [List.take_left' (beBytes_length 2 n)]
        exact beValue_beBytes 2 n hfits
      rw [if_neg (by omega), if_neg hshort, hvalue, if_neg (by omega)]
  | long =>
    rw [hform] at h hsecond hfits
    simp only [LengthForm.Fits] at hsecond hfits
    rw [hsecond, if_neg (by decide), if_pos (by decide), LengthForm.size]
    by_cases hshort : p.length < 10
    · rw [if_pos (by omega), if_pos hshort]
    · have hhigh : (p.drop 2).take 4 = beBytes 4 (n / 256 ^ 4) := by
        rw [slice_arrived h (by omega)]
        show (beBytes (4 + 4) n ++ behind).take 4 = _
        rw [beBytes_add, List.append_assoc, List.take_left' (beBytes_length 4 _)]
      have hlow : beValue ((p.drop 6).take 4) = n % 256 ^ 4 := by
        rw [slice_arrived h (by omega)]
        show beValue (((beBytes (4 + 4) n ++ behind).drop 4).take 4) = _
        rw [beBytes_add, List.append_assoc, List.drop_left' (beBytes_length 4 _),
          List.take_left' (beBytes_length 4 _), beValue_beBytes_mod]
      have hzero : (p.drop 2).take 4 = [0, 0, 0, 0] ↔ n < 256 ^ 4 := by
        rw [hhigh]
        constructor
        · intro heq
          have hvalue := congrArg beValue heq
          rw [beValue_beBytes 4 _ (by omega)] at hvalue
          have : n / 256 ^ 4 = 0 := hvalue
          omega
        · intro hlt
          rw [Nat.div_eq_of_lt hlt]
          rfl
      rw [if_neg (by omega), if_neg hshort, hlow]
      by_cases hbig : n < 256 ^ 4
      · rw [if_neg (not_not.mpr (hzero.mpr hbig)), Nat.mod_eq_of_lt hbig]
      · rw [if_pos (fun heq => hbig (hzero.mp heq)), if_pos (by omega)]

/-- **What `ws_parse_frame_header` does** with what has arrived of a frame and of the bytes behind
it. -/
theorem wsParseFrameHeader_frame {w : WsIn} (h : w.input ++ fut = f.encode ++ rest) :
    wsParseFrameHeader w =
      if 2 ^ 31 ≤ f.payload.length ∧ f.form.size ≤ w.input.length then .ok (w, -1)
      else if w.input.length < f.headerLen then .ok (w, 0)
      else wsFrameOpcode { w with mask := f.mask, maskOffset := 0 } f.opcode f.headerLen
        f.payload.length := by
  have hsize : 2 ≤ f.form.size ∧ f.form.size ≤ 10 := by
    unfold LengthForm.size
    cases f.form <;> decide
  have hheader : f.headerLen = f.form.size + 4 := rfl
  unfold wsParseFrameHeader
  by_cases hshort : w.input.length < 2
  · rw [if_pos hshort, if_neg (by omega), if_pos (by omega)]
  · rw [if_neg hshort]
    dsimp only
    rw [wsPayloadLength_frame h (by omega)]
    by_cases hsizeLen : w.input.length < f.form.size
    · rw [if_pos hsizeLen, if_neg (by omega), if_pos (by omega)]
    rw [if_neg hsizeLen]
    by_cases hbig : 2 ^ 31 ≤ f.payload.length
    · rw [if_pos hbig, if_pos ⟨hbig, by omega⟩]
    rw [if_neg hbig, if_neg fun hboth => hbig hboth.1]
    dsimp only
    have hmasked : (w.input.getD 1 0).toNat / 128 = 1 := by
      have hlt := (w.input.getD 1 0).toNat_lt
      have hge : 128 ≤ (w.input.getD 1 0).toNat := by
        rw [second_byte h (by omega)]
        omega
      omega
    rw [if_pos hmasked]
    by_cases hkey : w.input.length < f.headerLen
    · rw [if_pos (by omega), if_pos hkey]
    · have hmask : (w.input.drop f.form.size).take 4 = f.mask := by
        rw [slice_arrived h (by omega)]
        have hfront : f.encode ++ rest = (f.first :: f.form.bytes f.payload.length) ++
            (f.mask ++ (wsUnmaskData f.mask 0 f.payload ++ rest)) := by
          simp only [ClientFrame.encode, ClientFrame.header, List.cons_append, List.append_assoc]
        have hlen : (f.first :: f.form.bytes f.payload.length).length = f.form.size :=
          f.form.bytes_length _
        rw [hfront, List.drop_left' hlen, List.take_left' f.mask_length]
      have hopcode : (w.input.getD 0 0).toNat % 16 = f.opcode := by
        rw [getD_arrived h (by omega)]
        rfl
      rw [if_neg (by omega), if_neg hkey, hmask, hopcode]
      rfl

/-- What becomes of a frame whose header is looked at: it is waited for, skipped, opened, or it
is not served. -/
inductive HeaderResult (f : ClientFrame) (w : WsIn) : Except Abort (WsIn × ℤ) → Prop
  | waits (v : WsIn) (hinput : v.input = w.input) (hremaining : v.remaining = w.remaining)
      (hlen : w.input.length < f.encode.length)
      (hdata : f.IsData → w.input.length < f.headerLen) : HeaderResult f w (.ok (v, 0))
  | skips (v : WsIn) (hserved : f.Served) (hcontrol : f.IsControl)
      (hlen : f.encode.length ≤ w.input.length)
      (hinput : v.input = w.input.drop f.encode.length) (hremaining : v.remaining = w.remaining) :
      HeaderResult f w (.ok (v, 0))
  | opens (hserved : f.Served) (hdata : f.IsData) (hlen : f.headerLen ≤ w.input.length) :
      HeaderResult f w
        (.ok (⟨w.input.drop f.headerLen, f.payload.length, f.mask, 0⟩, f.payload.length))
  | refused (v : WsIn) (hserved : ¬ f.Served) (hinput : v.input = w.input) :
      HeaderResult f w (.ok (v, -1))
  | aborts (a : Abort) (hserved : ¬ f.Served) : HeaderResult f w (.error a)

/-- **A frame.** -/
theorem wsParseFrameHeader_result {w : WsIn} (h : w.input ++ fut = f.encode ++ rest) :
    HeaderResult f w (wsParseFrameHeader w) := by
  have hencode := f.encode_length
  obtain ⟨-, hheaderLen⟩ := f.headerLen_le
  rw [wsParseFrameHeader_frame h]
  by_cases hbig : 2 ^ 31 ≤ f.payload.length ∧ f.form.size ≤ w.input.length
  · rw [if_pos hbig]
    exact .refused w (fun hserved => absurd hserved.2.1 (by omega)) rfl
  rw [if_neg hbig]
  by_cases hheader : w.input.length < f.headerLen
  · rw [if_pos hheader]
    exact .waits w rfl rfl (by omega) fun _ => hheader
  have hsmall : f.payload.length < 2 ^ 31 := by
    have : f.headerLen = f.form.size + 4 := rfl
    omega
  rw [if_neg hheader, wsFrameOpcode]
  by_cases hclose : f.opcode = 0x8
  · rw [if_pos hclose]
    exact .refused _ (fun hserved => hserved.1 hclose) rfl
  rw [if_neg hclose]
  by_cases hcontrol : f.opcode = 0x9 ∨ f.opcode = 0xA
  · rw [if_pos hcontrol]
    dsimp only
    by_cases hwhole : f.headerLen + f.payload.length < 2 ^ 31
    · have hserved : f.Served := ⟨hclose, hsmall, fun _ => hwhole⟩
      have hwrap : wrap32 ((f.headerLen : ℤ) + f.payload.length) =
          ((f.headerLen + f.payload.length : ℕ) : ℤ) := by
        rw [wrap32_of_fits (by omega) (by omega)]
        push_cast
        rfl
      rw [hwrap]
      by_cases hshort : w.input.length < f.headerLen + f.payload.length
      · rw [if_pos (by exact_mod_cast hshort)]
        exact .waits _ rfl rfl (by omega) fun hdata => absurd hcontrol hdata.2
      · rw [if_neg (by exact_mod_cast hshort), if_neg (by omega), Int.toNat_natCast]
        exact .skips _ hserved hcontrol (by omega) (by rw [hencode]) rfl
    · have hnot : ¬ f.Served := fun hserved => hwhole (hserved.2.2 hcontrol)
      have hneg : wrap32 ((f.headerLen : ℤ) + f.payload.length) < 0 := by
        rw [wrap32, Int.bmod_def]
        omega
      rw [if_neg (by omega), if_pos hneg]
      exact .aborts _ hnot
  · rw [if_neg hcontrol, if_neg hheader]
    exact .opens ⟨hclose, hsmall, fun h => absurd h hcontrol⟩ ⟨hclose, hcontrol⟩ (by omega)

end Header

end Server
end Teleproto3
