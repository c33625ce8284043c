/-
# Messages that look like padding

`t3_client_write` of `lib/src/t3_client_stream.c`, lines 702-758, against the rule for padding of
`spec/wire-format.md`, section 2.1: a receiver discards a chunk or frame whose first decrypted byte
is the marker that `t3_padding_generate` writes.

The first plaintext byte of a message is the low byte of its padded length, which the sender does
not constrain.  So the rule discards a message exactly when that byte is the marker
(`t3ClientWrite_kept_iff`).
-/

import Teleproto3.Client.Padding
import Teleproto3.Client.Write

namespace Teleproto3
namespace Client

open Lib Wire

/-! ### The receiver -/

/-- Where the masking key of a frame stands, by the length its second byte announces. -/
def maskAt (frame : Bytes) : ℕ :=
  match (frame.getD 1 0).toNat % 128 with
  | 126 => 4
  | 127 => 10
  | _ => 2

/-- The first byte of what a chunk or frame carries, the mask of a frame taken off. -/
def firstPayloadByte (mode : T3cMode) (frame : Bytes) : Option UInt8 :=
  match mode with
  | .ws => frame[maskAt frame + 4]?.map (· ^^^ frame.getD (maskAt frame) 0)
  | .http => (findCrlf frame).bind fun i => frame[i + 2]?

/-- **The rule for padding**, of a receiver whose cipher stands at `pos`: whether it discards the
chunk or frame. -/
def discards (mode : T3cMode) (ks : Keystream) (pos : ℕ) (frame : Bytes) : Bool :=
  match firstPayloadByte mode frame with
  | none => false
  | some b => t3PaddingDetect (b ^^^ ks pos)

/-- What a receiver finds first in a masked frame. -/
theorem firstPayloadByte_ws {outCap : ℕ} {mask : Fin 4 → UInt8} {body frame : Bytes}
    (h : t3cWsFrameWrite outCap mask body = some frame) :
    firstPayloadByte .ws frame = body.head? := by
  unfold t3cWsFrameWrite at h
  simp only at h
  split_ifs at h
  obtain rfl := Option.some.inj h
  have hfirst (header : Bytes) (hat : maskAt (header ++ [mask 0, mask 1, mask 2, mask 3] ++
      wsMaskPayload mask body) = header.length) :
      firstPayloadByte .ws (header ++ [mask 0, mask 1, mask 2, mask 3] ++
        wsMaskPayload mask body) = body.head? := by
    simp only [firstPayloadByte, hat]
    rw [List.append_assoc]
    cases body with
    | nil => simp [wsMaskPayload]
    | cons b body => simp [wsMaskPayload, UInt8.xor_assoc, Fin.ofNat]
  refine hfirst _ ?_
  rw [wsWriteHeader_length]
  unfold wsWriteHeader maskAt
  split_ifs with hshort hmid
  · have hall : ∀ n : Fin 126, (0x80 ||| UInt8.ofNat n).toNat % 128 = n := by decide +kernel
    have hn := hall ⟨body.length, hshort⟩
    simp only [List.cons_append, List.getD_cons_succ, List.getD_cons_zero, hn]
    split <;> omega
  · simp only [List.cons_append, List.getD_cons_succ, List.getD_cons_zero]
    rfl
  · simp only [List.cons_append, List.getD_cons_succ, List.getD_cons_zero]
    rfl

/-- What a receiver finds first in a chunk. -/
theorem firstPayloadByte_http {outCap : ℕ} {body frame : Bytes}
    (h : t3HttpChunkWrite outCap body = .ok frame) :
    firstPayloadByte .http frame = body.head? := by
  unfold t3HttpChunkWrite at h
  simp only at h
  split_ifs at h with hempty
  obtain rfl := Except.ok.inj h
  have hline : findCrlf (t3SizeToHex body.length) = none := by
    rw [← List.append_nil (t3SizeToHex body.length)]
    refine findCrlf_append_of_notMem _ _ (fun hmem => ?_) rfl
    exact hexDigit_of_mem (hexValue_t3SizeToHex body.length) 13 hmem (by decide)
  simp only [firstPayloadByte]
  rw [List.append_assoc, findCrlf_line _ _ hline]
  obtain ⟨b, body, rfl⟩ := List.exists_cons_of_length_pos (Nat.pos_of_ne_zero hempty)
  simp [crlf]

/-- **The receiver decrypts the first byte of what was encrypted.** -/
theorem discards_transportFrame {mode : T3cMode} {mask : Fin 4 → UInt8} {plain frame : Bytes}
    {ks : Keystream} {pos : ℕ} (h : IsTransportFrame mode mask (xorAt ks pos plain) frame) :
    discards mode ks pos frame = (plain.head?.map t3PaddingDetect).getD false := by
  have hfirst : firstPayloadByte mode frame = (xorAt ks pos plain).head? := by
    cases mode with
    | ws =>
      obtain ⟨outCap, hw⟩ := h
      exact firstPayloadByte_ws hw
    | http =>
      obtain ⟨outCap, hw⟩ := h
      exact firstPayloadByte_http hw
  unfold discards
  rw [hfirst]
  cases plain with
  | nil => rfl
  | cons b plain =>
    simp only [xorAt, List.head?_cons, Option.map_some, Option.getD_some]
    rw [UInt8.xor_assoc, UInt8.xor_self, UInt8.xor_zero]

/-! ### The sender -/

/-- A call that accepts a message and puts `frame` behind what was to be sent already. -/
structure Emits (s : ClientStream) (msg : Object) (env : WriteEnv) (frame : Bytes) : Prop where
  accepted : (t3ClientWrite s (some msg) env).rc = .ok
  emitted : (t3ClientWrite s (some msg) env).sent ++
      ringContents (t3ClientWrite s (some msg) env).stream.outRing =
    ringContents s.outRing ++ frame
  ne_nil : frame ≠ []

/-- What is emitted is the frame around the message with its length and its padding. -/
theorem Emits.isTransportFrame {s : ClientStream} {msg : Object} {env : WriteEnv} {frame : Bytes}
    (h : Emits s msg env frame) : ∃ c, s.encryptCtx = some c ∧
      IsTransportFrame s.mode env.mask (xorAt c.ks c.pos (framedMessage msg.bytes env.padding))
        frame := by
  obtain ⟨c, encrypted, frame', hc, -, hlen, hbody, hflen, htr, heq⟩ :=
    t3ClientWrite_accepted s msg env h.accepted
  refine ⟨c, hc, ?_⟩
  have hemitted := h.emitted
  rw [heq, queueFrame_contents] at hemitted
  dsimp only at hemitted
  by_cases hroom : ringUsed s.outRing + frame'.length ≤ s.outRing.cap
  · rw [if_pos hroom] at hemitted
    obtain rfl := List.append_cancel_left hemitted
    have hsmall : (4 + msg.length + env.paddingLen : ℕ) < 2 ^ 31 := by
      have hcap := s.outRing_cap
      have hle : 4 + msg.length + env.paddingLen ≤ frame'.length := by
        rw [hflen, hlen]
        unfold transportFrameLength
        split <;> omega
      rw [hcap, RING_CAP] at hroom
      omega
    rw [← hbody hsmall]
    exact htr
  · rw [if_neg hroom] at hemitted
    exact absurd (List.append_right_eq_self.mp hemitted.symm) h.ne_nil

/-- The first plaintext byte is the low byte of the padded length. -/
theorem framedMessage_head (plaintext padding : Bytes) :
    ((framedMessage plaintext padding).head?.map t3PaddingDetect).getD false =
      decide ((plaintext.length + padding.length) % 256 = 0xFE) := by
  have hhead : (framedMessage plaintext padding).head? =
      some (UInt8.ofNat (plaintext.length + padding.length)) := rfl
  rw [hhead]
  simp only [Option.map_some, Option.getD_some, t3PaddingDetect, ← UInt8.toNat_inj,
    UInt8.toNat_ofNat', T3_PADDING_MARKER_toNat]

/-- **What becomes of an emitted message** is a question of its padded length. -/
theorem Emits.discards_eq {s : ClientStream} {msg : Object} {env : WriteEnv} {frame : Bytes}
    (h : Emits s msg env frame) {c : CtrContext} (hc : s.encryptCtx = some c) :
    discards s.mode c.ks c.pos frame = decide ((msg.length + env.paddingLen) % 256 = 0xFE) := by
  obtain ⟨c', hc', hframe⟩ := h.isTransportFrame
  obtain rfl := Option.some.inj (hc.symm.trans hc')
  rw [discards_transportFrame hframe, framedMessage_head, padding_length]
  rfl

/-- **The message is kept**: a receiver in step with the sender does not take the frame for
padding. -/
def Kept (s : ClientStream) (frame : Bytes) : Prop :=
  ∀ c, s.encryptCtx = some c → discards s.mode c.ks c.pos frame = false

/-- **A message is kept exactly when the low byte of its padded length is not the marker.** -/
theorem t3ClientWrite_kept_iff (s : ClientStream) (msg : Object) (env : WriteEnv) (frame : Bytes)
    (h : Emits s msg env frame) :
    Kept s frame ↔ (msg.length + env.paddingLen) % 256 ≠ 0xFE := by
  obtain ⟨c, hc, -⟩ := h.isTransportFrame
  constructor
  · intro hkept
    have hfalse := hkept c hc
    rw [h.discards_eq hc] at hfalse
    exact of_decide_eq_false hfalse
  · intro hlow c' hc'
    rw [h.discards_eq hc']
    exact decide_eq_false hlow

/-- A client that is ready, at the start of both keystreams. -/
def readyClient : ClientStream :=
  ClientStream.opened .http ⟨fun _ => 0, 64⟩ ⟨fun _ => 0, 0⟩ (fun _ _ => 0)

/-- Such a client emits every message that is not longer than 1000 bytes. -/
theorem readyClient_emits (msg : Object) (h0 : msg.length ≠ 0) (hlen : msg.length ≤ 1000) :
    ∃ frame, Emits readyClient msg quietEnv frame := by
  have hpad : quietEnv.paddingLen = 0 := rfl
  have hwrap : wrap32 (4 + msg.length + quietEnv.paddingLen : ℕ) =
      (4 + msg.length + quietEnv.paddingLen : ℕ) :=
    wrap32_of_fits (by omega) (by omega)
  obtain ⟨encrypted, henc, -, heq⟩ := t3ClientWrite_late readyClient msg quietEnv (c := ⟨_, _⟩)
    h0 rfl rfl nofun rfl (by omega)
  obtain ⟨frame, hframe, htr⟩ := transportFrame_some readyClient.mode quietEnv encrypted rfl
    (by omega) (by omega)
  have hflen := transportFrame_length hframe
  have hhex := t3SizeToHex_length_le (show encrypted.length < 2 ^ 64 by omega)
  rw [hframe] at heq
  refine ⟨frame, by rw [heq]; rfl, ?_, fun hnil => ?_⟩
  · rw [heq]
    dsimp only
    rw [queueFrame_contents]
    refine if_pos ?_
    have hused : ringUsed readyClient.outRing = 0 := rfl
    have hcap : readyClient.outRing.cap = RING_CAP := readyClient.outRing_cap
    have hmode : readyClient.mode = .http := rfl
    dsimp only
    rw [hused, hcap, hflen, hmode, RING_CAP]
    simp only [transportFrameLength]
    omega
  · have hpos := isTransportFrame_length_pos htr
    rw [hnil] at hpos
    exact absurd hpos (by decide)

/-- Four bytes are kept. -/
theorem t3ClientWrite_kept_iff_four :
    ∃ frame, Kept readyClient frame ↔
      ((⟨[1, 2, 3, 4], by decide⟩ : Object).length + quietEnv.paddingLen) % 256 ≠ 0xFE := by
  obtain ⟨frame, hframe⟩ := readyClient_emits ⟨[1, 2, 3, 4], by decide⟩ (by decide) (by decide)
  exact ⟨frame, t3ClientWrite_kept_iff _ _ _ _ hframe⟩

/-- A message of 254 bytes. -/
def markedMessage : Object where
  bytes := List.replicate 254 0
  length_lt := by
    rw [List.length_replicate]
    decide

/-- **It is taken for padding.** -/
theorem t3ClientWrite_not_kept :
    ¬ ∀ s msg env frame, Emits s msg env frame → Kept s frame := by
  intro hall
  have hlen : markedMessage.length = 254 := List.length_replicate
  obtain ⟨frame, hframe⟩ := readyClient_emits markedMessage (by omega) (by omega)
  obtain ⟨c, hc, -⟩ := hframe.isTransportFrame
  have hkept := hall _ _ _ _ hframe c hc
  rw [hframe.discards_eq hc, hlen] at hkept
  exact absurd rfl (of_decide_eq_false hkept)

end Client
end Teleproto3
