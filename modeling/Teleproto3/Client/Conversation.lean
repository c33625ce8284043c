/-
# What a server sends

The other side of the receive path, stated without reference to the client's code:
transport frames, the messages they carry in the padded intermediate form, and a
`Conversation`, which is a sequence of frames whose payloads, decrypted, spell a
sequence of messages.

`readFrame_encode` and `readFrame_incomplete` say what the client's frame reader makes
of such a stream wherever it has been cut.
-/

import Teleproto3.Client.Incoming

namespace Teleproto3
namespace Client

open Lib Wire

/-- A transport frame of either mode. -/
inductive ServerFrame
  | ws (f : WsFrame)
  | http (c : HttpChunk)

namespace ServerFrame

/-- The mode a frame belongs to. -/
def mode : ServerFrame → T3cMode
  | .ws _ => .ws
  | .http _ => .http

/-- The bytes of a frame on the wire. -/
def encode : ServerFrame → Bytes
  | .ws f => f.encode
  | .http c => c.encode

/-- The payload of a frame. -/
def payload : ServerFrame → Bytes
  | .ws f => f.payload
  | .http c => c.data

/-- What the reader reports of a complete frame: the chunk without data ends an HTTP
stream. -/
def reading : ServerFrame → FrameRead
  | .ws f => .frame f.payload f.payload.length f.encode.length
  | .http c =>
    if c.data.length = 0 then .terminal c.encode.length
    else .frame c.data c.data.length c.encode.length

end ServerFrame

/-- A message in the padded intermediate form: a length of 4 to `2 ^ 22` bytes, padding
included, with the quick-ack bit on top. -/
structure WireMessage where
  quickAck : Bool
  payload : Bytes
  le_length : 4 ≤ payload.length
  length_le : payload.length ≤ 2 ^ 22

/-- The bytes of a message before encryption. -/
def WireMessage.encode (m : WireMessage) : Bytes :=
  le32 (m.payload.length + if m.quickAck then 2 ^ 31 else 0) ++ m.payload

/-- A sequence of frames of one mode whose payloads, decrypted, spell messages; the last
message may be incomplete. -/
structure Conversation where
  mode : T3cMode
  frames : List ServerFrame
  ks : Keystream
  messages : List WireMessage
  frames_mode : ∀ f ∈ frames, f.mode = mode
  carried : xorAt ks 0 (frames.flatMap ServerFrame.payload) <+: messages.flatMap WireMessage.encode

/-- The byte stream of a conversation. -/
def Conversation.stream (conv : Conversation) : Bytes := conv.frames.flatMap ServerFrame.encode

/-! ### Reading frames -/

/-- **A complete frame is read**, whatever has arrived behind it. -/
theorem readFrame_encode (f : ServerFrame) (rest : Bytes) (hlen : f.encode.length ≤ 2 ^ 63) :
    readFrame f.mode (f.encode ++ rest) = f.reading := by
  cases f with
  | ws f =>
    simp only [ServerFrame.mode, ServerFrame.encode, readFrame, t3cWsFrameRead_encode,
      ServerFrame.reading]
  | http c =>
    have hline : c.line.length ≤ 2 ^ 63 := by
      simp only [ServerFrame.encode, HttpChunk.encode, List.length_append] at hlen
      omega
    simp only [ServerFrame.mode, ServerFrame.encode, readFrame,
      t3HttpChunkParse_encode c rest hline, ServerFrame.reading]

/-- **A part of a frame is not read.** -/
theorem readFrame_incomplete (f : ServerFrame) (p : Bytes) (hp : p <+: f.encode)
    (hlt : p.length < f.encode.length) :
    readFrame f.mode p = .needMore ∨ readFrame f.mode p = .error := by
  cases f with
  | ws f =>
    simp only [ServerFrame.mode, readFrame, t3cWsFrameRead_incomplete f p hp hlt, true_or]
  | http c =>
    simp only [ServerFrame.mode, readFrame]
    cases hread : t3HttpChunkParse p with
    | error e => cases e <;> simp
    | ok v => exact absurd hread (t3HttpChunkParse_incomplete c p hp hlt v)

theorem ServerFrame.encode_length_pos (f : ServerFrame) : 0 < f.encode.length := by
  cases f with
  | ws f =>
    have := f.header_length.1
    rw [encode, f.encode_length]
    omega
  | http c =>
    simp only [encode, HttpChunk.encode, List.length_append, crlf_length]
    omega

theorem ServerFrame.payload_length_le (f : ServerFrame) :
    f.payload.length ≤ f.encode.length := by
  cases f with
  | ws f =>
    rw [encode, payload, f.encode_length]
    omega
  | http c =>
    simp only [encode, payload, HttpChunk.encode, List.length_append]
    omega

/-- A reading that ends the stream is of a frame without payload. -/
theorem ServerFrame.reading_terminal {f : ServerFrame} {consumed : ℕ}
    (h : f.reading = .terminal consumed) : f.payload = [] ∧ consumed = f.encode.length := by
  cases f with
  | ws f => exact nomatch h
  | http c =>
    simp only [reading] at h
    split_ifs at h with h0
    exact ⟨List.length_eq_zero_iff.mp h0, (FrameRead.terminal.inj h).symm⟩

/-- A frame that carries something is read with its payload. -/
theorem ServerFrame.reading_of_payload {f : ServerFrame} (h : f.payload ≠ []) :
    f.reading = .frame f.payload f.payload.length f.encode.length := by
  cases f with
  | ws f => rfl
  | http c => exact if_neg (mt List.length_eq_zero_iff.mp h)

/-- A reading with a payload is of the frame's payload. -/
theorem ServerFrame.reading_frame {f : ServerFrame} {payload : Bytes} {payloadLen consumed : ℕ}
    (h : f.reading = .frame payload payloadLen consumed) :
    payload = f.payload ∧ payloadLen = f.payload.length ∧ consumed = f.encode.length := by
  cases f with
  | ws f =>
    obtain ⟨h1, h2, h3⟩ := FrameRead.frame.inj h
    exact ⟨h1.symm, h2.symm, h3.symm⟩
  | http c =>
    simp only [reading] at h
    split_ifs at h with h0
    obtain ⟨h1, h2, h3⟩ := FrameRead.frame.inj h
    exact ⟨h1.symm, h2.symm, h3.symm⟩

/-! ### Reading messages -/

namespace WireMessage

variable (m : WireMessage)

@[simp] theorem encode_length : m.encode.length = 4 + m.payload.length := by
  rw [encode, List.length_append, le32_length]

/-- The length of a message is read off any four bytes or more of it. -/
theorem wireLength_of_prefix {p : Bytes} (rest : Bytes) (hp : p <+: m.encode ++ rest)
    (h4 : 4 ≤ p.length) : wireLength p = m.payload.length := by
  have hle := m.length_le
  obtain ⟨q, rfl⟩ : ∃ q, p = le32 (m.payload.length + if m.quickAck then 2 ^ 31 else 0) ++ q := by
    rw [encode, List.append_assoc] at hp
    rcases prefix_append_cases hp with ⟨-, hshort⟩ | ⟨q, hq, -⟩
    · rw [le32_length] at hshort
      omega
    · exact ⟨q, hq⟩
  rw [wireLength, readLe32_le32_append _ (by split_ifs <;> omega)]
  split_ifs <;> omega

end WireMessage

end Client
end Teleproto3
