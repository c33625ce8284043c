/-
# Padding frames

`t3_padding_generate` of `lib/src/t3_padding.c` and `t3_padding_detect` of
`lib/include/t3.h`, and what the client makes of padding frames between the frames that
carry messages (`spec/wire-format.md`, section 2.1).

A receiver must discard a padding frame.  `process_incoming` does not look at the first
byte of a frame: every payload goes into `reasm_in`, and only where no length of a message
stands at its front is one byte skipped, if it is the marker.  So padding is skipped where
it consists of markers alone and the next message is long enough not to make a length
together with them, and `paddedRun_transparent` says that then the client delivers exactly
the messages.  Everything else in a padding frame is taken for messages, or refused.
-/

import Teleproto3.Client.ReceiveRuns

namespace Teleproto3
namespace Client

open Lib Wire

/-! ### Generating and detecting -/

/-- The callback `rng` of a session: it fills a buffer of the length it is given, or fails. -/
structure Rng (C : Type*) where
  fill : C → ℕ → Option (Bytes × C)
  fill_length : ∀ ctx n bs ctx', fill ctx n = some (bs, ctx') → bs.length = n

section Generate

variable {C : Type*} (rng : Rng C)

/-- One turn of the loop of `t3__rng_range`. -/
def t3RngTurn (lo range : ℕ) (ctx : C) : Turn C (Except T3Result (ℕ × C)) :=
  let bucketCount := (2 ^ 32 - 1) / range
  let cutoff := bucketCount * range
  match rng.fill ctx 4 with
  | none => .done (.error .rng)
  | some (bytes, ctx) =>
    let r := readLe32 bytes
    if r ≥ cutoff then .again ctx else .done (.ok (lo + r % range, ctx))

/-- `t3__rng_range`, with at most `turns` turns of its loop. -/
def t3RngRange (lo hi turns : ℕ) (ctx : C) : Turn C (Except T3Result (ℕ × C)) :=
  loopFor (t3RngTurn rng lo (hi - lo + 1)) turns ctx

/-- `t3_padding_generate` behind the tests of its pointers: what is left in `buf`, or the error.
There is neither as long as no random word has been low enough. -/
def t3PaddingGenerate (callbacksBound : Bool) (minLen maxLen turns : ℕ) (ctx : C) :
    Option (Except T3Result Bytes) :=
  if callbacksBound = false then some (.error .invalidArg)
  else if minLen < 1 ∨ maxLen < minLen ∨ maxLen > 65535 then some (.error .invalidArg)
  else
    match t3RngRange rng minLen maxLen turns ctx with
    | .again _ => none
    | .done (.error e) => some (.error e)
    | .done (.ok (len, ctx)) =>
      if len > 1 then
        match rng.fill ctx (len - 1) with
        | none => some (.error .rng)
        | some (fill, _) => some (.ok (T3_PADDING_MARKER :: fill))
      else some (.ok [T3_PADDING_MARKER])

/-- A length that is drawn lies in the range. -/
theorem t3RngRange_bounds {lo hi turns len : ℕ} {ctx ctx' : C} (h : lo ≤ hi)
    (hdraw : t3RngRange rng lo hi turns ctx = .done (.ok (len, ctx'))) : lo ≤ len ∧ len ≤ hi := by
  have hloop := loopFor_inv_of_eachTurnFor (f := t3RngTurn rng lo (hi - lo + 1))
    (I := fun _ => True) (P := fun _ => True)
    (Q := fun r => ∀ len ctx', r = .ok (len, ctx') → lo ≤ len ∧ len ≤ hi) (s := ctx) (n := turns)
    (fun _ _ _ _ _ => trivial) ?_ trivial ?_
  · exact hloop.2 _ hdraw len ctx' rfl
  · intro c r _ _ hturn len ctx' hr
    simp only [t3RngTurn] at hturn
    cases hfill : rng.fill c 4 with
    | none =>
      rw [hfill] at hturn
      rw [← Turn.done.inj hturn] at hr
      exact nomatch hr
    | some p =>
      rw [hfill] at hturn
      simp only at hturn
      split_ifs at hturn
      rw [← Turn.done.inj hturn] at hr
      have hlen := (Prod.mk.inj (Except.ok.inj hr)).1
      have hmod := Nat.mod_lt (readLe32 p.1) (Nat.succ_pos (hi - lo))
      simp only [Nat.succ_eq_add_one] at hmod
      omega
  · clear hdraw
    induction turns generalizing ctx with
    | zero => trivial
    | succ n ih => exact ⟨trivial, fun s' _ => ih⟩

/-- **What is generated is a padding frame**: the marker and up to 65534 bytes behind it. -/
theorem t3PaddingGenerate_ok {callbacksBound : Bool} {minLen maxLen turns : ℕ} {ctx : C}
    {buf : Bytes} (h : t3PaddingGenerate rng callbacksBound minLen maxLen turns ctx = some (.ok buf)) :
    ∃ content, buf = T3_PADDING_MARKER :: content ∧ content.length < 65535 ∧
      minLen ≤ buf.length ∧ buf.length ≤ maxLen := by
  unfold t3PaddingGenerate at h
  by_cases hbound : callbacksBound = false
  · rw [if_pos hbound] at h
    exact nomatch Option.some.inj h
  rw [if_neg hbound] at h
  by_cases hargs : minLen < 1 ∨ maxLen < minLen ∨ maxLen > 65535
  · rw [if_pos hargs] at h
    exact nomatch Option.some.inj h
  rw [if_neg hargs] at h
  cases hdraw : t3RngRange rng minLen maxLen turns ctx with
  | again c =>
    rw [hdraw] at h
    exact nomatch h
  | done r =>
    rw [hdraw] at h
    cases r with
    | error e => exact nomatch Option.some.inj h
    | ok p =>
      obtain ⟨len, ctx'⟩ := p
      obtain ⟨hlo, hhi⟩ := t3RngRange_bounds rng (by omega) hdraw
      simp only at h
      by_cases hlong : len > 1
      · rw [if_pos hlong] at h
        cases hfill : rng.fill ctx' (len - 1) with
        | none =>
          rw [hfill] at h
          exact nomatch Option.some.inj h
        | some q =>
          rw [hfill] at h
          have hbuf := Except.ok.inj (Option.some.inj h)
          have hlen := rng.fill_length _ _ _ _ hfill
          refine ⟨q.1, hbuf.symm, by omega, ?_⟩
          rw [← hbuf, List.length_cons]
          omega
      · rw [if_neg hlong] at h
        have hbuf := Except.ok.inj (Option.some.inj h)
        refine ⟨[], hbuf.symm, by decide, ?_⟩
        rw [← hbuf, List.length_singleton]
        omega

end Generate

/-- `t3_padding_detect`. -/
def t3PaddingDetect (firstDecryptedByte : UInt8) : Bool := firstDecryptedByte = T3_PADDING_MARKER

/-! ### Padding between messages -/

/-- A stretch of what a server sends: frames that carry whole messages between them, or one
frame of padding. -/
inductive Stretch
  | data (frames : List ServerFrame) (messages : List WireMessage)
  | padding (frame : ServerFrame) (first : UInt8) (content : Bytes)

namespace Stretch

/-- The frames of a stretch. -/
def frames : Stretch → List ServerFrame
  | .data frames _ => frames
  | .padding frame _ _ => [frame]

/-- The messages of a stretch. -/
def messages : Stretch → List WireMessage
  | .data _ messages => messages
  | .padding _ _ _ => []

/-- The payload of a stretch before encryption. -/
def plain : Stretch → Bytes
  | .data _ messages => messages.flatMap WireMessage.encode
  | .padding _ first content => first :: content

/-- The pieces of a stretch, were its padding markers alone. -/
def pieces : Stretch → List Piece
  | .data _ messages => messages.map Piece.message
  | .padding _ _ content => List.replicate (content.length + 1) Piece.marker

/-- A padding frame is one whose first decrypted byte is the marker; its payload has 1 to 65535
bytes. -/
def WellFormed : Stretch → Prop
  | .data _ _ => True
  | .padding _ first content => t3PaddingDetect first = true ∧ content.length < 65535

/-- Padding of markers alone. -/
def OnlyMarkers : Stretch → Prop
  | .data _ _ => True
  | .padding _ _ content => ∀ b ∈ content, b = T3_PADDING_MARKER

end Stretch

/-- Each stretch is what its frames carry, where `pos` bytes of payload stand before. -/
def Carried (ks : Keystream) : ℕ → List Stretch → Prop
  | _, [] => True
  | pos, st :: sts =>
    xorAt ks pos (st.frames.flatMap ServerFrame.payload) = st.plain ∧
      Carried ks (pos + st.plain.length) sts

/-- A sequence of messages with padding frames between them, in frames of one mode. -/
structure PaddedConversation where
  mode : T3cMode
  ks : Keystream
  stretches : List Stretch
  frames_mode : ∀ f ∈ stretches.flatMap Stretch.frames, f.mode = mode
  well_formed : ∀ st ∈ stretches, st.WellFormed
  carried : Carried ks 0 stretches

namespace PaddedConversation

variable (conv : PaddedConversation)

/-- The frames of a conversation. -/
def frames : List ServerFrame := conv.stretches.flatMap Stretch.frames

/-- The byte stream of a conversation. -/
def stream : Bytes := conv.frames.flatMap ServerFrame.encode

/-- The data messages of a conversation. -/
def messages : List WireMessage := conv.stretches.flatMap Stretch.messages

/-- How many bytes of payload a conversation has. -/
def payloadLength : ℕ := (conv.frames.flatMap ServerFrame.payload).length

end PaddedConversation

/-- TLS delivers the bytes of the conversation in order, as in `Session.Legal`. -/
def Session.LegalPadded (conv : PaddedConversation) (x : Session) : ClientEvent → Prop
  | .pump env =>
    x.received ++ env.reads.flatten <+: conv.stream ∧
      ∀ bs ∈ env.reads, 0 < bs.length ∧ bs.length ≤ 16384
  | .read _ => True

/-- A stream at the start of a conversation, as in `Opening`. -/
structure PaddedOpening (conv : PaddedConversation) (s : ClientStream) : Prop where
  ready : s.state = .ready
  mode : s.mode = conv.mode
  ctx : s.decryptCtx = some ⟨conv.ks, 0⟩
  reasm_nil : ringContents s.reasmIn = []
  plain_nil : ringContents s.plainIn = []
  in_prefix : ringContents s.inRing <+: conv.stream
  in_tail : s.inRing.tail ≤ s.inRing.cap
  reasm_tail : s.reasmIn.tail ≤ s.reasmIn.cap
  plain_tail : s.plainIn.tail ≤ s.plainIn.cap

/-- **Padding is transparent**: the messages returned are the first data messages in order, and
all of them once every payload has been moved, the second loop finds no more to do and
`plain_in` is empty; the incoming cipher stands behind the payload bytes moved. -/
structure Session.Transparent (conv : PaddedConversation) (x : Session) : Prop where
  returned_prefix : x.returned <+: conv.messages.map WireMessage.payload
  complete : x.moved = conv.payloadLength → (∃ r, deliverTurn x.stream = .done (x.stream, r)) →
    ringContents x.stream.plainIn = [] → x.returned = conv.messages.map WireMessage.payload
  cipher_position : ∃ c, x.stream.decryptCtx = some c ∧ c.pos = x.moved

/-- **The condition on the padding**: every padding frame consists of markers alone, and the
messages behind markers make no length of them. -/
structure PaddedConversation.Skips (conv : PaddedConversation) : Prop where
  only : ∀ st ∈ conv.stretches, st.OnlyMarkers
  behind : MarkersSkip 0 (conv.stretches.flatMap Stretch.pieces)

/-! ### Padding of markers as pieces -/

theorem Stretch.plain_of_onlyMarkers {st : Stretch} (hst : st.WellFormed) (h : st.OnlyMarkers) :
    st.plain = st.pieces.flatMap Piece.encode := by
  cases st with
  | data frames messages => exact (messages_encode messages).symm
  | padding frame first content =>
    have hfirst : first = T3_PADDING_MARKER := of_decide_eq_true hst.1
    have hcontent : content = List.replicate content.length T3_PADDING_MARKER :=
      List.eq_replicate_iff.mpr ⟨rfl, h⟩
    have hflat (n : ℕ) : (List.replicate n Piece.marker).flatMap Piece.encode =
        List.replicate n T3_PADDING_MARKER := by
      induction n with
      | zero => rfl
      | succ n ih =>
        rw [List.replicate_succ, List.flatMap_cons, ih]
        rfl
    rw [plain, pieces, hflat, List.replicate_succ, ← hcontent, hfirst]

theorem Stretch.messagesAmong_pieces (st : Stretch) : messagesAmong st.pieces = st.messages := by
  cases st with
  | data frames messages => exact messagesAmong_messages messages
  | padding frame first content =>
    rw [pieces, messagesAmong, List.filterMap_replicate_of_none rfl]
    rfl

theorem messagesAmong_stretches (sts : List Stretch) :
    messagesAmong (sts.flatMap Stretch.pieces) = sts.flatMap Stretch.messages := by
  induction sts with
  | nil => rfl
  | cons st sts ih =>
    rw [List.flatMap_cons, List.flatMap_cons, messagesAmong_append, st.messagesAmong_pieces, ih]

/-- What all the frames carry. -/
theorem Carried.plain_eq {ks : Keystream} {pos : ℕ} {sts : List Stretch}
    (h : Carried ks pos sts) :
    xorAt ks pos ((sts.flatMap Stretch.frames).flatMap ServerFrame.payload) =
      sts.flatMap Stretch.plain := by
  induction sts generalizing pos with
  | nil => rfl
  | cons st sts ih =>
    have hlen : st.plain.length = (st.frames.flatMap ServerFrame.payload).length := by
      rw [← h.1, xorAt_length]
    rw [List.flatMap_cons, List.flatMap_append, xorAt_append, h.1, List.flatMap_cons, ← hlen,
      ih h.2]

/-- A conversation whose padding is skipped, as a stream of pieces. -/
def PaddedConversation.toPieces (conv : PaddedConversation) (h : conv.Skips) : PieceStream where
  mode := conv.mode
  frames := conv.frames
  ks := conv.ks
  pieces := conv.stretches.flatMap Stretch.pieces
  frames_mode := conv.frames_mode
  carried := by
    have hplain : conv.stretches.flatMap Stretch.plain =
        (conv.stretches.flatMap Stretch.pieces).flatMap Piece.encode := by
      rw [List.flatMap_assoc]
      exact List.flatMap_congr fun st hst =>
        Stretch.plain_of_onlyMarkers (conv.well_formed st hst) (h.only st hst)
    rw [← hplain]
    exact conv.carried.plain_eq ▸ List.prefix_refl _
  skip := h.behind

theorem PaddedOpening.delivering {conv : PaddedConversation} {s : ClientStream}
    (h : PaddedOpening conv s) (hskip : conv.Skips) :
    Delivering (conv.toPieces hskip) (ringContents s.inRing) [] s 0 :=
  ⟨[], conv.stretches.flatMap Stretch.pieces, [], [],
    { deframing := ⟨[], conv.frames,
        { ready := h.ready
          mode_eq := h.mode
          frames_mode := conv.frames_mode
          ctx := h.ctx
          frames_eq := rfl
          received_eq := rfl
          received_prefix := h.in_prefix
          moved_eq := rfl
          reasm_eq := h.reasm_nil
          in_tail := h.in_tail
          reasm_tail := h.reasm_tail }⟩
      pieces_eq := rfl
      taken := rfl
      returned_eq := rfl
      plain_eq := h.plain_nil
      plain_tail := h.plain_tail }⟩

/-- Fewer than four bytes of pieces hold no message. -/
theorem messagesAmong_short {ps : List Piece} (h : (ps.flatMap Piece.encode).length < 4) :
    messagesAmong ps = [] := by
  induction ps with
  | nil => rfl
  | cons p ps ih =>
    rw [List.flatMap_cons, List.length_append] at h
    cases p with
    | marker => exact ih (by omega)
    | message m =>
      rw [Piece.encode, m.encode_length] at h
      omega

/-- **Nothing is left behind**: with every payload moved, a second loop that stops and an empty
`plain_in` there is no message left. -/
theorem Delivering.nothing_left {ps : PieceStream} {received : Bytes} {returned : List Bytes}
    {s : ClientStream} {moved : ℕ} (h : Delivering ps received returned s moved)
    (hall : xorAt ps.ks 0 (ps.frames.flatMap ServerFrame.payload) = ps.pieces.flatMap Piece.encode)
    (hmoved : moved = (ps.frames.flatMap ServerFrame.payload).length)
    (hstop : ∃ r, deliverTurn s = .done (s, r)) (hempty : ringContents s.plainIn = []) :
    returned = (messagesAmong ps.pieces).map WireMessage.payload := by
  obtain ⟨past, left, given, queued, hat⟩ := h
  obtain ⟨done, rest, hd⟩ := hat.deframing
  obtain ⟨r, hstop⟩ := hstop
  have hused := ringContents_length s.reasmIn
  -- All that is left is in `reasm_in`.
  have hreasm : ringContents s.reasmIn = left.flatMap Piece.encode := by
    have hrest : (rest.flatMap ServerFrame.payload) = [] := by
      have hlen := congrArg List.length
        (congrArg (fun l => l.flatMap ServerFrame.payload) hd.frames_eq)
      simp only [List.flatMap_append, List.length_append] at hlen
      rw [← hmoved, hd.moved_eq] at hlen
      exact List.length_eq_zero_iff.mp (by omega)
    rw [hd.frames_eq, List.flatMap_append, hrest, List.append_nil, ← hd.reasm_eq, hat.pieces_eq,
      List.flatMap_append] at hall
    exact List.append_cancel_left hall
  have hnoqueue : queued = [] := by
    have hplain := hat.plain_eq
    rw [hempty] at hplain
    cases queued with
    | nil => rfl
    | cons m queued' =>
      rw [List.flatMap_cons] at hplain
      have hlen := congrArg List.length hplain
      rw [List.length_append, m.encode_length, List.length_nil] at hlen
      omega
  have hnone : messagesAmong left = [] := by
    rcases hat.front with ⟨-, hshort | ⟨m, left', rfl, hlt⟩⟩ | ⟨left', rfl, hagain, -⟩ |
      ⟨m, left', rfl, htake, hw, hlen⟩
    · apply messagesAmong_short
      rw [← hreasm, hused]
      exact hshort
    · rw [← hused, hreasm, List.flatMap_cons, List.length_append, Piece.encode,
        m.encode_length] at hlt
      omega
    · cases hagain.symm.trans hstop
    · -- An empty `plain_in` takes the message.
      rw [deliverTurn_message hw m.le_length m.length_le hlen, htake] at hstop
      have hacc : (appendPlain s m.encode).2 = 0 := by
        refine (ringAppend_ok_iff _ _).mpr ?_
        have hplain := ringContents_length s.plainIn
        rw [hempty, List.length_nil] at hplain
        have hle := m.length_le
        rw [m.encode_length, s.plainIn_cap, ← hplain]
        unfold RING_CAP
        omega
      rw [if_neg (not_not.mpr hacc)] at hstop
      cases hstop
  rw [hat.returned_eq, hat.pieces_eq, messagesAmong_append, hnone, List.append_nil, hat.taken,
    hnoqueue, List.append_nil]

/-! ### Runs -/

/-- **Where padding is transparent.**  In a run of pumps and reads whose appends fit, over a
conversation whose padding consists of markers alone with long enough messages behind it,
the client delivers exactly the data messages, however the stream is split. -/
theorem paddedRun_transparent (conv : PaddedConversation) (hskip : conv.Skips) (s : ClientStream)
    (es : List ClientEvent) (hopen : PaddedOpening conv s)
    (hrun : Along Session.step (fun x e => x.LegalPadded conv e ∧ x.Fits e) (Session.start s) es) :
    Throughout Session.step (Session.Transparent conv) (Session.start s) es := by
  refine (throughout_of_along
    (I := fun x => Delivering (conv.toPieces hskip) x.received x.returned x.stream x.moved)
    (fun x e h hstep => Session.step_delivering x e h
      (fun _ henv => (henv ▸ hstep.1 : x.LegalPadded conv (.pump _)).1) hstep.2)
    (hopen.delivering hskip) hrun).imp fun x hx => ?_
  obtain ⟨hreturned, hcipher⟩ := hx.books
  have hmessages : messagesAmong (conv.toPieces hskip).pieces = conv.messages :=
    messagesAmong_stretches conv.stretches
  have hall : xorAt conv.ks 0 (conv.frames.flatMap ServerFrame.payload) =
      (conv.stretches.flatMap Stretch.pieces).flatMap Piece.encode := by
    rw [List.flatMap_assoc]
    exact conv.carried.plain_eq.trans (List.flatMap_congr fun st hst =>
      Stretch.plain_of_onlyMarkers (conv.well_formed st hst) (hskip.only st hst))
  rw [hmessages] at hreturned
  refine ⟨hreturned, fun hmoved hstop hempty => ?_, hcipher⟩
  rw [hx.nothing_left hall hmoved hstop hempty, hmessages]

/-- A frame of one byte of padding. -/
def paddingFrame : WsFrame where
  first := 0x82
  payload := [0xFE]
  opcode := WsFrame.binary_opcode
  reserved := WsFrame.binary_reserved
  payload_lt := by decide

/-- One message and then one byte of padding, under a keystream of zeros. -/
def paddedConversation : PaddedConversation where
  mode := .ws
  ks := fun _ => 0
  stretches :=
    [.data [.ws sampleFrame] [⟨false, [1, 2, 3, 4], fourByteMessage_ge, fourByteMessage_le⟩],
      .padding (.ws paddingFrame) 0xFE []]
  frames_mode := by simp [Stretch.frames, ServerFrame.mode]
  well_formed := by simp [Stretch.WellFormed, t3PaddingDetect, T3_PADDING_MARKER]
  carried := by
    refine ⟨?_, ?_, trivial⟩
    · decide
    · decide

theorem frameRead_length (payload : Bytes) (n consumed : ℕ) {payload' : Bytes} {n' consumed' : ℕ}
    (h : FrameRead.frame payload n consumed = .frame payload' n' consumed') : n = n' :=
  (FrameRead.frame.inj h).2.1

/-- The hypotheses of `paddedRun_transparent` hold of a run that pumps both frames in and reads
the message. -/
theorem paddedRun_transparent_sample :
    Throughout Session.step (Session.Transparent paddedConversation)
      (Session.start (ClientStream.opened .ws ⟨fun _ => 0, 64⟩ ⟨fun _ => 0, 0⟩ fun _ _ => 0))
      [.pump ⟨[sampleFrame.encode ++ paddingFrame.encode], false, 3, []⟩, .read 16] := by
  have hskip : paddedConversation.Skips := by
    constructor
    · intro st hst
      rcases List.mem_cons.mp hst with rfl | hst
      · trivial
      · rw [List.mem_singleton.mp hst]
        exact fun b hb => absurd hb List.not_mem_nil
    · exact ⟨⟨fun h => absurd h (lt_irrefl 0), fun h => absurd h (by decide)⟩, trivial⟩
  refine paddedRun_transparent paddedConversation hskip _ _
    ⟨rfl, rfl, rfl, rfl, rfl, List.nil_prefix, Nat.zero_le _, Nat.zero_le _, Nat.zero_le _⟩
    ⟨⟨⟨by decide, by decide⟩, ⟨by decide, trivial⟩, ?_, ?_⟩, ⟨trivial, trivial⟩, trivial⟩
  · refine .again ?_ (rfl : _ = Turn.again _) (.again ?_ (rfl : _ = Turn.again _)
      (.done ?_ (rfl : _ = Turn.done _)))
    · intro payload payloadLen consumed h _ _
      rw [← frameRead_length sampleFrame.payload 8 10 h]
      decide
    · intro payload payloadLen consumed h _ _
      rw [← frameRead_length paddingFrame.payload 1 3 h]
      decide
    · intro payload payloadLen consumed h _ _
      exact nomatch h
  · have hdeframe : deframe ⟨pumpRead (ClientStream.opened .ws ⟨fun _ => 0, 64⟩ ⟨fun _ => 0, 0⟩
        fun _ _ => 0) ⟨[sampleFrame.encode ++ paddingFrame.encode], false, 3, []⟩, 3, 0⟩ = _ :=
      (loop_of_again deframeTurn_shrinks rfl).trans ((loop_of_again deframeTurn_shrinks rfl).trans
        (loop_of_done deframeTurn_shrinks rfl))
    simp only [Session.start]
    rw [hdeframe]
    refine .again ?_ (rfl : _ = Turn.again _) (.done ?_ (rfl : _ = Turn.done _))
    · intro _ _
      decide
    · intro _ _
      decide

/-- One byte of padding and then one message, under a keystream of zeros. -/
def stuckConversation : PaddedConversation where
  mode := .ws
  ks := fun _ => 0
  stretches :=
    [.padding (.ws paddingFrame) 0xFE [],
      .data [.ws sampleFrame] [⟨false, [1, 2, 3, 4], fourByteMessage_ge, fourByteMessage_le⟩]]
  frames_mode := by simp [Stretch.frames, ServerFrame.mode]
  well_formed := by simp [Stretch.WellFormed, t3PaddingDetect, T3_PADDING_MARKER]
  carried := by
    refine ⟨?_, ?_, trivial⟩
    · decide
    · decide

/-- The stream of `stuckConversation`'s client, and the pump that reads both frames. -/
def stuckStream : ClientStream :=
  ClientStream.opened .ws ⟨fun _ => 0, 64⟩ ⟨fun _ => 0, 0⟩ fun _ _ => 0

def stuckPump : PumpEnv := ⟨[paddingFrame.encode ++ sampleFrame.encode], false, 3, []⟩

/-- Both payloads are moved and the second loop waits for more. -/
theorem stuckPump_waits :
    ∃ x, deframe ⟨pumpRead stuckStream stuckPump, 3, 0⟩ = (x, 0) ∧
      deliverTurn x.stream = .done (x.stream, 0) ∧
      deliverTurn (pumpFlush x.stream stuckPump) = .done (pumpFlush x.stream stuckPump, 0) ∧
      x.moved = 9 ∧ ringContents (pumpFlush x.stream stuckPump).plainIn = [] := by
  have hloop : deframe ⟨pumpRead stuckStream stuckPump, 3, 0⟩ = _ :=
    (loop_of_again deframeTurn_shrinks rfl).trans ((loop_of_again deframeTurn_shrinks rfl).trans
      (loop_of_done deframeTurn_shrinks rfl))
  exact ⟨_, hloop, rfl, rfl, rfl, rfl⟩

/-- **A message that is never delivered.**  The marker and the first three bytes of the message
make a length of 1278. -/
theorem paddedRun_not_transparent :
    ¬ ∀ (conv : PaddedConversation) (s : ClientStream) (es : List ClientEvent),
      PaddedOpening conv s →
        Along Session.step (Session.LegalPadded conv) (Session.start s) es →
          Throughout Session.step (Session.Transparent conv) (Session.start s) es := by
  intro h
  have hend := (h stuckConversation stuckStream [.pump stuckPump]
    ⟨rfl, rfl, rfl, rfl, rfl, List.nil_prefix, Nat.zero_le _, Nat.zero_le _, Nat.zero_le _⟩
    ⟨⟨by decide, by decide⟩, trivial⟩).finish
  obtain ⟨x, hdeframe, hwait, hstop, hmoved, hempty⟩ := stuckPump_waits
  have hdeliver : deliver x.stream = (x.stream, 0) := loop_of_done deliverTurn_shrinks hwait
  have hprocess : processIncoming ⟨pumpRead stuckStream stuckPump, 3, 0⟩ = (x, 0) := by
    simp only [processIncoming, hdeframe, hdeliver]
    rfl
  have hpump : pumpReady stuckStream 0 stuckPump = (pumpFlush x.stream stuckPump, x.moved) := by
    show (pumpFlush (processIncoming ⟨pumpRead stuckStream stuckPump, 3, 0⟩).1.stream stuckPump,
      (processIncoming ⟨pumpRead stuckStream stuckPump, 3, 0⟩).1.moved) = _
    rw [hprocess]
  have hfinal : finish Session.step (Session.start stuckStream) [.pump stuckPump] =
      ⟨pumpFlush x.stream stuckPump, stuckPump.reads.flatten, x.moved, []⟩ := by
    show Session.mk (pumpReady stuckStream 0 stuckPump).1 stuckPump.reads.flatten
      (pumpReady stuckStream 0 stuckPump).2 [] = _
    rw [hpump]
  rw [hfinal] at hend
  have hall : [] = stuckConversation.messages.map WireMessage.payload :=
    hend.complete (hmoved.trans (by decide)) ⟨0, hstop⟩ hempty
  exact absurd hall (by decide)

end Client
end Teleproto3
