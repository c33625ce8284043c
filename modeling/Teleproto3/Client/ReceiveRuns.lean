/-
# Runs of the receive path

From the steps to whole runs: `clientRun_sound` is the promise of the receive path
under its condition.

Without the condition the promise fails.  `process_incoming` decrypts a payload
before it knows whether `reasm_in` takes it; a refused payload stays in `in_ring`, to
be decrypted once more by the next pump.  `clientRun_not_sound` is the shortest such
history: two messages of 4 MiB in two frames, the second of which completes the first
message and brings the other one.
-/

import Teleproto3.Client.Delivery

namespace Teleproto3
namespace Client

open Lib Wire

/-- A stream at the start of a conversation: `READY`, in the conversation's mode, nothing
decrypted yet, and in `in_ring` only bytes of the conversation that came with the
handshake. -/
structure Opening (conv : Conversation) (s : ClientStream) : Prop where
  ready : s.state = .ready
  mode : s.mode = conv.mode
  ctx : s.decryptCtx = some ⟨conv.ks, 0⟩
  reasm_nil : ringContents s.reasmIn = []
  plain_nil : ringContents s.plainIn = []
  in_prefix : ringContents s.inRing <+: conv.stream
  in_tail : s.inRing.tail ≤ s.inRing.cap
  reasm_tail : s.reasmIn.tail ≤ s.reasmIn.cap
  plain_tail : s.plainIn.tail ≤ s.plainIn.cap

/-- The books at the start. -/
def Session.start (s : ClientStream) : Session := ⟨s, ringContents s.inRing, 0, []⟩

/-- A stream just opened is at the start of every conversation with its keystream. -/
theorem opening_opened (conv : Conversation) (encryptCtx : CtrContext) (blocks : Fin 4 → Mem) :
    Opening conv (ClientStream.opened conv.mode encryptCtx ⟨conv.ks, 0⟩ blocks) where
  ready := rfl
  mode := rfl
  ctx := rfl
  reasm_nil := rfl
  plain_nil := rfl
  in_prefix := List.nil_prefix
  in_tail := Nat.zero_le _
  reasm_tail := Nat.zero_le _
  plain_tail := Nat.zero_le _

/-- The pieces of a conversation are its messages. -/
def Conversation.toPieces (conv : Conversation) : PieceStream where
  mode := conv.mode
  frames := conv.frames
  ks := conv.ks
  pieces := conv.messages.map Piece.message
  frames_mode := conv.frames_mode
  carried := by
    rw [messages_encode]
    exact conv.carried
  skip := markersSkip_messages conv.messages

theorem Opening.delivering {conv : Conversation} {s : ClientStream} (h : Opening conv s) :
    Delivering conv.toPieces (ringContents s.inRing) [] s 0 :=
  ⟨[], conv.messages.map Piece.message, [], [],
    { deframing := ⟨[], conv.frames,
        { ready := h.ready
          mode_eq := h.mode
          frames_mode := conv.frames_mode
          ctx := h.ctx
          frames_eq := rfl
          received_eq := rfl
          received_prefix := h.in_prefix
          moved_eq := rfl
          reasm_eq := h.reasm_nil
          in_tail := h.in_tail
          reasm_tail := h.reasm_tail }⟩
      pieces_eq := rfl
      taken := rfl
      returned_eq := rfl
      plain_eq := h.plain_nil
      plain_tail := h.plain_tail }⟩

theorem Delivering.sound {conv : Conversation} {x : Session}
    (h : Delivering conv.toPieces x.received x.returned x.stream x.moved) : x.Sound conv := by
  obtain ⟨hreturned, hcipher⟩ := h.books
  rw [Conversation.toPieces, messagesAmong_messages] at hreturned
  exact ⟨hreturned, hcipher⟩

/-- **What the caller receives is what was sent.**  In a run of pumps and reads in which
every append of the receive path fits, in every state the messages returned are a
prefix of the messages sent and the cipher stands behind the payload bytes moved into
`reasm_in`. -/
theorem clientRun_sound (conv : Conversation) (s : ClientStream) (es : List ClientEvent)
    (hopen : Opening conv s)
    (hrun : Along Session.step (fun x e => x.Legal conv e ∧ x.Fits e) (Session.start s) es) :
    Throughout Session.step (Session.Sound conv) (Session.start s) es :=
  (throughout_of_along
    (I := fun x => Delivering conv.toPieces x.received x.returned x.stream x.moved)
    (fun x e h hstep => Session.step_delivering x e h
      (fun _ henv => (henv ▸ hstep.1 : x.Legal conv (.pump _)).1) hstep.2)
    hopen.delivering hrun).imp fun _ => Delivering.sound

theorem fourByteMessage_ge : 4 ≤ ([1, 2, 3, 4] : Bytes).length := by decide

theorem fourByteMessage_le : ([1, 2, 3, 4] : Bytes).length ≤ 2 ^ 22 := by decide

/-- A frame that carries one message of four bytes. -/
def sampleFrame : WsFrame where
  first := 0x82
  payload := [4, 0, 0, 0, 1, 2, 3, 4]
  opcode := WsFrame.binary_opcode
  reserved := WsFrame.binary_reserved
  payload_lt := by decide

/-- The conversation of that one frame, under a keystream of zeros. -/
def sampleConversation : Conversation where
  mode := .ws
  frames := [.ws sampleFrame]
  ks := fun _ => 0
  messages := [⟨false, [1, 2, 3, 4], fourByteMessage_ge, fourByteMessage_le⟩]
  frames_mode := by simp [ServerFrame.mode]
  carried := by decide

theorem sampleFrame_reading {payload : Bytes} {payloadLen consumed : ℕ}
    (h : FrameRead.frame sampleFrame.payload 8 10 = .frame payload payloadLen consumed) :
    payload = sampleFrame.payload ∧ payloadLen = 8 ∧ consumed = 10 := by
  obtain ⟨h1, h2, h3⟩ := FrameRead.frame.inj h
  exact ⟨h1.symm, h2.symm, h3.symm⟩

/-- The hypotheses of `clientRun_sound` hold of a run that pumps the frame in and reads
the message. -/
theorem clientRun_sound_sample :
    Throughout Session.step (Session.Sound sampleConversation)
      (Session.start (ClientStream.opened .ws ⟨fun _ => 0, 64⟩ ⟨fun _ => 0, 0⟩ fun _ _ => 0))
      [.pump ⟨[sampleFrame.encode], false, 3, []⟩, .read 16] := by
  refine clientRun_sound sampleConversation _ _
    (opening_opened sampleConversation ⟨fun _ => 0, 64⟩ fun _ _ => 0)
    ⟨⟨⟨by decide, by decide⟩, ⟨by decide, trivial⟩, ?_, ?_⟩, ⟨trivial, trivial⟩, trivial⟩
  · refine .again ?_ (rfl : _ = Turn.again _) (.done ?_ (rfl : _ = Turn.done _))
    · intro payload payloadLen consumed h _ _
      obtain ⟨-, rfl, -⟩ := sampleFrame_reading h
      decide
    · intro payload payloadLen consumed h _ _
      exact nomatch h
  · have hdeframe : deframe ⟨pumpRead (ClientStream.opened .ws ⟨fun _ => 0, 64⟩ ⟨fun _ => 0, 0⟩
        fun _ _ => 0) ⟨[sampleFrame.encode], false, 3, []⟩, 3, 0⟩ = _ :=
      (loop_of_again deframeTurn_shrinks rfl).trans (loop_of_done deframeTurn_shrinks rfl)
    simp only [Session.start]
    rw [hdeframe]
    refine .again ?_ (rfl : _ = Turn.again _) (.done ?_ (rfl : _ = Turn.done _))
    · intro _ _
      decide
    · intro _ _
      decide

/-! ### A frame decrypted twice -/

section Retry

variable (s : ClientStream) (moved : ℕ) (env : PumpEnv) (f : WsFrame) (ks : Keystream)

/-- Strings that fit together fit one after the other. -/
theorem readsFit_of_length (reads : List Bytes) (r : RingBuf)
    (h : r.tail + reads.flatten.length ≤ r.cap) : ReadsFit reads r := by
  induction reads generalizing r with
  | nil => trivial
  | cons bs reads ih =>
    rw [List.flatten_cons, List.length_append] at h
    have hfit : r.tail + bs.length ≤ r.cap := by omega
    refine ⟨hfit, ih _ ?_⟩
    rw [(ringAppend_of_fits r bs hfit).2.2, ringAppend_cap]
    omega

/-- A pump that reads one frame into an empty `in_ring` finds that frame there, and the
cipher ready for its payload. -/
theorem pumpRead_frame (hmode : s.mode = .ws) (hctx : s.decryptCtx = some ⟨ks, moved⟩)
    (hempty : ringContents s.inRing = []) (htail : s.inRing.tail = 0)
    (hreads : env.reads.flatten = f.encode) (hlen : f.encode.length ≤ RING_CAP)
    (h0 : f.payload.length ≠ 0) :
    ringContents (pumpRead s env).inRing = f.encode ∧
      readFrame (pumpRead s env).mode (ringContents (pumpRead s env).inRing) =
        .frame f.payload f.payload.length f.encode.length ∧
      t3cAesCrypt (pumpRead s env).decryptCtx f.payload f.payload.length =
        some (⟨ks, moved + f.payload.length⟩, xorAt ks moved f.payload) := by
  have hpay := f.encode_length
  have hcontents : ringContents (pumpRead s env).inRing = f.encode := by
    rw [← hreads, ← List.nil_append env.reads.flatten, ← hempty]
    refine (sslReadIn_of_fits env.reads env.ended s.inRing (readsFit_of_length _ _ ?_) ?_).1
    · rw [htail, hreads, s.inRing_cap]
      omega
    · omega
  have hread := readFrame_encode (.ws f) [] (by
    simp only [RING_CAP] at hlen
    simp only [ServerFrame.encode]
    omega)
  rw [List.append_nil] at hread
  refine ⟨hcontents, ?_, ?_⟩
  · rw [hcontents, pumpRead, hmode]
    exact hread
  · rw [pumpRead, hctx]
    exact t3cAesCrypt_some _ _ h0 (by simp only [RING_CAP] at hlen; omega)

/-- The second loop does not use the cipher. -/
theorem deliver_decryptCtx (s : ClientStream) : (deliver s).1.decryptCtx = s.decryptCtx := by
  refine loop_inv (I := fun t => t.decryptCtx = s.decryptCtx)
    (Q := fun r => r.1.decryptCtx = s.decryptCtx) deliverTurn_shrinks ?_ ?_ rfl
  · intro t t' ht hturn
    simp only [deliverTurn] at hturn
    split_ifs at hturn <;> (cases hturn; exact ht)
  · intro t r ht hturn
    simp only [deliverTurn] at hturn
    split_ifs at hturn <;> (cases hturn; exact ht)

/-- **A pump that moves one frame** which leaves its message incomplete. -/
theorem pumpReady_moves (hmode : s.mode = .ws) (hctx : s.decryptCtx = some ⟨ks, moved⟩)
    (hempty : ringContents s.inRing = []) (htail : s.inRing.tail = 0)
    (hreasm : ringContents s.reasmIn = []) (hrtail : s.reasmIn.tail = 0)
    (hreads : env.reads.flatten = f.encode) (hlen : f.encode.length ≤ RING_CAP)
    (hm : env.mallocs ≠ 0) (m : WireMessage) (hpart : xorAt ks moved f.payload <+: m.encode)
    (h4 : 4 ≤ f.payload.length) (hshort : f.payload.length < 4 + m.payload.length) :
    let out := pumpReady s moved env
    out.1.mode = .ws ∧ out.1.decryptCtx = some ⟨ks, moved + f.payload.length⟩ ∧
      ringContents out.1.inRing = [] ∧ out.1.inRing.tail = 0 ∧
      ringUsed out.1.reasmIn = f.payload.length ∧ out.2 = moved + f.payload.length := by
  obtain ⟨hcontents, hread, hcrypt⟩ :=
    pumpRead_frame s moved env f ks hmode hctx hempty htail hreads hlen (by omega)
  have henc := f.encode_length
  have hused : ringUsed (pumpRead s env).inRing = f.encode.length := by
    rw [← ringContents_length, hcontents]
  have hfit : (pumpRead s env).reasmIn.tail + (xorAt ks moved f.payload).length ≤
      (pumpRead s env).reasmIn.cap := by
    rw [xorAt_length, (pumpRead s env).reasmIn_cap]
    simp only [pumpRead, hrtail]
    omega
  obtain ⟨hok, hafter, -⟩ := ringAppend_of_fits _ _ hfit
  set s1 := consumeIn (appendReasm { pumpRead s env with
    decryptCtx := some ⟨ks, moved + f.payload.length⟩ } (xorAt ks moved f.payload)).1
    f.encode.length with hs1
  have hturn : deframeTurn ⟨pumpRead s env, env.mallocs, moved⟩ =
      .again ⟨s1, env.mallocs - 1, moved + f.payload.length⟩ :=
    (deframeTurn_frame (by rw [hused]; omega) hread hm f.payload_lt hcrypt).trans
      (if_neg (not_not.mpr hok))
  have hin : ringUsed s1.inRing = 0 := by
    simp only [hs1, consumeIn, appendReasm, ringUsed_ringConsume, hused]
    omega
  have hreasm1 : ringContents s1.reasmIn = xorAt ks moved f.payload := by
    simp only [hs1, consumeIn, appendReasm, hafter]
    simp only [pumpRead, hreasm, List.nil_append]
  have hdone : deframeTurn ⟨s1, env.mallocs - 1, moved + f.payload.length⟩ =
      .done (⟨s1, env.mallocs - 1, moved + f.payload.length⟩, 0) := by
    simp only [deframeTurn, ringContents_length, hin, if_true]
  have hdeframe : deframe ⟨pumpRead s env, env.mallocs, moved⟩ =
      (⟨s1, env.mallocs - 1, moved + f.payload.length⟩, 0) :=
    (loop_of_again _ hturn).trans (loop_of_done _ hdone)
  have hrused : ringUsed s1.reasmIn = f.payload.length := by
    rw [← ringContents_length, hreasm1, xorAt_length]
  have hwire : wireLength (ringContents s1.reasmIn) = m.payload.length := by
    rw [hreasm1]
    refine m.wireLength_of_prefix [] ?_ (by rw [xorAt_length]; exact h4)
    rw [List.append_nil]
    exact hpart
  have hm4 := m.le_length
  have hm22 := m.length_le
  have hdeliver : deliver s1 = (s1, 0) :=
    loop_of_done _ (deliverTurn_wait (Or.inr ⟨by omega, by omega, by omega⟩))
  have hprocess : processIncoming ⟨pumpRead s env, env.mallocs, moved⟩ =
      (⟨s1, env.mallocs - 1, moved + f.payload.length⟩, 0) := by
    simp only [processIncoming, hdeframe, hdeliver]
    rfl
  simp only [pumpReady, hprocess]
  refine ⟨hmode, rfl, ?_, ?_, hrused, trivial⟩
  · exact List.length_eq_zero_iff.mp ((ringContents_length _).trans hin)
  · exact ringConsume_tail_of_le _ _ hused.le

/-- **A pump whose frame is refused**: the cipher moves on, the books do not. -/
theorem pumpReady_refused (hmode : s.mode = .ws) (hctx : s.decryptCtx = some ⟨ks, moved⟩)
    (hempty : ringContents s.inRing = []) (htail : s.inRing.tail = 0)
    (hreads : env.reads.flatten = f.encode) (hlen : f.encode.length ≤ RING_CAP)
    (hm : env.mallocs ≠ 0) (h0 : f.payload.length ≠ 0)
    (hfull : RING_CAP < ringUsed s.reasmIn + f.payload.length) :
    (pumpReady s moved env).1.decryptCtx = some ⟨ks, moved + f.payload.length⟩ ∧
      (pumpReady s moved env).2 = moved := by
  obtain ⟨hcontents, hread, hcrypt⟩ :=
    pumpRead_frame s moved env f ks hmode hctx hempty htail hreads hlen h0
  have henc := f.encode_length
  have hused : ringUsed (pumpRead s env).inRing = f.encode.length := by
    rw [← ringContents_length, hcontents]
  have hrefused : (ringAppend (pumpRead s env).reasmIn (xorAt ks moved f.payload)).2 ≠ 0 := by
    intro hok
    rw [ringAppend_ok_iff, xorAt_length, (pumpRead s env).reasmIn_cap] at hok
    simp only [pumpRead] at hok
    omega
  have hturn := (deframeTurn_frame (by rw [hused]; omega) hread hm f.payload_lt hcrypt :
    deframeTurn ⟨pumpRead s env, env.mallocs, moved⟩ = _).trans (if_pos hrefused)
  have hdeframe : deframe ⟨pumpRead s env, env.mallocs, moved⟩ = _ := loop_of_done _ hturn
  simp only [pumpReady, processIncoming, hdeframe, lt_irrefl, if_false, pumpFlush,
    deliver_decryptCtx]
  exact ⟨rfl, trivial⟩

/-- The state after two pumps. -/
theorem finish_two_pumps (env' : PumpEnv) :
    let x := finish Session.step (Session.start s) [.pump env, .pump env']
    x.stream = (pumpReady (pumpReady s 0 env).1 (pumpReady s 0 env).2 env').1 ∧
      x.moved = (pumpReady (pumpReady s 0 env).1 (pumpReady s 0 env).2 env').2 :=
  ⟨rfl, rfl⟩

/-- The bytes received after one pump. -/
theorem step_pump_received :
    ((Session.start s).step (.pump env)).received = ringContents s.inRing ++ env.reads.flatten :=
  rfl

end Retry

/-- A string of zeros. -/
@[irreducible] def zeros (n : ℕ) : Bytes := List.replicate n 0

@[simp] theorem zeros_length (n : ℕ) : (zeros n).length = n := by
  unfold zeros
  exact List.length_replicate

theorem zeros_add (a b : ℕ) : zeros (a + b) = zeros a ++ zeros b := by
  unfold zeros
  exact List.replicate_add a b 0

theorem zeros_flatten (k n : ℕ) : (List.replicate k (zeros n)).flatten = zeros (k * n) := by
  unfold zeros
  exact List.flatten_replicate_replicate

theorem xorAt_zero (pos : ℕ) (bs : Bytes) : xorAt (fun _ => 0) pos bs = bs := by
  induction bs generalizing pos with
  | nil => rfl
  | cons b bs ih => rw [xorAt, ih, UInt8.xor_zero]

/-- A message of 4 MiB. -/
def longMessage : WireMessage where
  quickAck := false
  payload := zeros (2 ^ 22)
  le_length := by rw [zeros_length]; decide
  length_le := by rw [zeros_length]

theorem longMessage_encode : longMessage.encode = le32 (2 ^ 22) ++ zeros (2 ^ 22) := by
  simp only [WireMessage.encode, longMessage, zeros_length, Bool.false_eq_true, if_false,
    Nat.add_zero]

/-- The frame that brings the message but for its last 16384 bytes. -/
def firstFrame : WsFrame where
  first := 0x82
  payload := le32 (2 ^ 22) ++ zeros (255 * 16384)
  opcode := WsFrame.binary_opcode
  reserved := WsFrame.binary_reserved
  payload_lt := by rw [List.length_append, zeros_length, le32_length]; decide

/-- The frame that completes the message and brings the same message again. -/
def secondFrame : WsFrame where
  first := 0x82
  payload := zeros 16384 ++ longMessage.encode
  opcode := WsFrame.binary_opcode
  reserved := WsFrame.binary_reserved
  payload_lt := by
    rw [List.length_append, zeros_length, longMessage_encode, List.length_append, zeros_length,
      le32_length]
    decide

theorem firstFrame_length : firstFrame.payload.length = 4 + 255 * 16384 := by
  rw [firstFrame, List.length_append, zeros_length, le32_length]

theorem secondFrame_length : secondFrame.payload.length = 16384 + (4 + 2 ^ 22) := by
  rw [secondFrame, List.length_append, zeros_length, longMessage_encode, List.length_append,
    zeros_length, le32_length]

theorem frames_payload : firstFrame.payload ++ secondFrame.payload =
    longMessage.encode ++ longMessage.encode := by
  have hzeros : zeros (2 ^ 22) = zeros (255 * 16384) ++ zeros 16384 := zeros_add (255 * 16384) 16384
  rw [firstFrame, secondFrame]
  simp only
  rw [longMessage_encode, hzeros]
  simp only [List.append_assoc]

/-- The conversation of the two frames, under a keystream of zeros. -/
def longConversation : Conversation where
  mode := .ws
  frames := [.ws firstFrame, .ws secondFrame]
  ks := fun _ => 0
  messages := [longMessage, longMessage]
  frames_mode := by simp [ServerFrame.mode]
  carried := by
    rw [xorAt_zero]
    simp only [List.flatMap_cons, List.flatMap_nil, List.append_nil, ServerFrame.payload]
    exact ⟨[], (List.append_nil _).trans frames_payload⟩

/-- What TLS delivers of the first frame, in reads of at most 16384 bytes. -/
def firstReads : List Bytes :=
  (firstFrame.header ++ le32 (2 ^ 22)) :: List.replicate 255 (zeros 16384)

/-- What TLS delivers of the second frame. -/
def secondReads : List Bytes :=
  secondFrame.header :: zeros 16384 :: le32 (2 ^ 22) :: List.replicate 256 (zeros 16384)

theorem firstReads_flatten : firstReads.flatten = firstFrame.encode := by
  rw [firstReads, List.flatten_cons, zeros_flatten, WsFrame.encode, List.append_assoc]
  rfl

theorem secondReads_flatten : secondReads.flatten = secondFrame.encode := by
  have hpay : secondFrame.payload = zeros 16384 ++ longMessage.encode := rfl
  simp only [secondReads, List.flatten_cons]
  rw [zeros_flatten, WsFrame.encode, hpay, longMessage_encode, show 256 * 16384 = 2 ^ 22 by decide]

/-- **A frame decrypted twice.**  The first pump moves all but the end of a message into
`reasm_in`.  The payload of the next frame does not fit beside it; the second pump
has decrypted that payload by the time the append is refused, so the cipher stands
4 MiB ahead of the bytes moved. -/
theorem clientRun_not_sound :
    ¬ ∀ (conv : Conversation) (s : ClientStream) (es : List ClientEvent), Opening conv s →
      Along Session.step (Session.Legal conv) (Session.start s) es →
        Throughout Session.step (Session.Sound conv) (Session.start s) es := by
  intro h
  set s0 := ClientStream.opened .ws ⟨fun _ => 0, 64⟩ ⟨fun _ => 0, 0⟩ fun _ _ => 0 with hs0
  set env1 : PumpEnv := ⟨firstReads, false, 1, []⟩ with henv1
  set env2 : PumpEnv := ⟨secondReads, false, 1, []⟩ with henv2
  have hs0in : ringContents s0.inRing = [] := rfl
  have hl1 := firstFrame_length
  have hl2 := secondFrame_length
  have he1 := firstFrame.encode_length
  have he2 := secondFrame.encode_length
  have hh1 := firstFrame.header_length.2
  have hh2 := secondFrame.header_length
  -- The first pump.
  have hpart : xorAt (fun _ => 0) 0 firstFrame.payload <+: longMessage.encode := by
    rw [xorAt_zero]
    have hboth : firstFrame.payload <+: longMessage.encode ++ longMessage.encode := by
      rw [← frames_payload]
      exact List.prefix_append _ _
    refine List.prefix_of_prefix_length_le hboth (List.prefix_append _ _) ?_
    rw [hl1, longMessage.encode_length, show longMessage.payload = zeros (2 ^ 22) from rfl,
      zeros_length]
    omega
  have hlong : longMessage.payload.length = 2 ^ 22 := by
    rw [show longMessage.payload = zeros (2 ^ 22) from rfl, zeros_length]
  have hrun1 := pumpReady_moves s0 0 env1 firstFrame (fun _ => 0) rfl rfl rfl rfl rfl rfl firstReads_flatten
    (by simp only [RING_CAP]; omega) (by decide) longMessage hpart (by omega) (by omega)
  obtain ⟨hmode, hctx, hempty, htail, hreasm, hmoved⟩ := hrun1
  -- The second pump.
  have hrun2 := pumpReady_refused (pumpReady s0 0 env1).1 (pumpReady s0 0 env1).2 env2
    secondFrame (fun _ => 0) hmode (by rw [hmoved]; exact hctx) hempty
    htail secondReads_flatten (by simp only [RING_CAP]; omega) (by decide) (by omega)
    (by simp only [RING_CAP]; omega)
  have hstream : longConversation.stream = firstFrame.encode ++ secondFrame.encode := by
    simp only [Conversation.stream, longConversation, List.flatMap_cons, List.flatMap_nil,
      List.append_nil, ServerFrame.encode]
  have hsmall : ∀ bs ∈ List.replicate 256 (zeros 16384), 0 < bs.length ∧ bs.length ≤ 16384 := by
    intro bs hbs
    rw [List.eq_of_mem_replicate hbs, zeros_length]
    omega
  have hlegal : Along Session.step (Session.Legal longConversation) (Session.start s0)
      [.pump env1, .pump env2] := by
    refine ⟨⟨?_, ?_⟩, ⟨?_, ?_⟩, trivial⟩
    · rw [hstream, Session.start, hs0in, List.nil_append, firstReads_flatten]
      exact List.prefix_append _ _
    · intro bs hbs
      rcases List.mem_cons.mp hbs with rfl | hbs
      · rw [List.length_append, le32_length]
        omega
      · exact hsmall bs (List.mem_replicate.mpr ⟨by decide, List.eq_of_mem_replicate hbs⟩)
    · rw [hstream, step_pump_received, hs0in, List.nil_append, firstReads_flatten]
      exact secondReads_flatten ▸ List.prefix_refl _
    · intro bs hbs
      simp only [henv2, secondReads, List.mem_cons] at hbs
      rcases hbs with rfl | rfl | rfl | hbs
      · omega
      · rw [zeros_length]
        omega
      · rw [le32_length]
        omega
      · exact hsmall bs hbs
  have hsound := h longConversation s0 [.pump env1, .pump env2]
    (opening_opened longConversation ⟨fun _ => 0, 64⟩ fun _ _ => 0) hlegal
  obtain ⟨c, hc, hpos⟩ := hsound.finish.cipher_position
  obtain ⟨hstream2, hmoved2⟩ := finish_two_pumps s0 env1 env2
  rw [hstream2, hrun2.1] at hc
  rw [hmoved2, hrun2.2, ← Option.some.inj hc] at hpos
  simp only at hpos
  omega

end Client
end Teleproto3
