/-
# Messages out of a decrypted stream

What the second loop of `process_incoming` does to a decrypted stream that consists of
messages and of single bytes `T3_PADDING_MARKER` between them, and what the pump and
`t3_client_read` make of it.

The second loop skips a marker only where the four bytes that begin with it are no length
of a message; `MarkersSkip` is the condition for that, a condition on the messages behind
markers.  `Delivering` is the invariant: how far the stream has been cut, and how far the
messages have been handed to the caller.  The four things that move it on are a marker
skipped, a message queued, a message given to the caller, and the first loop's work.
-/

import Teleproto3.Client.Deframing

namespace Teleproto3
namespace Client

open Lib Wire

/-! ### Pieces -/

/-- What a decrypted stream consists of. -/
inductive Piece
  | marker
  | message (m : WireMessage)

/-- The bytes of a piece. -/
def Piece.encode : Piece → Bytes
  | .marker => [T3_PADDING_MARKER]
  | .message m => m.encode

/-- The message of a piece that is one. -/
def Piece.message? : Piece → Option WireMessage
  | .marker => none
  | .message m => some m

/-- The messages among the pieces. -/
def messagesAmong (ps : List Piece) : List WireMessage := ps.filterMap Piece.message?

/-- A message that does not make a length of a marker before it, where `k` markers stand
before it: of one marker and the three low bytes of its length, or of two and two. -/
def BehindMarkers (k : ℕ) (m : WireMessage) : Prop :=
  (0 < k → 2 ^ 14 ≤ m.payload.length) ∧ (1 < k → 64 ≤ m.payload.length % 2 ^ 15)

/-- No marker is taken for the start of a length, where `k` markers stand before the first
piece. -/
def MarkersSkip : ℕ → List Piece → Prop
  | _, [] => True
  | k, .marker :: ps => MarkersSkip (k + 1) ps
  | k, .message m :: ps => BehindMarkers k m ∧ MarkersSkip 0 ps

theorem MarkersSkip.of_append {k : ℕ} {ps qs : List Piece} (h : MarkersSkip k (ps ++ qs)) :
    ∃ j, MarkersSkip j qs := by
  induction ps generalizing k with
  | nil => exact ⟨k, h⟩
  | cons p ps ih =>
    cases p with
    | marker => exact ih h
    | message m => exact ih h.2

/-- Messages alone have no marker. -/
theorem markersSkip_messages (ms : List WireMessage) : MarkersSkip 0 (ms.map Piece.message) := by
  induction ms with
  | nil => trivial
  | cons m ms ih => exact ⟨⟨fun h => absurd h (lt_irrefl 0), fun h => absurd h (by decide)⟩, ih⟩

theorem messages_encode (ms : List WireMessage) :
    (ms.map Piece.message).flatMap Piece.encode = ms.flatMap WireMessage.encode := by
  rw [List.flatMap_map]
  rfl

theorem messagesAmong_messages (ms : List WireMessage) :
    messagesAmong (ms.map Piece.message) = ms := by
  rw [messagesAmong, List.filterMap_map]
  exact List.filterMap_some

theorem messagesAmong_append (ps qs : List Piece) :
    messagesAmong (ps ++ qs) = messagesAmong ps ++ messagesAmong qs :=
  List.filterMap_append

theorem T3_PADDING_MARKER_toNat : T3_PADDING_MARKER.toNat = 254 := rfl

/-- The length in front of a message, with the quick-ack bit. -/
theorem WireMessage.encode_eq (m : WireMessage) :
    ∃ n, n % 2 ^ 31 = m.payload.length ∧ m.encode = le32 n ++ m.payload := by
  have hle := m.length_le
  refine ⟨m.payload.length + if m.quickAck then 2 ^ 31 else 0, ?_, rfl⟩
  split_ifs <;> omega

/-- **Four bytes that begin with a marker are no length.** -/
theorem wireLength_marker {k : ℕ} {ps : List Piece} (h : MarkersSkip k (.marker :: ps))
    (h4 : 4 ≤ ((Piece.marker :: ps).flatMap Piece.encode).length) :
    2 ^ 22 < wireLength ((Piece.marker :: ps).flatMap Piece.encode) := by
  cases ps with
  | nil => exact absurd h4 (by decide)
  | cons p ps =>
    cases p with
    | message m =>
      obtain ⟨⟨hone, -⟩, -⟩ := h
      have hlen := hone (Nat.succ_pos k)
      obtain ⟨n, hn, hm⟩ := m.encode_eq
      simp only [List.flatMap_cons, Piece.encode, hm, le32, List.cons_append, List.nil_append,
        wireLength, readLe32, UInt8.toNat_ofNat', T3_PADDING_MARKER_toNat]
      have := m.length_le
      omega
    | marker =>
      cases ps with
      | nil => exact absurd h4 (by decide)
      | cons p ps =>
        cases p with
        | message m =>
          obtain ⟨⟨-, htwo⟩, -⟩ := h
          have hlen := htwo (Nat.succ_lt_succ (Nat.succ_pos k))
          obtain ⟨n, hn, hm⟩ := m.encode_eq
          simp only [List.flatMap_cons, Piece.encode, hm, le32, List.cons_append, List.nil_append,
            wireLength, readLe32, UInt8.toNat_ofNat', T3_PADDING_MARKER_toNat]
          have := m.length_le
          omega
        | marker =>
          cases ps with
          | nil => exact absurd h4 (by decide)
          | cons p ps =>
            have hnext : ∃ b rest, (p :: ps).flatMap Piece.encode = b :: rest := by
              cases p with
              | marker => exact ⟨_, _, rfl⟩
              | message m => exact ⟨_, _, rfl⟩
            obtain ⟨b, rest, hb⟩ := hnext
            rw [List.flatMap_cons, List.flatMap_cons, List.flatMap_cons, hb]
            simp only [Piece.encode, List.cons_append, List.nil_append, wireLength, readLe32,
              T3_PADDING_MARKER_toNat]
            omega

/-- A length is read off the first four bytes. -/
theorem wireLength_of_prefix {p l : Bytes} (h : p <+: l) (h4 : 4 ≤ p.length) :
    wireLength p = wireLength l := by
  obtain ⟨t, rfl⟩ := h
  match p, h4 with
  | a :: b :: c :: d :: p, _ => rfl

/-! ### The invariant -/

/-- Frames of one mode whose payloads, decrypted, spell pieces, the last of which may be
incomplete; no marker is taken for a length. -/
structure PieceStream where
  mode : T3cMode
  frames : List ServerFrame
  ks : Keystream
  pieces : List Piece
  frames_mode : ∀ f ∈ frames, f.mode = mode
  carried : xorAt ks 0 (frames.flatMap ServerFrame.payload) <+: pieces.flatMap Piece.encode
  skip : MarkersSkip 0 pieces

/-- How far a stream of pieces has come: `past` and `left` are the pieces cut off and those
still to come, `given` and `queued` the messages returned to the caller and those waiting in
`plain_in`. -/
structure DeliveringAt (ps : PieceStream) (received : Bytes) (returned : List Bytes)
    (s : ClientStream) (moved : ℕ) (past left : List Piece) (given queued : List WireMessage) :
    Prop where
  deframing : Deframing ps.mode ps.frames ps.ks received (past.flatMap Piece.encode) s moved
  pieces_eq : ps.pieces = past ++ left
  taken : messagesAmong past = given ++ queued
  returned_eq : returned = given.map WireMessage.payload
  plain_eq : ringContents s.plainIn = queued.flatMap WireMessage.encode
  plain_tail : s.plainIn.tail ≤ s.plainIn.cap

/-- **The invariant.**  The stream has come some way. -/
def Delivering (ps : PieceStream) (received : Bytes) (returned : List Bytes) (s : ClientStream)
    (moved : ℕ) : Prop :=
  ∃ past left given queued, DeliveringAt ps received returned s moved past left given queued

namespace DeliveringAt

variable {ps : PieceStream} {received : Bytes} {returned : List Bytes} {s : ClientStream}
  {moved : ℕ} {past left : List Piece} {given queued : List WireMessage}

/-- What is in `reasm_in` is a prefix of the pieces still to come. -/
theorem reasm_prefix (h : DeliveringAt ps received returned s moved past left given queued) :
    ringContents s.reasmIn <+: left.flatMap Piece.encode := by
  obtain ⟨done, rest, hat⟩ := h.deframing
  have hcar := ps.carried
  rw [hat.frames_eq, List.flatMap_append, xorAt_append, ← hat.reasm_eq, h.pieces_eq,
    List.flatMap_append] at hcar
  have hp := (List.prefix_append _ _).trans hcar
  exact (List.prefix_append_right_inj _).mp hp

theorem ready (h : DeliveringAt ps received returned s moved past left given queued) :
    s.state = .ready := by
  obtain ⟨done, rest, hat⟩ := h.deframing
  exact hat.ready

/-- **What a turn of the second loop finds**: too little for a piece, a marker, or a
message. -/
theorem front (h : DeliveringAt ps received returned s moved past left given queued) :
    (deliverTurn s = .done (s, 0) ∧
      (ringUsed s.reasmIn < 4 ∨ ∃ m left', left = .message m :: left' ∧
        ringUsed s.reasmIn < 4 + m.payload.length)) ∨
    (∃ left', left = .marker :: left' ∧ deliverTurn s = .again (consumeReasm s 1) ∧
      (ringContents s.reasmIn).take 1 = [T3_PADDING_MARKER]) ∨
    ∃ m left', left = .message m :: left' ∧
      (ringContents s.reasmIn).take (4 + m.payload.length) = m.encode ∧
      wireLength (ringContents s.reasmIn) = m.payload.length ∧
      4 + m.payload.length ≤ ringUsed s.reasmIn := by
  have hp := h.reasm_prefix
  have hlen := ringContents_length s.reasmIn
  by_cases h4 : ringUsed s.reasmIn < 4
  · exact Or.inl ⟨deliverTurn_wait (Or.inl h4), Or.inl h4⟩
  cases left with
  | nil =>
    rw [List.flatMap_nil] at hp
    rw [List.prefix_nil.mp hp, List.length_nil] at hlen
    omega
  | cons p left' =>
    cases p with
    | marker =>
      obtain ⟨k, hskip⟩ := MarkersSkip.of_append (h.pieces_eq ▸ ps.skip)
      have hle := hp.length_le
      have hbad := wireLength_marker hskip (by omega)
      rw [← wireLength_of_prefix hp (by omega)] at hbad
      have hhead := getD_of_prefix hp (i := 0) (by omega) 0
      refine Or.inr (Or.inl ⟨left', rfl, ?_, ?_⟩)
      · simp only [deliverTurn, ringContents_length]
        rw [if_neg h4, if_pos (Or.inr hbad), if_pos (by rw [hhead]; rfl)]
      · cases hc : ringContents s.reasmIn with
        | nil =>
          rw [hc, List.length_nil] at hlen
          omega
        | cons b rest =>
          rw [hc] at hhead
          exact congrArg (fun b => [b]) hhead
    | message m =>
      rw [List.flatMap_cons] at hp
      have hw := m.wireLength_of_prefix _ hp (by omega)
      have hm4 := m.le_length
      have hm22 := m.length_le
      rcases prefix_append_cases hp with ⟨-, hlt⟩ | ⟨q, hq, -⟩
      · rw [hlen, Piece.encode, m.encode_length] at hlt
        exact Or.inl ⟨deliverTurn_wait (Or.inr ⟨by omega, by omega, by omega⟩),
          Or.inr ⟨m, left', rfl, hlt⟩⟩
      · refine Or.inr (Or.inr ⟨m, left', rfl, ?_, hw, ?_⟩)
        · rw [hq, Piece.encode, List.take_left' m.encode_length]
        · rw [← hlen, hq, List.length_append, Piece.encode, m.encode_length]
          omega

/-- A marker has been skipped. -/
theorem skipMarker {left' : List Piece}
    (h : DeliveringAt ps received returned s moved past (.marker :: left') given queued)
    (hm : (ringContents s.reasmIn).take 1 = [T3_PADDING_MARKER]) :
    DeliveringAt ps received returned (consumeReasm s 1) moved (past ++ [.marker]) left' given
      queued where
  deframing := by
    obtain ⟨done, rest, hat⟩ := h.deframing
    rw [flatMap_concat]
    exact ⟨done, rest, hat.cutOff hm⟩
  pieces_eq := by rw [h.pieces_eq, List.append_assoc, List.singleton_append]
  taken := by
    rw [messagesAmong_append, h.taken]
    exact List.append_nil _
  returned_eq := h.returned_eq
  plain_eq := h.plain_eq
  plain_tail := h.plain_tail

/-- A message has been cut out of `reasm_in` and queued for the caller. -/
theorem queue {m : WireMessage} {left' : List Piece}
    (h : DeliveringAt ps received returned s moved past (.message m :: left') given queued)
    (hm : (ringContents s.reasmIn).take (4 + m.payload.length) = m.encode)
    (hfit : s.plainIn.tail + (4 + m.payload.length) ≤ s.plainIn.cap) :
    DeliveringAt ps received returned
      (consumeReasm (appendPlain s m.encode).1 (4 + m.payload.length)) moved
      (past ++ [.message m]) left' given (queued ++ [m]) := by
  obtain ⟨-, hcontents, htail⟩ := ringAppend_of_fits s.plainIn m.encode
    (by rw [m.encode_length]; exact hfit)
  rw [m.encode_length] at htail
  exact {
    deframing := by
      obtain ⟨done, rest, hat⟩ := h.deframing
      rw [flatMap_concat]
      exact ⟨done, rest, (hat.setPlain (appendPlain s m.encode).1 rfl rfl rfl rfl rfl).cutOff hm⟩
    pieces_eq := by rw [h.pieces_eq, List.append_assoc, List.singleton_append]
    taken := by
      rw [messagesAmong_append, h.taken, List.append_assoc]
      rfl
    returned_eq := h.returned_eq
    plain_eq := by
      simp only [consumeReasm, appendPlain, hcontents]
      rw [h.plain_eq, flatMap_concat]
    plain_tail := by
      simp only [consumeReasm, appendPlain, htail, ringAppend_cap]
      exact hfit }

/-- An append to `plain_in` that was refused has only compacted the ring. -/
theorem refuse (bs : Bytes)
    (h : DeliveringAt ps received returned s moved past left given queued)
    (hfull : s.plainIn.cap < ringUsed s.plainIn + bs.length) :
    DeliveringAt ps received returned (appendPlain s bs).1 moved past left given queued := by
  have heq : (ringAppend s.plainIn bs).1 = ringCompact s.plainIn := by
    rcases ringAppend_cases s.plainIn bs with ⟨-, hroom, -⟩ | ⟨-, heq⟩
    · omega
    · rw [heq]
  exact {
    deframing := by
      obtain ⟨done, rest, hat⟩ := h.deframing
      exact ⟨done, rest, hat.setPlain (appendPlain s bs).1 rfl rfl rfl rfl rfl⟩
    pieces_eq := h.pieces_eq
    taken := h.taken
    returned_eq := h.returned_eq
    plain_eq := by
      simp only [appendPlain, heq, ringContents_ringCompact]
      exact h.plain_eq
    plain_tail := by
      simp only [appendPlain, heq, ringCompact_cap]
      exact (ringCompact_tail_le _).trans h.plain_tail }

/-- A message has been returned to the caller. -/
theorem give {m : WireMessage} {queued' : List WireMessage}
    (h : DeliveringAt ps received returned s moved past left given (m :: queued'))
    (hcap : (ringConsume s.plainIn (4 + m.payload.length)).cap = RING_CAP) :
    DeliveringAt ps received (returned ++ [m.payload])
      { s with plainIn := ringConsume s.plainIn (4 + m.payload.length), plainIn_cap := hcap }
      moved past left (given ++ [m]) queued' where
  deframing := by
    obtain ⟨done, rest, hat⟩ := h.deframing
    exact ⟨done, rest, hat.setPlain _ rfl rfl rfl rfl rfl⟩
  pieces_eq := h.pieces_eq
  taken := by rw [h.taken, List.append_assoc, List.singleton_append]
  returned_eq := by
    rw [h.returned_eq, List.map_append, List.map_singleton]
  plain_eq := by
    simp only [ringContents_ringConsume]
    rw [h.plain_eq, List.flatMap_cons, List.drop_left' m.encode_length]
  plain_tail := by
    simp only [ringConsume_cap]
    exact (ringConsume_tail_le _ _).trans h.plain_tail

end DeliveringAt

/-- The messages returned are the first ones of the stream, and the cipher stands behind the
payloads moved. -/
theorem Delivering.books {ps : PieceStream} {received : Bytes} {returned : List Bytes}
    {s : ClientStream} {moved : ℕ} (h : Delivering ps received returned s moved) :
    returned <+: (messagesAmong ps.pieces).map WireMessage.payload ∧
      ∃ c, s.decryptCtx = some c ∧ c.pos = moved := by
  obtain ⟨past, left, given, queued, hat⟩ := h
  obtain ⟨done, rest, hd⟩ := hat.deframing
  refine ⟨?_, _, hd.ctx, rfl⟩
  rw [hat.returned_eq, hat.pieces_eq, messagesAmong_append, hat.taken, List.append_assoc,
    List.map_append]
  exact List.prefix_append _ _

/-! ### The steps -/

section Steps

variable {ps : PieceStream} {received : Bytes} {returned : List Bytes}

/-- The first loop takes frames off the stream. -/
theorem deframe_delivering (x : Incoming) (h : Delivering ps received returned x.stream x.moved)
    (hfits : EachTurn deframeTurn DeframeFits x) :
    Delivering ps received returned (deframe x).1.stream (deframe x).1.moved := by
  obtain ⟨past, left, given, queued, hat⟩ := h
  obtain ⟨hdeframing, hplain⟩ := deframe_deframing x hat.deframing hfits
  refine ⟨past, left, given, queued, { hat with
    deframing := hdeframing
    plain_eq := ?_
    plain_tail := ?_ }⟩
  · rw [hplain]
    exact hat.plain_eq
  · rw [hplain]
    exact hat.plain_tail

/-- A turn that starts another one skips a marker or cuts a message. -/
theorem Delivering.again {s s' : ClientStream} {moved : ℕ}
    (h : Delivering ps received returned s moved) (hfit : DeliverFits s)
    (hturn : deliverTurn s = .again s') : Delivering ps received returned s' moved := by
  obtain ⟨past, left, given, queued, hat⟩ := h
  rcases hat.front with ⟨hdone, -⟩ | ⟨left', rfl, hagain, htake⟩ | ⟨m, left', rfl, htake, hw, hlen⟩
  · exact nomatch hdone.symm.trans hturn
  · rw [← Turn.again.inj (hagain.symm.trans hturn)]
    exact ⟨_, _, _, _, hat.skipMarker htake⟩
  · rw [deliverTurn_message hw m.le_length m.length_le hlen, htake] at hturn
    split_ifs at hturn with hacc
    rw [← Turn.again.inj hturn]
    have hroom := (ringAppend_ok_iff _ _).mp (not_not.mp hacc)
    rw [m.encode_length] at hroom
    unfold DeliverFits at hfit
    rw [hw] at hfit
    exact ⟨_, _, _, _, hat.queue htake (hfit hlen hroom)⟩

/-- The second loop skips markers and cuts messages, and returns `0`. -/
theorem deliver_delivering (s : ClientStream) (moved : ℕ)
    (h : Delivering ps received returned s moved) (hfits : EachTurn deliverTurn DeliverFits s) :
    Delivering ps received returned (deliver s).1 moved ∧ (deliver s).2 = 0 := by
  refine loop_inv_of_eachTurn (I := fun s => Delivering ps received returned s moved)
    (Q := fun r => Delivering ps received returned r.1 moved ∧ r.2 = 0)
    deliverTurn_shrinks (fun s s' h hfit hturn => h.again hfit hturn) ?_ h hfits
  rintro s r ⟨past, left, given, queued, hat⟩ hfit hturn
  rcases hat.front with ⟨hdone, -⟩ | ⟨left', rfl, hagain, htake⟩ | ⟨m, left', rfl, htake, hw, hlen⟩
  · rw [← Turn.done.inj (hdone.symm.trans hturn)]
    exact ⟨⟨_, _, _, _, hat⟩, rfl⟩
  · exact nomatch hagain.symm.trans hturn
  · rw [deliverTurn_message hw m.le_length m.length_le hlen, htake] at hturn
    split_ifs at hturn with hacc
    rw [← Turn.done.inj hturn]
    have hroom : s.plainIn.cap < ringUsed s.plainIn + m.encode.length := by
      by_contra hle
      exact hacc ((ringAppend_ok_iff _ _).mpr (by omega))
    exact ⟨⟨_, _, _, _, hat.refuse m.encode hroom⟩, rfl⟩

/-- What waits in `plain_in` stays there. -/
theorem deliver_plain (s : ClientStream) :
    ringContents s.plainIn <+: ringContents (deliver s).1.plainIn := by
  have happend (t : ClientStream) (bs : Bytes) :
      ringContents t.plainIn <+: ringContents (appendPlain t bs).1.plainIn := by
    simp only [appendPlain, ringContents_ringAppend]
    split_ifs
    · exact List.prefix_append _ _
    · exact List.prefix_refl _
  refine loop_inv (I := fun t => ringContents s.plainIn <+: ringContents t.plainIn)
    (Q := fun r => ringContents s.plainIn <+: ringContents r.1.plainIn) deliverTurn_shrinks ?_ ?_
    (List.prefix_refl _)
  · intro t t' ht hturn
    simp only [deliverTurn] at hturn
    split_ifs at hturn
    · cases hturn
      exact ht
    · cases hturn
      exact ht.trans (happend t _)
  · intro t r ht hturn
    simp only [deliverTurn] at hturn
    split_ifs at hturn
    · cases hturn
      exact ht
    · cases hturn
      exact ht
    · cases hturn
      exact ht
    · cases hturn
      exact ht.trans (happend t _)

/-- A pump preserves the invariant. -/
theorem pumpReady_delivering (s : ClientStream) (moved : ℕ) (env : PumpEnv)
    (h : Delivering ps received returned s moved)
    (hlegal : received ++ env.reads.flatten <+: ps.frames.flatMap ServerFrame.encode)
    (hreads : ReadsFit env.reads s.inRing)
    (hdeframe : EachTurn deframeTurn DeframeFits ⟨pumpRead s env, env.mallocs, moved⟩)
    (hdeliver : EachTurn deliverTurn DeliverFits
      (deframe ⟨pumpRead s env, env.mallocs, moved⟩).1.stream) :
    Delivering ps (received ++ env.reads.flatten) returned (pumpReady s moved env).1
      (pumpReady s moved env).2 := by
  obtain ⟨past, left, given, queued, hat⟩ := h
  obtain ⟨done, rest, hd⟩ := hat.deframing
  have hread : Delivering ps (received ++ env.reads.flatten) returned (pumpRead s env) moved :=
    ⟨past, left, given, queued,
      { hat with deframing := ⟨done, rest, hd.read env hlegal hreads⟩ }⟩
  have hfirst := deframe_delivering ⟨pumpRead s env, env.mallocs, moved⟩ hread hdeframe
  have hflush : ∀ {t : ClientStream} {n : ℕ},
      Delivering ps (received ++ env.reads.flatten) returned t n →
        Delivering ps (received ++ env.reads.flatten) returned (pumpFlush t env) n := by
    rintro t n ⟨past, left, given, queued, hat⟩
    obtain ⟨done, rest, hd⟩ := hat.deframing
    exact ⟨past, left, given, queued,
      { hat with deframing := ⟨done, rest, hd.setPlain (pumpFlush t env) rfl rfl rfl rfl rfl⟩ }⟩
  unfold pumpReady processIncoming
  by_cases hneg : (deframe ⟨pumpRead s env, env.mallocs, moved⟩).2 < 0
  · simp only [if_pos hneg]
    exact hflush hfirst
  · simp only [if_neg hneg]
    exact hflush (deliver_delivering _ _ hfirst hdeliver).1

/-- A read preserves the invariant, with the message it returns. -/
theorem t3ClientRead_delivering (s : ClientStream) (moved outCap : ℕ)
    (h : Delivering ps received returned s moved) :
    Delivering ps received
      (if (t3ClientRead s outCap).2.1 = .ok then returned ++ [(t3ClientRead s outCap).2.2]
        else returned) (t3ClientRead s outCap).1 moved := by
  obtain ⟨past, left, given, queued, hat⟩ := h
  have hlen := ringContents_length s.plainIn
  have hplain := hat.plain_eq
  rw [hplain] at hlen
  cases queued with
  | nil =>
    rw [List.flatMap_nil, List.length_nil] at hlen
    rw [t3ClientRead_short hat.ready (Or.inl (by omega))]
    exact ⟨_, _, _, _, hat⟩
  | cons m queued' =>
    rw [List.flatMap_cons] at hplain hlen
    have hw : wireLength (ringContents s.plainIn) = m.payload.length := by
      rw [hplain]
      exact m.wireLength_of_prefix _ (List.prefix_refl _)
        (by rw [List.length_append, m.encode_length]; omega)
    by_cases hcap : outCap < m.payload.length
    · rw [t3ClientRead_short hat.ready (Or.inr (by omega))]
      exact ⟨_, _, _, _, hat⟩
    · have htake : ((ringContents s.plainIn).drop 4).take m.payload.length = m.payload := by
        rw [hplain, WireMessage.encode, List.append_assoc, List.drop_left' (le32_length _),
          List.take_left]
      rw [List.length_append, m.encode_length] at hlen
      rw [t3ClientRead_ok hat.ready (by omega) (by omega)]
      simp only [hw, htake]
      exact ⟨_, _, _, _, hat.give _⟩

/-- **One call of the application** preserves the invariant where its appends fit. -/
theorem Session.step_delivering (x : Session) (e : ClientEvent)
    (h : Delivering ps x.received x.returned x.stream x.moved)
    (hlegal : ∀ env, e = .pump env →
      x.received ++ env.reads.flatten <+: ps.frames.flatMap ServerFrame.encode)
    (hfits : x.Fits e) :
    Delivering ps (x.step e).received (x.step e).returned (x.step e).stream (x.step e).moved := by
  cases e with
  | pump env =>
    exact pumpReady_delivering _ _ _ h (hlegal env rfl) hfits.1 hfits.2.1 hfits.2.2
  | read outCap => exact t3ClientRead_delivering _ _ _ h

end Steps

end Client
end Teleproto3
