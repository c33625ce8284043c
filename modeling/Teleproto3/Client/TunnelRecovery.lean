/-
# What the other end of a tunnel recovers

The messages of `tunnel_send`, taken apart by `process_incoming`, `t3_client_read` and
`tunnel_recv` (`lib/src/shim_socks5.c`, lines 258-284; `lib/src/t3_client_stream.c`, lines
566-592 and 760-804).

Three lengths stand one inside the other.  That of the chunk and that of the message fit every
payload, but the padded length has a minimum of four bytes, and a message of one byte without
padding has three.  `process_incoming` then refuses whatever is at the front of the stream, in
this call and in every later one, so `tunnelRun_recovers_iff` has that one exception.
-/

import Teleproto3.Client.ReceiveRuns
import Teleproto3.Client.Tunnel

namespace Teleproto3
namespace Client

open Lib Wire

/-! ### The peer -/

/-- The size of `msg` in `tunnel_recv`. -/
def MSG_BUF : ℕ := 2 + SHIM_BUF + 16

/-- What one turn of the loop of `tunnel_recv` takes from outside, and the buffer of the call. -/
structure RecvTurn where
  pump : PumpEnv
  /-- `fd_peer_closed` -/
  peerClosed : Bool
  /-- the deadline has passed -/
  timeUp : Bool
  /-- `poll` failed, and not because of a signal -/
  pollFailed : Bool
  /-- the size of `out` -/
  cap : ℕ

/-- One turn of the loop of `tunnel_recv`: the value it returns and what is in `out` then, or
nothing where another turn follows. -/
def tunnelRecvTurn (x : Session) (t : RecvTurn) : Session × Option (ℤ × Bytes) :=
  let x := x.step (.pump t.pump)
  let read := t3ClientRead x.stream MSG_BUF
  let x := x.step (.read MSG_BUF)
  if read.2.1 = .ok then
    let msg := read.2.2
    if msg.length < 2 then (x, some (-1, []))
    else
      let inner := readLe16 msg
      if inner > msg.length - 2 ∨ inner > t.cap then (x, some (-1, []))
      else (x, some (inner, (msg.drop 2).take inner))
  else if read.2.1 ≠ .bufTooSmall then (x, some (-1, []))
  else if x.stream.state = .error ∨ x.stream.state = .closed then (x, some (-1, []))
  else if t.peerClosed then (x, some (-1, []))
  else if t.timeUp then (x, some (0, []))
  else if t.pollFailed then (x, some (-1, []))
  else (x, none)

/-- The end that receives: its session, what the turn before returned, and the payloads its calls
have returned. -/
structure Peer where
  session : Session
  result : Option (ℤ × Bytes)
  payloads : List Bytes

namespace Peer

/-- A peer that has received nothing. -/
def start (s : ClientStream) : Peer := ⟨⟨s, [], 0, []⟩, none, []⟩

/-- One turn, of the call that goes on or of the next one. -/
def turn (x : Peer) (t : RecvTurn) : Peer where
  session := (tunnelRecvTurn x.session t).1
  result := (tunnelRecvTurn x.session t).2
  payloads :=
    match (tunnelRecvTurn x.session t).2 with
    | some (n, bs) => if 0 < n then x.payloads ++ [bs] else x.payloads
    | none => x.payloads

/-- A peer whose cipher is in step with the sender's, and in whose rings there is nothing. -/
structure Opening (c : CtrContext) (s : ClientStream) : Prop where
  ready : s.state = .ready
  mode : s.mode = .http
  ctx : s.decryptCtx = some ⟨fun i => c.ks (c.pos + i), 0⟩
  in_nil : ringContents s.inRing = []
  reasm_nil : ringContents s.reasmIn = []
  plain_nil : ringContents s.plainIn = []
  in_tail : s.inRing.tail ≤ s.inRing.cap
  reasm_tail : s.reasmIn.tail ≤ s.reasmIn.cap
  plain_tail : s.plainIn.tail ≤ s.plainIn.cap

/-- What a turn meets: TLS delivers the bytes of `out` in order, memory is there, what comes in
fits behind the write positions of the rings, and the buffer of the call holds any message. -/
structure Legal (out : Bytes) (x : Peer) (t : RecvTurn) : Prop where
  arrives : x.session.received ++ t.pump.reads.flatten <+: out
  reads : ∀ bs ∈ t.pump.reads, 0 < bs.length ∧ bs.length ≤ 16384
  memory : EachTurn deframeTurn (fun y => y.mallocs ≠ 0)
    ⟨pumpRead x.session.stream t.pump, t.pump.mallocs, x.session.moved⟩
  fits : x.session.Fits (.pump t.pump)
  buffer : SHIM_BUF ≤ t.cap

/-- **The payloads come back** in this turn, where `arrivedBy k` is what the sender emits for the
first `k` of them: in order, with no frame refused, no error that does not come from the socket,
and "no data" only as long as no message has arrived that was not returned. -/
structure Recovers (sent : List Bytes) (arrivedBy : ℕ → Bytes) (x : Peer) (t : RecvTurn) :
    Prop where
  in_order : (x.turn t).payloads <+: sent
  accepted : ¬ MeetsMalformed ⟨pumpRead x.session.stream t.pump, t.pump.mallocs, x.session.moved⟩
  no_error : ∀ bs, (x.turn t).result = some (-1, bs) → t.peerClosed ∨ t.pollFailed
  complete : ∀ bs, (x.turn t).result = some (0, bs) → ∀ k ≤ sent.length,
    arrivedBy k <+: (x.turn t).session.received → k ≤ (x.turn t).payloads.length

end Peer

/-! ### One message in a frame -/

/-- A stream whose frames carry one message each and are waited for until they are complete. -/
structure OnePerFrame (ps : PieceStream) (ws : List WireMessage) : Prop where
  pieces : ps.pieces = ws.map Piece.message
  length : ps.frames.length = ws.length
  carried : ∀ k, xorAt ps.ks 0 ((ps.frames.take k).flatMap ServerFrame.payload) =
    (ws.take k).flatMap WireMessage.encode
  payload_ne : ∀ f ∈ ps.frames, f.payload ≠ []
  waits : ∀ f ∈ ps.frames, ∀ p, p <+: f.encode → p.length < f.encode.length →
    readFrame ps.mode p = .needMore

section

variable {ps : PieceStream} {ws : List WireMessage} {received : Bytes} {returned : List Bytes}
  {s : ClientStream} {moved : ℕ} {past left : List Piece} {given queued : List WireMessage}

/-- **Where the second loop leaves nothing in `plain_in`**, there was nothing, and the next message
is not complete. -/
theorem DeliveringAt.idle (h : DeliveringAt ps received returned s moved past left given queued)
    (hmarker : Piece.marker ∉ left) (hempty : ringContents (deliver s).1.plainIn = []) :
    queued = [] ∧ (ringUsed s.reasmIn < 4 ∨ ∃ m left', left = .message m :: left' ∧
      ringUsed s.reasmIn < 4 + m.payload.length) := by
  have hplain : ringContents s.plainIn = [] := by
    have hp := deliver_plain s
    rw [hempty] at hp
    exact List.prefix_nil.mp hp
  constructor
  · have hqueued := h.plain_eq
    rw [hplain] at hqueued
    cases queued with
    | nil => rfl
    | cons m queued' =>
      have hlen := congrArg List.length hqueued
      rw [List.flatMap_cons, List.length_append, m.encode_length, List.length_nil] at hlen
      omega
  · rcases h.front with ⟨-, hshort⟩ | ⟨left', rfl, -, -⟩ | ⟨m, left', rfl, htake, hw, hlen⟩
    · exact hshort
    · exact absurd List.mem_cons_self hmarker
    · exfalso
      have hle := m.length_le
      have hused : ringUsed s.plainIn = 0 := by
        rw [← ringContents_length, hplain]
        rfl
      have hroom : ringUsed s.plainIn + m.encode.length ≤ s.plainIn.cap := by
        rw [hused, s.plainIn_cap, m.encode_length, RING_CAP]
        omega
      have hturn := deliverTurn_message hw m.le_length m.length_le hlen
      have hok : (appendPlain s m.encode).2 = 0 := (ringAppend_ok_iff _ _).mpr hroom
      rw [htake, if_neg (not_not.mpr hok)] at hturn
      have hnext : deliver s = deliver _ := loop_of_again deliverTurn_shrinks hturn
      have hp := deliver_plain (consumeReasm (appendPlain s m.encode).1 (4 + m.payload.length))
      rw [← hnext, hempty] at hp
      have hcontents := List.prefix_nil.mp hp
      simp only [consumeReasm, appendPlain, ringContents_ringAppend, if_pos hroom] at hcontents
      have hnil := congrArg List.length (List.append_eq_nil_iff.mp hcontents).2
      rw [m.encode_length, List.length_nil] at hnil
      omega

/-- **Frames that have arrived have been taken off the stream**, where the next one is not
complete. -/
theorem OnePerFrame.le_done (h : OnePerFrame ps ws) {done rest : List ServerFrame} {cut : Bytes}
    (hd : DeframingAt ps.mode ps.frames ps.ks received s moved done rest cut)
    (hstop : ∀ f rest', rest = f :: rest' → ¬ f.encode <+: ringContents s.inRing) {k : ℕ}
    (hk : k ≤ ws.length) (harrived : (ps.frames.take k).flatMap ServerFrame.encode <+: received) :
    k ≤ done.length := by
  by_contra hlt
  have hflen := congrArg List.length hd.frames_eq
  rw [h.length, List.length_append] at hflen
  cases rest with
  | nil =>
    rw [List.length_nil] at hflen
    omega
  | cons f rest' =>
    obtain ⟨n, hn⟩ : ∃ n, k = done.length + (n + 1) := ⟨k - done.length - 1, by omega⟩
    rw [hd.frames_eq, hn, List.take_length_add_append, List.take_succ_cons, hd.received_eq,
      List.flatMap_append, List.flatMap_cons, List.prefix_append_right_inj] at harrived
    exact hstop f rest' rfl ((List.prefix_append _ _).trans harrived)

/-- **What frames carry stands in `reasm_in`**, as far as it has not been cut: where the next message
is not complete there, all that has been taken off the stream has been cut. -/
theorem OnePerFrame.done_le (h : OnePerFrame ps ws) {done rest : List ServerFrame}
    {pastws leftws : List WireMessage}
    (hd : DeframingAt ps.mode ps.frames ps.ks received s moved done rest
      ((pastws.map Piece.message).flatMap Piece.encode)) (hws : ws = pastws ++ leftws)
    (hshort : ringUsed s.reasmIn < 4 ∨ ∃ m left', leftws.map Piece.message = .message m :: left' ∧
      ringUsed s.reasmIn < 4 + m.payload.length) : done.length ≤ pastws.length := by
  have hflen := congrArg List.length hd.frames_eq
  rw [h.length, List.length_append] at hflen
  by_contra hlt
  cases leftws with
  | nil =>
    have hwlen := congrArg List.length hws
    rw [List.append_nil] at hwlen
    omega
  | cons w leftws' =>
    have hreasm := hd.reasm_eq
    have htake : done = ps.frames.take done.length := by rw [hd.frames_eq, List.take_left]
    obtain ⟨n, hn⟩ : ∃ n, done.length = pastws.length + (n + 1) :=
      ⟨done.length - pastws.length - 1, by omega⟩
    rw [messages_encode] at hreasm
    rw [htake, h.carried, hws, hn, List.take_length_add_append, List.take_succ_cons,
      List.flatMap_append, List.flatMap_cons, List.append_cancel_left_eq] at hreasm
    have hlen := congrArg List.length hreasm
    rw [ringContents_length, List.length_append, w.encode_length] at hlen
    rcases hshort with hshort | ⟨m, left', heq, hshort⟩
    · omega
    · obtain ⟨hm, -⟩ := List.cons.inj heq
      obtain rfl := Piece.message.inj hm
      omega

/-- **A pump that leaves nothing in `plain_in` has caught up**: every message whose frame has
arrived has been returned.  And no frame is refused. -/
theorem OnePerFrame.pump (h : OnePerFrame ps ws) {env : PumpEnv}
    (hx : Delivering ps received returned s moved)
    (hlegal : received ++ env.reads.flatten <+: ps.frames.flatMap ServerFrame.encode)
    (hfits : (⟨s, received, moved, returned⟩ : Session).Fits (.pump env))
    (hmemory : EachTurn deframeTurn (fun y => y.mallocs ≠ 0)
      ⟨pumpRead s env, env.mallocs, moved⟩) :
    ¬ MeetsMalformed ⟨pumpRead s env, env.mallocs, moved⟩ ∧
      (ringContents (pumpReady s moved env).1.plainIn = [] → ∀ k ≤ ws.length,
        (ps.frames.take k).flatMap ServerFrame.encode <+: received ++ env.reads.flatten →
          k ≤ returned.length) := by
  obtain ⟨past, left, given, queued, hat⟩ := hx
  obtain ⟨done, rest, hd⟩ := hat.deframing
  have hread := hd.read env hlegal hfits.1
  obtain ⟨hzero, done, rest, hd, hstop⟩ := deframe_stops
    ⟨pumpRead s env, env.mallocs, moved⟩ ⟨_, _, hread⟩ hfits.2.1 hmemory h.payload_ne h.waits
  have hplain := (deframe_deframing ⟨pumpRead s env, env.mallocs, moved⟩ ⟨_, _, hread⟩
    hfits.2.1).2
  have hdeliver := hfits.2.2
  have hpump : (pumpReady s moved env).1.plainIn =
      (deliver (deframe ⟨pumpRead s env, env.mallocs, moved⟩).1.stream).1.plainIn := by
    simp only [pumpReady, processIncoming, hzero, lt_irrefl, if_false, pumpFlush]
  have hmalformed : MeetsMalformed ⟨pumpRead s env, env.mallocs, moved⟩ ↔
      (deliver (deframe ⟨pumpRead s env, env.mallocs, moved⟩).1.stream).2 < 0 := by
    unfold MeetsMalformed
    rw [hzero, if_neg (lt_irrefl 0)]
  rw [hpump, hmalformed]
  generalize (deframe ⟨pumpRead s env, env.mallocs, moved⟩).1 = y at *
  have hy : DeliveringAt ps (received ++ env.reads.flatten) returned y.stream y.moved past left
      given queued := { hat with
    deframing := ⟨done, rest, hd⟩
    plain_eq := by
      rw [hplain]
      exact hat.plain_eq
    plain_tail := by
      rw [hplain]
      exact hat.plain_tail }
  constructor
  · rw [(deliver_delivering _ _ ⟨_, _, _, _, hy⟩ hdeliver).2]
    exact lt_irrefl 0
  intro hempty k hk harrived
  obtain ⟨pastws, leftws, hws, rfl, rfl⟩ := List.map_eq_append_iff.mp
    (h.pieces.symm.trans hy.pieces_eq)
  have hmarker : Piece.marker ∉ leftws.map Piece.message := by
    intro hm
    obtain ⟨m, -, hm⟩ := List.mem_map.mp hm
    cases hm
  obtain ⟨rfl, hshort⟩ := hy.idle hmarker hempty
  have hreturned : returned.length = pastws.length := by
    have htaken := hy.taken
    rw [messagesAmong_messages, List.append_nil] at htaken
    rw [hy.returned_eq, List.length_map, htaken]
  rw [hreturned]
  exact (h.le_done hd hstop hk harrived).trans (h.done_le hd hws hshort)

/-- **What a read returns**: the next message where one waits in `plain_in`, and else nothing. -/
theorem Delivering.read (h : Delivering ps received returned s moved) {outCap : ℕ}
    (hcap : ∀ m ∈ messagesAmong ps.pieces, m.payload.length ≤ outCap) :
    (ringContents s.plainIn = [] ∧ t3ClientRead s outCap = (s, .bufTooSmall, [])) ∨
      (t3ClientRead s outCap).2.1 = .ok ∧ returned ++ [(t3ClientRead s outCap).2.2] <+:
        (messagesAmong ps.pieces).map WireMessage.payload := by
  obtain ⟨past, left, given, queued, hat⟩ := h
  have hlen := ringContents_length s.plainIn
  have hplain := hat.plain_eq
  rw [hplain] at hlen
  cases queued with
  | nil =>
    refine Or.inl ⟨hplain, t3ClientRead_short hat.ready (Or.inl ?_)⟩
    rw [List.flatMap_nil, List.length_nil] at hlen
    omega
  | cons m queued' =>
    have hm : m ∈ messagesAmong ps.pieces := by
      rw [hat.pieces_eq, messagesAmong_append, hat.taken]
      exact List.mem_append_left _ (List.mem_append_right _ List.mem_cons_self)
    have hle := hcap m hm
    rw [List.flatMap_cons] at hplain hlen
    have hw : wireLength (ringContents s.plainIn) = m.payload.length := by
      rw [hplain]
      exact m.wireLength_of_prefix _ (List.prefix_refl _)
        (by rw [List.length_append, m.encode_length]; omega)
    rw [List.length_append, m.encode_length] at hlen
    have hok : (t3ClientRead s outCap).2.1 = .ok := by
      rw [t3ClientRead_ok hat.ready (by omega) (by omega)]
    have hnext := t3ClientRead_delivering s moved outCap ⟨past, left, given, m :: queued', hat⟩
    rw [if_pos hok] at hnext
    exact Or.inr ⟨hok, hnext.books.1⟩

end

/-! ### The messages of a tunnel -/

/-- The condition: a message with its length and its padding has four bytes. -/
def TunnelSend.LongEnough (m : TunnelSend) : Prop :=
  ¬ (m.data.length = 1 ∧ m.write.paddingLen = 0)

/-- What is sent is messages of the padded intermediate form. -/
theorem exists_wireMessages {sends : List TunnelSend} (h : ∀ m ∈ sends, m.LongEnough) :
    ∃ ws : List WireMessage, ws.map WireMessage.payload = sends.map TunnelSend.wire ∧
      ∀ k, (ws.take k).flatMap WireMessage.encode = (sends.take k).flatMap TunnelSend.plain := by
  induction sends with
  | nil => exact ⟨[], rfl, fun k => by simp⟩
  | cons m sends ih =>
    obtain ⟨ws, hpayload, hencode⟩ := ih fun m' hm' => h m' (List.mem_cons_of_mem m hm')
    have hlong := h m List.mem_cons_self
    have hpos := m.data_pos
    have hle := m.data_le
    have hpad := paddingLen_le m.write
    have hlen := m.wire_length
    unfold TunnelSend.LongEnough at hlong
    unfold SHIM_BUF at hle
    refine ⟨⟨false, m.wire, by omega, by omega⟩ :: ws, ?_, fun k => ?_⟩
    · rw [List.map_cons, List.map_cons, hpayload]
    · cases k with
      | zero => rfl
      | succ k =>
        rw [List.take_succ_cons, List.take_succ_cons, List.flatMap_cons, List.flatMap_cons,
          hencode, m.plain_eq]
        rfl

section Chunks

variable (ks : Keystream)

theorem tunnelChunks_length (pos : ℕ) (sends : List TunnelSend) :
    (tunnelChunks ks pos sends).length = sends.length := by
  induction sends generalizing pos with
  | nil => rfl
  | cons m sends ih => simp only [tunnelChunks, List.length_cons, ih]

theorem tunnelChunks_take (pos : ℕ) (sends : List TunnelSend) (k : ℕ) :
    (tunnelChunks ks pos sends).take k = tunnelChunks ks pos (sends.take k) := by
  induction sends generalizing pos k with
  | nil => simp [tunnelChunks]
  | cons m sends ih =>
    cases k with
    | zero => rfl
    | succ k => simp only [tunnelChunks, List.take_succ_cons, ih]

/-- What the chunks carry is what was encrypted. -/
theorem tunnelChunks_payload (pos : ℕ) (sends : List TunnelSend) :
    (tunnelChunks ks pos sends).flatMap ServerFrame.payload =
      xorAt ks pos (sends.flatMap TunnelSend.plain) := by
  induction sends generalizing pos with
  | nil => rfl
  | cons m sends ih =>
    rw [tunnelChunks, List.flatMap_cons, List.flatMap_cons, xorAt_append, ih]
    rfl

theorem mem_tunnelChunks {pos : ℕ} {sends : List TunnelSend} {f : ServerFrame}
    (h : f ∈ tunnelChunks ks pos sends) : ∃ (m : TunnelSend) (p : ℕ), f = .http (m.chunk ks p) := by
  induction sends generalizing pos with
  | nil => exact nomatch h
  | cons m sends ih =>
    rcases List.mem_cons.mp h with rfl | h
    · exact ⟨m, pos, rfl⟩
    · exact ih h

end Chunks

/-- The stream of a tunnel, for a peer whose cipher is in step. -/
def tunnelPieces (c : CtrContext) (sends : List TunnelSend) (ws : List WireMessage)
    (h : ∀ k, (ws.take k).flatMap WireMessage.encode = (sends.take k).flatMap TunnelSend.plain)
    (hlen : ws.length = sends.length) : PieceStream where
  mode := .http
  frames := tunnelChunks c.ks c.pos sends
  ks := fun i => c.ks (c.pos + i)
  pieces := ws.map Piece.message
  frames_mode := by
    intro f hf
    obtain ⟨m, p, rfl⟩ := mem_tunnelChunks c.ks hf
    rfl
  carried := by
    have hall := h sends.length
    rw [List.take_length, ← hlen, List.take_length] at hall
    rw [tunnelChunks_payload, xorAt_shift, Nat.add_zero, xorAt_xorAt, messages_encode, hall]
  skip := markersSkip_messages ws

theorem tunnelPieces_onePerFrame (c : CtrContext) (sends : List TunnelSend) (ws : List WireMessage)
    (h : ∀ k, (ws.take k).flatMap WireMessage.encode = (sends.take k).flatMap TunnelSend.plain)
    (hlen : ws.length = sends.length) : OnePerFrame (tunnelPieces c sends ws h hlen) ws where
  pieces := rfl
  length := (tunnelChunks_length c.ks c.pos sends).trans hlen.symm
  carried := by
    intro k
    show xorAt (fun i => c.ks (c.pos + i)) 0
      (((tunnelChunks c.ks c.pos sends).take k).flatMap ServerFrame.payload) = _
    rw [tunnelChunks_take, tunnelChunks_payload, xorAt_shift, Nat.add_zero, xorAt_xorAt, h]
  payload_ne := by
    intro f hf hnil
    obtain ⟨m, p, rfl⟩ := mem_tunnelChunks c.ks hf
    have hzero : (xorAt c.ks p m.plain).length = 0 := List.length_eq_zero_iff.mpr hnil
    rw [xorAt_length, m.plain_length] at hzero
    omega
  waits := by
    intro f hf p hp hlt
    obtain ⟨m, q, rfl⟩ := mem_tunnelChunks c.ks hf
    have hline := m.chunk_line_length c.ks q
    show readFrame .http p = .needMore
    simp only [readFrame, t3HttpChunkParse_waits _ p hp hlt (by omega)]

/-! ### A turn -/

/-- A read that returns nothing changes nothing. -/
theorem Session.step_read_short {x : Session} {outCap : ℕ}
    (h : t3ClientRead x.stream outCap = (x.stream, .bufTooSmall, [])) :
    x.step (.read outCap) = x := by
  unfold Session.step
  simp only [h, reduceCtorEq, if_false]

/-- A turn whose read returns nothing. -/
theorem tunnelRecvTurn_short {x : Session} {t : RecvTurn}
    (hready : (x.step (.pump t.pump)).stream.state = .ready)
    (h : t3ClientRead (x.step (.pump t.pump)).stream MSG_BUF =
      ((x.step (.pump t.pump)).stream, .bufTooSmall, [])) :
    tunnelRecvTurn x t = (x.step (.pump t.pump),
      if t.peerClosed then some (-1, []) else if t.timeUp then some (0, [])
      else if t.pollFailed then some (-1, []) else none) := by
  have hread := Session.step_read_short h
  unfold tunnelRecvTurn
  simp only [h, hread, hready, reduceCtorEq, ne_eq, not_true_eq_false, or_self, if_false]
  split_ifs <;> rfl

/-- A turn whose read returns a message of the tunnel. -/
theorem tunnelRecvTurn_message {x : Session} {t : RecvTurn} {m : TunnelSend}
    (hok : (t3ClientRead (x.step (.pump t.pump)).stream MSG_BUF).2.1 = .ok)
    (hmsg : (t3ClientRead (x.step (.pump t.pump)).stream MSG_BUF).2.2 = m.wire)
    (hcap : SHIM_BUF ≤ t.cap) :
    tunnelRecvTurn x t = ((x.step (.pump t.pump)).step (.read MSG_BUF),
      some ((m.data.length : ℤ), m.data)) := by
  have hinner : readLe16 m.wire = m.data.length := readLe16_tunnelFramed m.data_le _
  have hlen := m.wire_length
  have hle := m.data_le
  have hdrop : (m.wire.drop 2).take m.data.length = m.data := by
    have hwire : m.wire = le16 m.data.length ++ (m.data ++ m.write.padding) :=
      List.append_assoc _ _ _
    have hdropped : m.wire.drop 2 = m.data ++ m.write.padding := by
      rw [hwire]
      rfl
    rw [hdropped, List.take_left]
  simp only [tunnelRecvTurn, hok, if_true, hmsg, hinner, hdrop]
  rw [if_neg (by omega), if_neg (by omega)]

section Runs

variable {c : CtrContext} {sends : List TunnelSend} {ws : List WireMessage}
  {hencode : ∀ k, (ws.take k).flatMap WireMessage.encode =
    (sends.take k).flatMap TunnelSend.plain}
  {hlen : ws.length = sends.length}

/-- **The invariant of a peer**: its session is somewhere on the stream of the tunnel, and the
payloads it has returned are those of the messages read. -/
structure Peer.InStep (c : CtrContext) (sends : List TunnelSend) (ws : List WireMessage)
    (hencode : ∀ k, (ws.take k).flatMap WireMessage.encode =
      (sends.take k).flatMap TunnelSend.plain)
    (hlen : ws.length = sends.length) (x : Peer) : Prop where
  delivering : Delivering (tunnelPieces c sends ws hencode hlen) x.session.received
    x.session.returned x.session.stream x.session.moved
  payloads_eq : x.payloads = (sends.map TunnelSend.data).take x.session.returned.length

/-- A turn whose read returns nothing. -/
theorem Peer.InStep.turn_short {x : Peer} {t : RecvTurn} (h : x.InStep c sends ws hencode hlen)
    (hnext : Delivering (tunnelPieces c sends ws hencode hlen)
      (x.session.step (.pump t.pump)).received (x.session.step (.pump t.pump)).returned
      (x.session.step (.pump t.pump)).stream (x.session.step (.pump t.pump)).moved)
    (hready : (x.session.step (.pump t.pump)).stream.state = .ready)
    (hshort : t3ClientRead (x.session.step (.pump t.pump)).stream MSG_BUF =
      ((x.session.step (.pump t.pump)).stream, .bufTooSmall, []))
    (haccepted : ¬ MeetsMalformed
      ⟨pumpRead x.session.stream t.pump, t.pump.mallocs, x.session.moved⟩)
    (hcaught : ∀ k ≤ ws.length, ((tunnelPieces c sends ws hencode hlen).frames.take k).flatMap
      ServerFrame.encode <+: (x.session.step (.pump t.pump)).received →
        k ≤ x.session.returned.length) :
    (x.turn t).InStep c sends ws hencode hlen ∧
      x.Recovers (sends.map TunnelSend.data)
        (fun k => (tunnelChunks c.ks c.pos (sends.take k)).flatMap ServerFrame.encode) t := by
  have hturn := tunnelRecvTurn_short hready hshort
  have hsession : (x.turn t).session = x.session.step (.pump t.pump) := congrArg Prod.fst hturn
  have hpayloads : (x.turn t).payloads = x.payloads := by
    unfold Peer.turn
    rw [hturn]
    dsimp only
    split_ifs <;> rfl
  have hresult : (x.turn t).result = if t.peerClosed then some (-1, []) else
      if t.timeUp then some (0, []) else if t.pollFailed then some (-1, []) else none :=
    congrArg Prod.snd hturn
  refine ⟨⟨?_, ?_⟩, ⟨?_, haccepted, ?_, ?_⟩⟩
  · rw [hsession]
    exact hnext
  · rw [hpayloads, hsession]
    exact h.payloads_eq
  · rw [hpayloads, h.payloads_eq]
    exact List.take_prefix _ _
  · intro bs hbs
    rw [hresult] at hbs
    split_ifs at hbs with hclosed hup hfailed
    · exact Or.inl hclosed
    · cases congrArg Prod.fst (Option.some.inj hbs)
    · exact Or.inr hfailed
  · intro bs _ k hk harrived
    rw [List.length_map] at hk
    rw [hpayloads, h.payloads_eq, List.length_take, List.length_map]
    rw [hsession, ← tunnelChunks_take] at harrived
    have hreturned := hcaught k (by omega) harrived
    omega

/-- A turn whose read returns the next message. -/
theorem Peer.InStep.turn_message {x : Peer} {t : RecvTurn} (h : x.InStep c sends ws hencode hlen)
    (hcap : SHIM_BUF ≤ t.cap)
    (hnext : Delivering (tunnelPieces c sends ws hencode hlen)
      (x.session.step (.pump t.pump)).received (x.session.step (.pump t.pump)).returned
      (x.session.step (.pump t.pump)).stream (x.session.step (.pump t.pump)).moved)
    (hok : (t3ClientRead (x.session.step (.pump t.pump)).stream MSG_BUF).2.1 = .ok)
    (hbegins : x.session.returned ++
      [(t3ClientRead (x.session.step (.pump t.pump)).stream MSG_BUF).2.2] <+:
        sends.map TunnelSend.wire)
    (haccepted : ¬ MeetsMalformed
      ⟨pumpRead x.session.stream t.pump, t.pump.mallocs, x.session.moved⟩) :
    (x.turn t).InStep c sends ws hencode hlen ∧
      x.Recovers (sends.map TunnelSend.data)
        (fun k => (tunnelChunks c.ks c.pos (sends.take k)).flatMap ServerFrame.encode) t := by
  obtain ⟨rest, hrest⟩ := hbegins
  rw [List.append_assoc, List.singleton_append] at hrest
  obtain ⟨pre, post, rfl, hpre, hpost⟩ := List.map_eq_append_iff.mp hrest.symm
  obtain ⟨m, post, rfl, hm, -⟩ := List.map_eq_cons_iff.mp hpost
  have hturn := tunnelRecvTurn_message hok hm.symm hcap
  have hpos := m.data_pos
  have hreturned : x.session.returned.length = pre.length := by
    rw [show x.session.returned = _ from hpre.symm, List.length_map]
  have hdata : ((pre ++ m :: post).map TunnelSend.data).take x.session.returned.length =
      pre.map TunnelSend.data := by
    rw [hreturned, List.map_append, ← List.length_map (f := TunnelSend.data), List.take_left]
  have hpayloads : (x.turn t).payloads = pre.map TunnelSend.data ++ [m.data] := by
    unfold Peer.turn
    rw [hturn]
    dsimp only
    rw [if_pos (by omega), h.payloads_eq, hdata]
  have hsession : (x.turn t).session =
      (x.session.step (.pump t.pump)).step (.read MSG_BUF) := congrArg Prod.fst hturn
  have hresult : (x.turn t).result = some ((m.data.length : ℤ), m.data) :=
    congrArg Prod.snd hturn
  have hall : (pre ++ m :: post).map TunnelSend.data =
      (pre.map TunnelSend.data ++ [m.data]) ++ post.map TunnelSend.data := by
    simp only [List.map_append, List.map_cons, List.append_assoc, List.singleton_append]
  have hbook : ((x.session.step (.pump t.pump)).step (.read MSG_BUF)).returned =
      x.session.returned ++ [m.wire] := by
    rw [hm]
    exact if_pos hok
  have hbooks : (x.turn t).session.returned.length =
      (pre.map TunnelSend.data ++ [m.data]).length := by
    rw [hsession, hbook, List.length_append, List.length_append, hreturned, List.length_map]
    rfl
  refine ⟨⟨?_, ?_⟩, ⟨?_, haccepted, ?_, ?_⟩⟩
  · rw [hsession]
    exact Session.step_delivering _ (.read MSG_BUF) hnext (fun _ h => by cases h) trivial
  · rw [hpayloads, hbooks, hall, List.take_left]
  · rw [hpayloads, hall]
    exact List.prefix_append _ _
  · intro bs hbs
    rw [hresult] at hbs
    have hneg := congrArg Prod.fst (Option.some.inj hbs)
    dsimp only at hneg
    omega
  · intro bs hbs
    rw [hresult] at hbs
    have hzero := congrArg Prod.fst (Option.some.inj hbs)
    dsimp only at hzero
    omega

/-- **A turn recovers**, and keeps the invariant. -/
theorem Peer.InStep.turn (hpayload : ws.map WireMessage.payload = sends.map TunnelSend.wire)
    {x : Peer} {t : RecvTurn} (h : x.InStep c sends ws hencode hlen)
    (hlegal : x.Legal ((tunnelChunks c.ks c.pos sends).flatMap ServerFrame.encode) t) :
    (x.turn t).InStep c sends ws hencode hlen ∧
      x.Recovers (sends.map TunnelSend.data)
        (fun k => (tunnelChunks c.ks c.pos (sends.take k)).flatMap ServerFrame.encode) t := by
  have honce := tunnelPieces_onePerFrame c sends ws hencode hlen
  have hmessages : messagesAmong (tunnelPieces c sends ws hencode hlen).pieces = ws :=
    messagesAmong_messages ws
  obtain ⟨haccepted, hcaught⟩ := honce.pump h.delivering hlegal.arrives hlegal.fits hlegal.memory
  have hnext := Session.step_delivering x.session (.pump t.pump) h.delivering
    (fun env henv => ClientEvent.pump.inj henv ▸ hlegal.arrives) hlegal.fits
  have hcap : ∀ m ∈ messagesAmong (tunnelPieces c sends ws hencode hlen).pieces,
      m.payload.length ≤ MSG_BUF := by
    intro w hw
    rw [hmessages] at hw
    have hwire : w.payload ∈ sends.map TunnelSend.wire :=
      hpayload ▸ List.mem_map_of_mem hw
    obtain ⟨m, -, hm⟩ := List.mem_map.mp hwire
    have hle := m.data_le
    have hpad := paddingLen_le m.write
    rw [← hm, m.wire_length]
    unfold MSG_BUF
    omega
  have hready : (x.session.step (.pump t.pump)).stream.state = .ready := by
    obtain ⟨past, left, given, queued, hat⟩ := hnext
    exact hat.ready
  rcases hnext.read hcap with ⟨hempty, hshort⟩ | ⟨hok, hprefix⟩
  · exact h.turn_short hnext hready hshort haccepted (hcaught hempty)
  · rw [hmessages, hpayload] at hprefix
    exact h.turn_message hlegal.buffer hnext hok hprefix haccepted

/-- A peer at the start of the tunnel. -/
theorem Peer.Opening.inStep {s : ClientStream} (h : Peer.Opening c s) :
    (Peer.start s).InStep c sends ws hencode hlen where
  delivering :=
    ⟨[], ws.map Piece.message, [], [],
      { deframing := ⟨[], tunnelChunks c.ks c.pos sends,
          { ready := h.ready
            mode_eq := h.mode
            frames_mode := (tunnelPieces c sends ws hencode hlen).frames_mode
            ctx := h.ctx
            frames_eq := rfl
            received_eq := h.in_nil.symm
            received_prefix := List.nil_prefix
            moved_eq := rfl
            reasm_eq := h.reasm_nil
            in_tail := h.in_tail
            reasm_tail := h.reasm_tail }⟩
        pieces_eq := rfl
        taken := rfl
        returned_eq := rfl
        plain_eq := h.plain_nil
        plain_tail := h.plain_tail }⟩
  payloads_eq := rfl

end Runs

/-! ### One chunk after the other -/

/-- A stream between two messages: its rings are at their beginning. -/
structure Resting (ks : Keystream) (s : ClientStream) (moved : ℕ) : Prop where
  ready : s.state = .ready
  mode : s.mode = .http
  ctx : s.decryptCtx = some ⟨ks, moved⟩
  in_tail : s.inRing.tail = 0
  reasm_tail : s.reasmIn.tail = 0
  plain_tail : s.plainIn.tail = 0

theorem ringContents_of_tail {r : RingBuf} (h : r.tail = 0) : ringContents r = [] := by
  refine List.length_eq_zero_iff.mp ?_
  rw [ringContents_length, ringUsed, h, Nat.zero_sub]

/-- A turn in which one chunk arrives, byte by byte, and there is no time for another. -/
def chunkTurn (f : ServerFrame) : RecvTurn where
  pump := ⟨f.encode.map fun b => [b], false, 2, []⟩
  peerClosed := false
  timeUp := true
  pollFailed := false
  cap := SHIM_BUF

theorem chunkTurn_reads (f : ServerFrame) : (chunkTurn f).pump.reads.flatten = f.encode := by
  have h (bs : Bytes) : (bs.map fun b => [b]).flatten = bs := by
    induction bs with
    | nil => rfl
    | cons b bs ih => rw [List.map_cons, List.flatten_cons, ih, List.singleton_append]
  exact h f.encode

section OneChunk

variable {ks : Keystream} {s : ClientStream} {moved : ℕ} {m : TunnelSend} {c : HttpChunk}

/-- What the first loop makes of one chunk: it moves what the chunk carries, and stops. -/
theorem Resting.deframe_chunk (h : Resting ks s moved) (hdata : c.data = xorAt ks moved m.plain)
    (hlen : c.encode.length ≤ 16425) :
    ReadsFit (chunkTurn (.http c)).pump.reads s.inRing ∧
    ∃ y : Incoming,
      deframeTurn ⟨pumpRead s (chunkTurn (.http c)).pump, 2, moved⟩ = .again y ∧
      deframeTurn y = .done (y, 0) ∧
      DeframeFits ⟨pumpRead s (chunkTurn (.http c)).pump, 2, moved⟩ ∧ DeframeFits y ∧
      y.mallocs = 1 ∧ y.moved = moved + m.plain.length ∧ y.stream.state = .ready ∧
      y.stream.mode = .http ∧ y.stream.decryptCtx = some ⟨ks, moved + m.plain.length⟩ ∧
      y.stream.inRing.tail = 0 ∧ ringContents y.stream.reasmIn = m.plain ∧
      y.stream.plainIn = s.plainIn := by
  have hplain := m.plain_length
  have hle := m.plain_length_le
  have hdlen : c.data.length = m.plain.length := by rw [hdata, xorAt_length]
  have hdpos : c.data.length ≠ 0 := by omega
  have hfits : ReadsFit (chunkTurn (.http c)).pump.reads s.inRing := by
    refine readsFit_of_length _ _ ?_
    rw [chunkTurn_reads, h.in_tail, s.inRing_cap, RING_CAP]
    simp only [ServerFrame.encode]
    omega
  have hin : ringContents (pumpRead s (chunkTurn (.http c)).pump).inRing = c.encode := by
    have hread := (sslReadIn_of_fits _ (chunkTurn (.http c)).pump.ended s.inRing hfits
      (by rw [h.in_tail]; exact Nat.zero_le _)).1
    rw [chunkTurn_reads, ringContents_of_tail h.in_tail, List.nil_append] at hread
    exact hread
  have hused : ringUsed (pumpRead s (chunkTurn (.http c)).pump).inRing = c.encode.length := by
    rw [← ringContents_length, hin]
  have hread : readFrame (pumpRead s (chunkTurn (.http c)).pump).mode
      (ringContents (pumpRead s (chunkTurn (.http c)).pump).inRing) =
        .frame c.data c.data.length c.encode.length := by
    have hframe := readFrame_encode (.http c) [] (by simp only [ServerFrame.encode]; omega)
    have hne : (ServerFrame.http c).payload ≠ [] := fun hnil =>
      hdpos (List.length_eq_zero_iff.mpr hnil)
    rw [List.append_nil, ServerFrame.reading_of_payload hne] at hframe
    rw [hin, show (pumpRead s (chunkTurn (.http c)).pump).mode = .http from h.mode]
    exact hframe
  have hcrypt : t3cAesCrypt (pumpRead s (chunkTurn (.http c)).pump).decryptCtx c.data
      c.data.length = some (⟨ks, moved + c.data.length⟩, xorAt ks moved c.data) := by
    rw [show (pumpRead s (chunkTurn (.http c)).pump).decryptCtx = some ⟨ks, moved⟩ from h.ctx]
    exact t3cAesCrypt_some _ _ hdpos (by omega)
  have hroom : (pumpRead s (chunkTurn (.http c)).pump).reasmIn.tail + c.data.length ≤
      (pumpRead s (chunkTurn (.http c)).pump).reasmIn.cap := by
    rw [show (pumpRead s (chunkTurn (.http c)).pump).reasmIn = s.reasmIn from rfl, h.reasm_tail,
      s.reasmIn_cap, RING_CAP]
    omega
  obtain ⟨hok, hafter, -⟩ := ringAppend_of_fits _ (xorAt ks moved c.data)
    (by rw [xorAt_length]; exact hroom)
  have hpos : c.encode.length ≠ 0 := (ServerFrame.http c).encode_length_pos.ne'
  have hturn := deframeTurn_frame
    (x := ⟨pumpRead s (chunkTurn (.http c)).pump, 2, moved⟩) (by rw [hused]; exact hpos) hread
    (show 2 ≠ 0 by decide) (by omega) hcrypt
  dsimp only at hturn
  rw [if_neg (not_not.mpr hok)] at hturn
  have hempty : (ringConsume (pumpRead s (chunkTurn (.http c)).pump).inRing
      c.encode.length).tail = 0 := ringConsume_tail_of_le _ _ hused.le
  refine ⟨hfits, _, hturn, ?_, ?_, ?_, rfl, ?_, h.ready, h.mode, ?_, hempty, ?_, rfl⟩
  · simp only [deframeTurn, consumeIn, appendReasm, ringContents_of_tail hempty, List.length_nil,
      if_true]
  · intro payload payloadLen consumed hframe _ _
    obtain ⟨-, rfl, -⟩ := FrameRead.frame.inj (hread.symm.trans hframe)
    exact hroom
  · intro payload payloadLen consumed hframe _ _
    simp only [consumeIn, appendReasm, ringContents_of_tail hempty] at hframe
    rw [show (pumpRead s (chunkTurn (.http c)).pump).mode = .http from h.mode] at hframe
    cases hframe
  · rw [hdlen]
  · rw [← hdlen]
    rfl
  · simp only [consumeIn, appendReasm, hafter]
    rw [show (pumpRead s (chunkTurn (.http c)).pump).reasmIn = s.reasmIn from rfl,
      ringContents_of_tail h.reasm_tail, hdata, xorAt_xorAt]
    rfl

/-- The length in front of a message. -/
theorem TunnelSend.wireLength_plain (m : TunnelSend) : wireLength m.plain = m.wire.length := by
  have hlen := m.wire_length
  have hle := m.data_le
  have hpad := paddingLen_le m.write
  unfold SHIM_BUF at hle
  rw [m.plain_eq, wireLength, readLe32_le32_append _ (by omega)]
  omega

theorem TunnelSend.plain_length_eq (m : TunnelSend) : m.plain.length = 4 + m.wire.length := by
  rw [m.plain_eq, List.length_append, le32_length]

/-- What the second loop makes of a message that is long enough: it queues the message. -/
theorem deliver_message (hlong : m.LongEnough) {y : ClientStream}
    (hreasm : ringContents y.reasmIn = m.plain) (hplain : y.plainIn.tail = 0) :
    ∃ z, deliverTurn y = .again z ∧ deliverTurn z = .done (z, 0) ∧ DeliverFits y ∧
      DeliverFits z ∧ z.state = y.state ∧ z.mode = y.mode ∧ z.decryptCtx = y.decryptCtx ∧
      z.inRing = y.inRing ∧ z.reasmIn.tail = 0 ∧ ringContents z.plainIn = m.plain := by
  have hwire := m.wireLength_plain
  have hlen := m.wire_length
  have hle := m.data_le
  have hpos := m.data_pos
  have hpad := paddingLen_le m.write
  unfold SHIM_BUF at hle
  unfold TunnelSend.LongEnough at hlong
  have hused : ringUsed y.reasmIn = 4 + m.wire.length := by
    rw [← ringContents_length, hreasm, m.plain_length_eq]
  have htake : (ringContents y.reasmIn).take (4 + m.wire.length) = m.plain := by
    rw [hreasm, ← m.plain_length_eq, List.take_length]
  have hfit : y.plainIn.tail + m.plain.length ≤ y.plainIn.cap := by
    rw [hplain, y.plainIn_cap, RING_CAP, m.plain_length_eq]
    omega
  obtain ⟨hok, hafter, -⟩ := ringAppend_of_fits y.plainIn m.plain hfit
  have hturn := deliverTurn_message (s := y) (n := m.wire.length) (by rw [hreasm, hwire])
    (by omega) (by omega) (by omega)
  have haccept : (appendPlain y m.plain).2 = 0 := hok
  rw [htake, if_neg (not_not.mpr haccept)] at hturn
  have hempty : (ringConsume y.reasmIn (4 + m.wire.length)).tail = 0 :=
    ringConsume_tail_of_le _ _ hused.le
  have hzero : ringUsed (ringConsume y.reasmIn (4 + m.wire.length)) = 0 := by
    rw [← ringContents_length, ringContents_of_tail hempty, List.length_nil]
  refine ⟨_, hturn, ?_, ?_, ?_, rfl, rfl, rfl, rfl, hempty, ?_⟩
  · refine deliverTurn_wait (Or.inl ?_)
    simp only [consumeReasm, appendPlain, hzero]
    decide
  · intro _ _
    rw [hreasm, hwire, ← m.plain_length_eq]
    exact hfit
  · intro hcomplete
    simp only [consumeReasm, appendPlain, hzero] at hcomplete
    omega
  · simp only [consumeReasm, appendPlain, hafter, ringContents_of_tail hplain, List.nil_append]

/-- What it makes of a message that is not: it refuses it. -/
theorem deliver_refused (hshort : ¬ m.LongEnough) {y : ClientStream}
    (hreasm : ringContents y.reasmIn = m.plain) (hplain : y.plainIn.tail = 0) :
    deliverTurn y = .done (y, -1) ∧ DeliverFits y := by
  have hwire := m.wireLength_plain
  have hlen := m.wire_length
  obtain ⟨hone, hnone⟩ := not_not.mp hshort
  have hfirst : m.plain.getD 0 0 ≠ T3_PADDING_MARKER := by
    have hthree : m.wire.length = 3 := by omega
    have hbyte : (le32 3 ++ m.wire).getD 0 0 = 3 := rfl
    rw [m.plain_eq, hthree, hbyte]
    decide
  have hplen := m.plain_length_eq
  constructor
  · simp only [deliverTurn, hreasm, hwire]
    rw [if_neg (by omega), if_pos (by omega), if_neg hfirst]
  · intro _ _
    rw [hreasm, hwire, hplain, y.plainIn_cap, RING_CAP]
    omega

/-- **A chunk arrives**, and what it carries is in `reasm_in` for the second loop. -/
theorem Resting.arrives {out : Bytes} {x : Peer}
    (h : Resting ks x.session.stream x.session.moved)
    (hdata : c.data = xorAt ks x.session.moved m.plain) (hlen : c.encode.length ≤ 16425)
    (hout : x.session.received ++ c.encode <+: out) :
    ∃ s : ClientStream, s.state = .ready ∧ s.mode = .http ∧
      s.decryptCtx = some ⟨ks, x.session.moved + m.plain.length⟩ ∧ s.inRing.tail = 0 ∧
      ringContents s.reasmIn = m.plain ∧ s.plainIn.tail = 0 ∧
      (EachTurn deliverTurn DeliverFits s → x.Legal out (chunkTurn (.http c)) ∧
        pumpReady x.session.stream x.session.moved (chunkTurn (.http c)).pump =
          (pumpFlush (deliver s).1 (chunkTurn (.http c)).pump,
            x.session.moved + m.plain.length)) := by
  obtain ⟨hreads, y, hagain, hdone, hfit, hfit', hmallocs, hmoved, hready, hmode, hctx, htail,
    hreasm, hplain⟩ := h.deframe_chunk hdata hlen
  have hdeframe : deframe ⟨pumpRead x.session.stream (chunkTurn (.http c)).pump,
      (chunkTurn (.http c)).pump.mallocs, x.session.moved⟩ = (y, 0) :=
    (loop_of_again _ hagain).trans (loop_of_done _ hdone)
  refine ⟨y.stream, hready, hmode, hctx, htail, hreasm, by rw [hplain, h.plain_tail],
    fun hfits => ⟨⟨?_, ?_, ?_, ⟨hreads, .again hfit hagain (.done hfit' hdone), ?_⟩,
      le_refl _⟩, ?_⟩⟩
  · rw [chunkTurn_reads]
    exact hout
  · intro bs hbs
    obtain ⟨b, -, rfl⟩ := List.mem_map.mp hbs
    exact ⟨Nat.zero_lt_one, show 1 ≤ 16384 by decide⟩
  · exact .again (show 2 ≠ 0 by decide) hagain (.done (by rw [hmallocs]; decide) hdone)
  · rw [hdeframe]
    exact hfits
  · simp only [pumpReady, processIncoming, hdeframe, hmoved, lt_irrefl, if_false]

/-- **A message that is long enough, alone**, comes back, and the stream is at rest again. -/
theorem Resting.turn {out : Bytes} {x : Peer} (hlong : m.LongEnough)
    (h : Resting ks x.session.stream x.session.moved)
    (hdata : c.data = xorAt ks x.session.moved m.plain) (hlen : c.encode.length ≤ 16425)
    (hout : x.session.received ++ c.encode <+: out) :
    x.Legal out (chunkTurn (.http c)) ∧
      Resting ks (x.turn (chunkTurn (.http c))).session.stream
        (x.turn (chunkTurn (.http c))).session.moved ∧
      (x.turn (chunkTurn (.http c))).session.moved = x.session.moved + m.plain.length ∧
      (x.turn (chunkTurn (.http c))).session.received = x.session.received ++ c.encode ∧
      (x.turn (chunkTurn (.http c))).payloads = x.payloads ++ [m.data] := by
  obtain ⟨s, hready, hmode, hctx, htail, hreasm, hplain, hpumped⟩ := h.arrives hdata hlen hout
  obtain ⟨z, hagain, hdone, hfits, hfits', hstate, hmode', hctx', hin, htail', hcontents⟩ :=
    deliver_message hlong hreasm hplain
  obtain ⟨hlegal, hpump⟩ := hpumped (.again hfits hagain (.done hfits' hdone))
  have hdeliver : deliver s = (z, 0) := (loop_of_again _ hagain).trans (loop_of_done _ hdone)
  rw [hdeliver] at hpump
  have hwire := m.wireLength_plain
  have hplen := m.plain_length_eq
  have hwlen := m.wire_length
  have hle := m.data_le
  have hpad := paddingLen_le m.write
  have hused : ringUsed z.plainIn = 4 + m.wire.length := by
    rw [← ringContents_length, hcontents, hplen]
  have hmax : wireLength (ringContents
      (x.session.step (.pump (chunkTurn (.http c)).pump)).stream.plainIn) ≤ MSG_BUF := by
    simp only [Session.step, hpump, pumpFlush, hcontents, hwire]
    unfold MSG_BUF
    omega
  have hread := t3ClientRead_ok
    (by simp only [Session.step, hpump, pumpFlush]; exact hstate.trans hready)
    (by simp only [Session.step, hpump, pumpFlush, hcontents, hwire, hused]; exact le_refl _)
    hmax
  have hmsg : (t3ClientRead (x.session.step (.pump (chunkTurn (.http c)).pump)).stream
      MSG_BUF).2.2 = m.wire := by
    rw [hread]
    simp only [Session.step, hpump, pumpFlush, hcontents, hwire]
    rw [m.plain_eq, List.drop_left' (le32_length _), List.take_length]
  have hturn := tunnelRecvTurn_message (t := chunkTurn (.http c)) (by rw [hread]) hmsg (le_refl _)
  have hsession : (x.turn (chunkTurn (.http c))).session =
      (x.session.step (.pump (chunkTurn (.http c)).pump)).step (.read MSG_BUF) :=
    congrArg Prod.fst hturn
  have hstream : (x.turn (chunkTurn (.http c))).session.stream = (t3ClientRead
      (x.session.step (.pump (chunkTurn (.http c)).pump)).stream MSG_BUF).1 :=
    congrArg Session.stream hsession
  have hmoved : (x.turn (chunkTurn (.http c))).session.moved =
      x.session.moved + m.plain.length := by
    rw [hsession]
    simp only [Session.step, hpump]
  have hpos := m.data_pos
  refine ⟨hlegal, ?_, hmoved, ?_, ?_⟩
  · rw [hstream, hmoved, hread]
    simp only [Session.step, hpump, pumpFlush, hcontents, hwire]
    exact
      { ready := hstate.trans hready
        mode := hmode'.trans hmode
        ctx := hctx'.trans hctx
        in_tail := hin ▸ htail
        reasm_tail := htail'
        plain_tail := ringConsume_tail_of_le _ _ hused.le }
  · rw [hsession]
    show x.session.received ++ (chunkTurn (.http c)).pump.reads.flatten = _
    rw [chunkTurn_reads]
    rfl
  · unfold Peer.turn
    rw [hturn]
    dsimp only
    rw [if_pos (by omega)]

/-- **A message that is not** is reported as no data. -/
theorem Resting.turn_refused {out : Bytes} {x : Peer} (hshort : ¬ m.LongEnough)
    (h : Resting ks x.session.stream x.session.moved)
    (hdata : c.data = xorAt ks x.session.moved m.plain) (hlen : c.encode.length ≤ 16425)
    (hout : x.session.received ++ c.encode <+: out) :
    x.Legal out (chunkTurn (.http c)) ∧
      (x.turn (chunkTurn (.http c))).result = some (0, []) ∧
      (x.turn (chunkTurn (.http c))).session.received = x.session.received ++ c.encode ∧
      (x.turn (chunkTurn (.http c))).payloads = x.payloads := by
  obtain ⟨s, hready, -, -, -, hreasm, hplain, hpumped⟩ := h.arrives hdata hlen hout
  obtain ⟨hrefused, hfits⟩ := deliver_refused hshort hreasm hplain
  obtain ⟨hlegal, hpump⟩ := hpumped (.done hfits hrefused)
  have hdeliver : deliver s = (s, -1) := loop_of_done _ hrefused
  rw [hdeliver] at hpump
  have hstate : (x.session.step (.pump (chunkTurn (.http c)).pump)).stream.state = .ready := by
    simp only [Session.step, hpump, pumpFlush]
    exact hready
  have hread : t3ClientRead (x.session.step (.pump (chunkTurn (.http c)).pump)).stream MSG_BUF =
      ((x.session.step (.pump (chunkTurn (.http c)).pump)).stream, .bufTooSmall, []) := by
    refine t3ClientRead_short hstate (Or.inl ?_)
    simp only [Session.step, hpump, pumpFlush]
    have hused : ringUsed s.plainIn = 0 := by
      rw [← ringContents_length, ringContents_of_tail hplain, List.length_nil]
    omega
  have hturn := tunnelRecvTurn_short hstate hread
  refine ⟨hlegal, congrArg Prod.snd hturn, ?_, ?_⟩
  · rw [show (x.turn (chunkTurn (.http c))).session = _ from congrArg Prod.fst hturn]
    show x.session.received ++ (chunkTurn (.http c)).pump.reads.flatten = _
    rw [chunkTurn_reads]
    rfl
  · unfold Peer.turn
    rw [hturn]
    rfl

end OneChunk

/-! ### Runs -/

/-- **Messages that are long enough, one chunk after the other**, come back, and the stream is at
rest again. -/
theorem Resting.run {ks : Keystream} {out : Bytes} {sends : List TunnelSend}
    (hlong : ∀ m ∈ sends, m.LongEnough) {pos : ℕ} {x : Peer}
    (h : Resting (fun i => ks (pos + i)) x.session.stream x.session.moved)
    (hout : x.session.received ++
      (tunnelChunks ks (pos + x.session.moved) sends).flatMap ServerFrame.encode <+: out) :
    let turns := (tunnelChunks ks (pos + x.session.moved) sends).map chunkTurn
    Along Peer.turn (Peer.Legal out) x turns ∧
      Resting (fun i => ks (pos + i)) (finish Peer.turn x turns).session.stream
        (finish Peer.turn x turns).session.moved ∧
      (finish Peer.turn x turns).session.moved =
        x.session.moved + (sends.flatMap TunnelSend.plain).length ∧
      (finish Peer.turn x turns).session.received = x.session.received ++
        (tunnelChunks ks (pos + x.session.moved) sends).flatMap ServerFrame.encode ∧
      (finish Peer.turn x turns).payloads = x.payloads ++ sends.map TunnelSend.data := by
  induction sends generalizing x with
  | nil => exact ⟨trivial, h, rfl, (List.append_nil _).symm, (List.append_nil _).symm⟩
  | cons m sends ih =>
    rw [tunnelChunks, List.flatMap_cons, ← List.append_assoc] at hout
    have hdata : (m.chunk ks (pos + x.session.moved)).data =
        xorAt (fun i => ks (pos + i)) x.session.moved m.plain := (xorAt_shift ks pos _ _).symm
    obtain ⟨hlegal, hrest, hmoved, hreceived, hpayloads⟩ :=
      h.turn (hlong m List.mem_cons_self) hdata (m.chunk_encode_length ks _)
        ((List.prefix_append _ _).trans hout)
    have hnext := ih (fun m' hm' => hlong m' (List.mem_cons_of_mem m hm')) hrest
    rw [hreceived, hmoved, ← Nat.add_assoc] at hnext
    obtain ⟨hturns, hrest', hmoved', hreceived', hpayloads'⟩ := hnext hout
    refine ⟨⟨hlegal, hturns⟩, hrest', hmoved'.trans ?_, hreceived'.trans ?_, hpayloads'.trans ?_⟩
    · rw [List.flatMap_cons, List.length_append, Nat.add_assoc]
    · rw [tunnelChunks, List.flatMap_cons, List.append_assoc]
      rfl
    · rw [hpayloads, List.append_assoc]
      rfl

/-- A peer whose rings have just been allocated. -/
def openedPeer (c : CtrContext) : ClientStream :=
  ClientStream.opened .http ⟨fun _ => 0, 0⟩ ⟨fun i => c.ks (c.pos + i), 0⟩ fun _ _ => 0

theorem openedPeer_opening (c : CtrContext) : Peer.Opening c (openedPeer c) where
  ready := rfl
  mode := rfl
  ctx := rfl
  in_nil := rfl
  reasm_nil := rfl
  plain_nil := rfl
  in_tail := Nat.zero_le _
  reasm_tail := Nat.zero_le _
  plain_tail := Nat.zero_le _

theorem tunnelChunks_append (ks : Keystream) (pos : ℕ) (pre post : List TunnelSend) :
    tunnelChunks ks pos (pre ++ post) = tunnelChunks ks pos pre ++
      tunnelChunks ks (pos + (pre.flatMap TunnelSend.plain).length) post := by
  induction pre generalizing pos with
  | nil => rfl
  | cons m pre ih =>
    simp only [List.cons_append, tunnelChunks, ih, List.flatMap_cons, List.length_append,
      Nat.add_assoc]

/-- **The first message that is not long enough is lost** on a peer that takes one chunk after the
other. -/
theorem peer_not_recovers (c : CtrContext) (pre post : List TunnelSend) {m : TunnelSend}
    (hlong : ∀ m ∈ pre, m.LongEnough) (hshort : ¬ m.LongEnough) :
    ∃ turns, Along Peer.turn (Peer.Legal ((tunnelChunks c.ks c.pos (pre ++ m :: post)).flatMap
        ServerFrame.encode)) (Peer.start (openedPeer c)) turns ∧
      ¬ Along Peer.turn (Peer.Recovers ((pre ++ m :: post).map TunnelSend.data) fun k =>
        (tunnelChunks c.ks c.pos ((pre ++ m :: post).take k)).flatMap ServerFrame.encode)
          (Peer.start (openedPeer c)) turns := by
  have hrest : Resting (fun i => c.ks (c.pos + i)) (Peer.start (openedPeer c)).session.stream
      (Peer.start (openedPeer c)).session.moved := ⟨rfl, rfl, rfl, rfl, rfl, rfl⟩
  have hchunks := tunnelChunks_append c.ks c.pos pre (m :: post)
  rw [tunnelChunks] at hchunks
  have hout : (tunnelChunks c.ks c.pos (pre ++ m :: post)).flatMap ServerFrame.encode =
      (tunnelChunks c.ks c.pos pre).flatMap ServerFrame.encode ++
        ((m.chunk c.ks (c.pos + (pre.flatMap TunnelSend.plain).length)).encode ++
          (tunnelChunks c.ks (c.pos + (pre.flatMap TunnelSend.plain).length + m.plain.length)
            post).flatMap ServerFrame.encode) := by
    rw [hchunks, List.flatMap_append, List.flatMap_cons]
    rfl
  have hpre : (tunnelChunks c.ks c.pos pre).flatMap ServerFrame.encode <+:
      (tunnelChunks c.ks c.pos (pre ++ m :: post)).flatMap ServerFrame.encode := by
    rw [hout]
    exact List.prefix_append _ _
  obtain ⟨hturns, hrest', hmoved, hreceived, hpayloads⟩ := hrest.run hlong hpre
  set turns := (tunnelChunks c.ks (c.pos + (Peer.start (openedPeer c)).session.moved) pre).map
    chunkTurn with hturnsEq
  have hstart : (Peer.start (openedPeer c)).session.moved = 0 := rfl
  have hnil : (Peer.start (openedPeer c)).session.received = [] := rfl
  have hnone : (Peer.start (openedPeer c)).payloads = [] := rfl
  rw [hstart, Nat.zero_add] at hmoved
  rw [hnil, hstart, List.nil_append, Nat.add_zero] at hreceived
  rw [hnone, List.nil_append] at hpayloads
  have hdata : (m.chunk c.ks (c.pos + (pre.flatMap TunnelSend.plain).length)).data =
      xorAt (fun i => c.ks (c.pos + i))
        (finish Peer.turn (Peer.start (openedPeer c)) turns).session.moved m.plain := by
    rw [hmoved]
    exact (xorAt_shift c.ks c.pos _ _).symm
  have hnext : (finish Peer.turn (Peer.start (openedPeer c)) turns).session.received ++
      (m.chunk c.ks (c.pos + (pre.flatMap TunnelSend.plain).length)).encode <+:
        (tunnelChunks c.ks c.pos (pre ++ m :: post)).flatMap ServerFrame.encode := by
    rw [hreceived, hout, ← List.append_assoc]
    exact List.prefix_append _ _
  obtain ⟨hlegal, hresult, hreceived', hpayloads'⟩ := hrest'.turn_refused hshort hdata
    (m.chunk_encode_length c.ks _) hnext
  refine ⟨turns ++ [chunkTurn (.http (m.chunk c.ks (c.pos +
    (pre.flatMap TunnelSend.plain).length)))], along_append.mpr ⟨hturns, hlegal, trivial⟩, ?_⟩
  intro hrecovers
  obtain ⟨-, hlast, -⟩ := along_append.mp hrecovers
  have hcount := hlast.complete [] hresult (pre.length + 1) (by
    rw [List.length_map, List.length_append, List.length_cons]
    omega)
  rw [hpayloads', hpayloads, hreceived', hreceived, List.length_map] at hcount
  have htake : (pre ++ m :: post).take (pre.length + 1) = pre ++ [m] := by
    rw [List.take_length_add_append]
    rfl
  have hle := hcount (by
    rw [htake, tunnelChunks_append, List.flatMap_append]
    simp only [tunnelChunks, List.flatMap_cons, List.flatMap_nil, List.append_nil]
    exact List.prefix_refl _)
  omega

/-- Where not all messages are long enough, there is a first that is not. -/
theorem exists_first_short {sends : List TunnelSend} (h : ¬ ∀ m ∈ sends, m.LongEnough) :
    ∃ pre m post, sends = pre ++ m :: post ∧ (∀ m ∈ pre, m.LongEnough) ∧ ¬ m.LongEnough := by
  induction sends with
  | nil => exact absurd (fun m hm => (nomatch hm)) h
  | cons m sends ih =>
    by_cases hm : m.LongEnough
    · have hrest : ¬ ∀ m ∈ sends, m.LongEnough := fun hall =>
        h fun m' hm' => (List.mem_cons.mp hm').elim (fun heq => heq ▸ hm) (hall m')
      obtain ⟨pre, m', post, rfl, hpre, hm'⟩ := ih hrest
      refine ⟨m :: pre, m', post, rfl, fun k hk => ?_, hm'⟩
      exact (List.mem_cons.mp hk).elim (fun heq => heq ▸ hm) (hpre k)
    · exact ⟨[], m, sends, rfl, fun k hk => (nomatch hk), hm⟩

/-- What a run of the sender emits for its first messages. -/
theorem Sender.Opening.emitted_eq {x : Sender} {c : CtrContext} (h : x.Opening c)
    {sends : List TunnelSend} (hsends : Along Sender.step Sender.Takes x sends) (k : ℕ) :
    (finish Sender.step x (sends.take k)).emitted =
      (tunnelChunks c.ks c.pos (sends.take k)).flatMap ServerFrame.encode := by
  rw [← List.take_append_drop k sends, along_append] at hsends
  rw [Sender.emitted_run _ h.ready h.mode h.ctx hsends.1, h.emitted_nil, List.nil_append]

/-- **The payloads of a tunnel come back, on every peer and in every order of arrival, exactly where
none of them is a single byte without padding.** -/
theorem tunnelRun_recovers_iff (x : Sender) (c : CtrContext) (sends : List TunnelSend)
    (hopen : x.Opening c) (hsends : Along Sender.step Sender.Takes x sends) :
    (∀ s turns, Peer.Opening c s →
      Along Peer.turn (Peer.Legal (finish Sender.step x sends).emitted) (Peer.start s) turns →
        Along Peer.turn (Peer.Recovers (sends.map TunnelSend.data) fun k =>
          (finish Sender.step x (sends.take k)).emitted) (Peer.start s) turns) ↔
      ∀ m ∈ sends, m.LongEnough := by
  have harrived : (fun k => (finish Sender.step x (sends.take k)).emitted) = fun k =>
      (tunnelChunks c.ks c.pos (sends.take k)).flatMap ServerFrame.encode :=
    funext (hopen.emitted_eq hsends)
  have hall := hopen.emitted_eq hsends sends.length
  rw [List.take_length] at hall
  rw [harrived, hall]
  constructor
  · intro hrecovers
    by_contra hbad
    obtain ⟨pre, m, post, rfl, hlong, hshort⟩ := exists_first_short hbad
    obtain ⟨turns, hlegal, hnot⟩ := peer_not_recovers c pre post hlong hshort
    exact hnot (hrecovers _ turns (openedPeer_opening c) hlegal)
  · intro hlong s turns hs hlegal
    obtain ⟨ws, hpayload, hencode⟩ := exists_wireMessages hlong
    have hlen : ws.length = sends.length := by
      have hmap := congrArg List.length hpayload
      rwa [List.length_map, List.length_map] at hmap
    exact along_of_inv (I := fun x => x.InStep c sends ws hencode hlen)
      (fun x t hx ht => (hx.turn hpayload ht).1) (fun x t hx ht => (hx.turn hpayload ht).2)
      hs.inStep hlegal

/-- A sender that has emitted nothing. -/
def readySender : Sender := ⟨readyClient, 0, []⟩

/-- A message without padding, on a socket that takes nothing. -/
def quietSend (data : Bytes) (h0 : 0 < data.length) (hle : data.length ≤ 900) : TunnelSend where
  data := data
  write := quietEnv
  pump := ⟨[], false, 0, []⟩
  data_pos := h0
  data_le := by
    unfold SHIM_BUF
    omega

theorem readySender_opening : readySender.Opening ⟨fun _ => 0, 64⟩ where
  ready := rfl
  mode := rfl
  ctx := rfl
  emitted_nil := rfl

/-- Such a sender takes one. -/
theorem readySender_takes (data : Bytes) (h0 : 0 < data.length) (hle : data.length ≤ 900) :
    readySender.Takes (quietSend data h0 hle) := by
  have hpad : quietEnv.paddingLen = 0 := rfl
  constructor
  · have hhex := t3SizeToHex_length_le (show 4 + (2 + data.length) + 0 < 2 ^ 64 by omega)
    have hcap : readySender.stream.outRing.cap = RING_CAP := readyClient.outRing_cap
    have htail : readySender.stream.outRing.tail = 0 := rfl
    have hmode : readySender.stream.mode = .http := rfl
    rw [hcap, htail, hmode, RING_CAP]
    show 0 + transportFrameLength .http (4 + (2 + data.length) + quietEnv.paddingLen) ≤ _
    rw [hpad]
    simp only [transportFrameLength]
    omega
  · have hshim : data.length ≤ SHIM_BUF := by
      unfold SHIM_BUF
      omega
    refine tunnelSend_accepted h0 hshim fun framed hframed => ?_
    have hlen : framed.length = 2 + data.length := by
      rw [Object.length, hframed, tunnelFramed_length]
      rfl
    obtain ⟨frame, hframe⟩ := readyClient_emits framed (by omega) (by omega)
    exact hframe.accepted

/-- A message of two bytes. -/
theorem tunnelRun_recovers_iff_two :
    (∀ s turns, Peer.Opening ⟨fun _ => 0, 64⟩ s →
      Along Peer.turn (Peer.Legal (finish Sender.step readySender
        [quietSend [1, 2] (by decide) (by decide)]).emitted) (Peer.start s) turns →
        Along Peer.turn (Peer.Recovers [[1, 2]] fun k => (finish Sender.step readySender
          ([quietSend [1, 2] (by decide) (by decide)].take k)).emitted) (Peer.start s) turns) ↔
      ∀ m ∈ [quietSend [1, 2] (by decide) (by decide)], m.LongEnough :=
  tunnelRun_recovers_iff readySender ⟨fun _ => 0, 64⟩ _ readySender_opening
    ⟨readySender_takes [1, 2] (by decide) (by decide), trivial⟩

/-- **A single byte without padding does not come back.** -/
theorem tunnelRun_not_recovers :
    ¬ ∀ x c sends, Sender.Opening x c → Along Sender.step Sender.Takes x sends →
      ∀ s turns, Peer.Opening c s →
        Along Peer.turn (Peer.Legal (finish Sender.step x sends).emitted) (Peer.start s) turns →
          Along Peer.turn (Peer.Recovers (sends.map TunnelSend.data) fun k =>
            (finish Sender.step x (sends.take k)).emitted) (Peer.start s) turns := by
  intro hall
  have hsends : Along Sender.step Sender.Takes readySender
      [quietSend [7] (by decide) (by decide)] :=
    ⟨readySender_takes [7] (by decide) (by decide), trivial⟩
  have hopen := readySender_opening
  have hrecovers := hall readySender _ _ hopen hsends
  have harrived := funext (hopen.emitted_eq hsends)
  have hemitted := hopen.emitted_eq hsends 1
  have hone : [quietSend [7] (by decide) (by decide)].take 1 =
    [quietSend [7] (by decide) (by decide)] := rfl
  rw [hone] at hemitted
  rw [harrived, hemitted] at hrecovers
  have hshort : ¬ (quietSend [7] (by decide) (by decide)).LongEnough := not_not.mpr ⟨rfl, rfl⟩
  obtain ⟨turns, hlegal, hnot⟩ :=
    peer_not_recovers ⟨fun _ => 0, 64⟩ [] [] (fun m hm => (nomatch hm)) hshort
  exact hnot (hrecovers _ turns (openedPeer_opening _) hlegal)

end Client
end Teleproto3
