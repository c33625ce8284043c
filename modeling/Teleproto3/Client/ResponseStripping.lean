/-
# The headers of the response

An HTTP stream is answered by a block of headers and a stream of chunks, or by the chunks alone.
`t3_client_pump` takes the headers off `in_ring` in the state `HANDSHAKE`, in front of the first
chunk, whichever way TLS has cut the bytes into reads: `ServerStream` is what the server sends,
`FrontStrips` what a call is to do about it.

The decision is taken on what is there at the first look and is not taken again.  Fewer than four
bytes are not compared with `HTTP`, so a first look at one, two or three bytes of the headers takes
them for a chunk and leaves all of the headers in the ring.  Apart from that a run strips exactly
the headers: `clientRun_strips_iff`.
-/

import Teleproto3.Client.FatalErrors
import Teleproto3.Wire.HttpChunk

namespace Teleproto3
namespace Client

open Lib Wire

/-! ### What the server sends -/

/-- A block of headers: it begins with the status line, and ends where headers end first. -/
structure ResponseHeaders (hdr : Bytes) : Prop where
  status : hdr.take 4 = ascii "HTTP"
  ends : findSub responseEnd hdr = some (hdr.length - 4)
  short : hdr.length ≤ 8192

/-- A stream of chunks begins with a digit of the size of the first. -/
def BeginsWithSize (body : Bytes) : Prop := ∀ b ∈ body.head?, (hexDigit b).isSome

/-- **What the server sends**: headers and what follows them, or chunks and no headers. -/
def ServerStream (hdr body : Bytes) : Prop :=
  ResponseHeaders hdr ∨ hdr = [] ∧ BeginsWithSize body

/-- One call of `SSL_read` fills no more than its buffer. -/
def TlsSized (e : ClientCall) : Prop := ∀ io, e = .pump io → ∀ bs ∈ io.reads, bs.length ≤ 16384

namespace T3Stream

/-- All that TLS has delivered. -/
def heard (c : T3Stream) : Bytes := c.readLog.flatMap Appended.bytes

/-- What of it was put into `in_ring`. -/
def stored (c : T3Stream) : Bytes :=
  c.readLog.flatMap fun q => (ringContents q.after).drop (ringContents q.before).length

/-- Neither over nor given up. -/
def Live (c : T3Stream) : Prop := c.stream.state ≠ .error ∧ c.stream.state ≠ .closed

end T3Stream

/-! ### What is promised -/

/-- **What is promised of a call**, up to the state `READY` and the first chunk.  A call that gets
there for the first time has taken the headers off the ring, a later one takes nothing, and one that
does not get there has left everything in the ring and has not got all of the headers. -/
def FrontStrips (hdr : Bytes) (c : T3Stream) :
    Except (T3Stream × T3Result) T3Stream → Prop :=
  Ends
    (fun d =>
      (c.httpResponseDone = false → d.stored = hdr ++ ringContents d.stream.inRing) ∧
        (c.httpResponseDone = true → ringContents d.stream.inRing = ringContents c.stream.inRing))
    fun exit =>
      exit.1.stored = ringContents exit.1.stream.inRing ∧
        (exit.1.heard = [] ∨ exit.1.heard.length < hdr.length)

/-- What is promised of a step. -/
def StripsResponse (prim : Primitives) (hdr : Bytes) (c : T3Stream) (e : ClientCall) : Prop :=
  ∀ io, e = .pump io → c.Live → FrontStrips hdr c (pumpFront prim io c.untroubled)

/-! ### The condition -/

/-- The stages in front of the response. -/
def pumpToResponse (prim : Primitives) (io : PumpIo) : PumpStage := fun c =>
  ((pumpConnecting io c).bind (pumpTlsHandshake io)).bind fun c =>
    (greeting io c).bind (startObfs2 prim io)

/-- **The condition on a step.**  A call that comes to the response, where there are headers, looks
at no byte or at four at least. -/
def HearsStatus (prim : Primitives) (hdr : Bytes) (c : T3Stream) (e : ClientCall) : Prop :=
  ∀ io, e = .pump io → c.Live → c.httpResponseDone = false → hdr ≠ [] →
    (∃ d, pumpToResponse prim io c.untroubled = .ok d) →
      ringUsed c.stream.inRing + io.reads.flatten.length = 0 ∨
        4 ≤ ringUsed c.stream.inRing + io.reads.flatten.length

/-! ### What is read -/

/-- **Reading keeps the beginning of a stream**, whatever may get lost behind it. -/
theorem sslReadIn_take {reads : List Bytes} (ended : Bool) {r : RingBuf} (hcap : r.cap = RING_CAP)
    (hsized : ∀ bs ∈ reads, bs.length ≤ 16384) {k : ℕ} (hk : k + 16384 ≤ RING_CAP) :
    (ringContents (sslReadIn reads ended r).1).take k =
      (ringContents r ++ reads.flatten).take k := by
  induction reads generalizing r with
  | nil => rw [List.flatten_nil, List.append_nil]; rfl
  | cons bs reads ih =>
    have hbs := hsized bs List.mem_cons_self
    rw [sslReadIn, ih ((ringAppend_cap r bs).trans hcap)
      (fun bs hmem => hsized bs (List.mem_cons_of_mem _ hmem)), ringContents_ringAppend, hcap,
      List.flatten_cons]
    split_ifs with hroom
    · rw [List.append_assoc]
    · -- The ring is so full that its beginning is settled.
      have hfull : k ≤ (ringContents r).length := by
        rw [ringContents_length]
        omega
      rw [List.take_append_of_le_length hfull, List.take_append_of_le_length hfull]

/-- What is in the ring stays there while `ssl_read_in` adds to it. -/
theorem sslReadIn_prefix (reads : List Bytes) (ended : Bool) (r : RingBuf) :
    ringContents r <+: ringContents (sslReadIn reads ended r).1 := by
  induction reads generalizing r with
  | nil => exact List.prefix_rfl
  | cons bs reads ih =>
    refine List.IsPrefix.trans ?_ (ih (ringAppend r bs).1)
    rw [ringContents_ringAppend]
    split_ifs
    · exact List.prefix_append _ _
    · exact List.prefix_rfl

/-! ### The stages -/

/-- What the stages in front of the response leave alone. -/
structure SameIn (c d : T3Stream) : Prop where
  inRing : d.stream.inRing = c.stream.inRing
  mode : d.stream.mode = c.stream.mode
  readLog : d.readLog = c.readLog
  done : d.httpResponseDone = c.httpResponseDone

theorem SameIn.refl (c : T3Stream) : SameIn c c := ⟨rfl, rfl, rfl, rfl⟩

theorem SameIn.trans {c d e : T3Stream} (h : SameIn c d) (h' : SameIn d e) : SameIn c e :=
  ⟨h'.inRing.trans h.inRing, h'.mode.trans h.mode, h'.readLog.trans h.readLog,
    h'.done.trans h.done⟩

theorem SameIn.stored {c d : T3Stream} (h : SameIn c d) : d.stored = c.stored := by
  unfold T3Stream.stored
  rw [h.readLog]

theorem SameIn.heard {c d : T3Stream} (h : SameIn c d) : d.heard = c.heard := by
  unfold T3Stream.heard
  rw [h.readLog]

/-- A stage that leaves the input alone and comes to the state `s`, or ends the call before the
state `READY`. -/
abbrev StageSame (s : T3ClientState) (c : T3Stream) (x : Except (T3Stream × T3Result) T3Stream) :
    Prop :=
  Ends (fun d => SameIn c d ∧ d.stream.state = s)
    (fun exit => SameIn c exit.1 ∧ exit.1.stream.state ≠ .ready) x

section Stages

variable {prim : Primitives} {io : PumpIo} {c d : T3Stream}

theorem sameIn_untroubled (c : T3Stream) : SameIn c c.untroubled := ⟨rfl, rfl, rfl, rfl⟩

theorem sameIn_flushOut (writes : List SslWrite) (c : T3Stream) :
    SameIn c (c.flushOut writes) ∧ (c.flushOut writes).stream.state = c.stream.state := by
  unfold T3Stream.flushOut T3Stream.meet
  split_ifs <;> exact ⟨⟨rfl, rfl, rfl, rfl⟩, rfl⟩

/-- The states `CONNECTING` and `TLS`. -/
theorem pumpTls_same (hlive : c.Live) (hready : c.stream.state ≠ .ready) :
    StageSame .handshake c ((pumpConnecting io c).bind (pumpTlsHandshake io)) := by
  have htls (d : T3Stream) (hd : SameIn c d) (hstate : d.stream.state = .tls) :
      StageSame .handshake c (pumpTlsHandshake io d) := by
    unfold pumpTlsHandshake
    rw [if_pos hstate]
    cases io.tls with
    | done => exact ⟨hd.trans ⟨rfl, rfl, rfl, rfl⟩, rfl⟩
    | again => exact ⟨hd, by rw [hstate]; nofun⟩
    | failed => exact ⟨hd.trans ⟨rfl, rfl, rfl, rfl⟩, nofun⟩
  cases hstate : c.stream.state with
  | connecting =>
    unfold pumpConnecting
    rw [if_pos hstate]
    cases io.tcp with
    | pending => exact ⟨SameIn.refl c, by rw [hstate]; nofun⟩
    | failed => exact ⟨⟨rfl, rfl, rfl, rfl⟩, nofun⟩
    | connected => exact htls _ ⟨rfl, rfl, rfl, rfl⟩ rfl
  | tls =>
    have hpass : pumpConnecting io c = .ok c := if_neg (by rw [hstate]; nofun)
    rw [hpass]
    exact htls c (SameIn.refl c) hstate
  | handshake =>
    rw [pumpTls_passes (by rw [hstate]; nofun) (by rw [hstate]; nofun)]
    exact ⟨SameIn.refl c, hstate⟩
  | ready => exact absurd hstate hready
  | error => exact absurd hstate hlive.1
  | closed => exact absurd hstate hlive.2

/-- The first message of an HTTP stream. -/
theorem greeting_same (hmode : c.stream.mode = .http) :
    Ends (fun d => SameIn c d ∧ d.stream.state = c.stream.state) (fun _ => False)
      (greeting io c) := by
  unfold greeting
  rw [hmode]
  show SameIn c _ ∧ _
  split_ifs
  · exact ⟨SameIn.refl c, rfl⟩
  · unfold sendHttpPostHeaders
    dsimp only
    split_ifs <;> exact ⟨⟨rfl, rfl, rfl, rfl⟩, rfl⟩

/-- `send_obfs2_init` has nothing to do with `in_ring`. -/
theorem sendObfs2Init_keeps (prim : Primitives) (io : PumpIo) (c : T3Stream) :
    let s := (sendObfs2Init prim c.params io.draws io.evp io.mask c.stream).1
    s.inRing = c.stream.inRing ∧ s.mode = c.stream.mode ∧ s.state = c.stream.state := by
  unfold sendObfs2Init
  cases genObfs2Init prim c.params.secret c.params.dcId c.params.tunnelMode io.draws io.evp with
  | none => exact ⟨rfl, rfl, rfl⟩
  | some init =>
    dsimp only
    cases frameObfs2Init c.stream.mode io.mask init.header with
    | none => exact ⟨rfl, rfl, rfl⟩
    | some framed => exact ⟨rfl, rfl, rfl⟩

/-- The obfuscated2 header. -/
theorem startObfs2_same (hstate : c.stream.state = .handshake) :
    StageSame .handshake c (startObfs2 prim io c) := by
  have hkeeps := sendObfs2Init_keeps prim io c
  unfold startObfs2
  split_ifs with hsent
  · obtain ⟨hsame, hkept⟩ := sameIn_flushOut io.writes c
    exact ⟨hsame, hkept.trans hstate⟩
  · generalize sendObfs2Init prim c.params io.draws io.evp io.mask c.stream = r at hkeeps
    obtain ⟨stream, sent⟩ := r
    obtain ⟨hin, hmode, hkept⟩ := hkeeps
    dsimp only at hin hmode hkept ⊢
    split_ifs with hfalse
    · exact ⟨⟨hin, hmode, rfl, rfl⟩, nofun⟩
    · generalize hd : ({ c with
        stream := stream
        obfs2Sent := true
        messageLog := c.messageLog ++ ((obfs2Frame prim io c).map fun frame =>
          (⟨c.stream.outRing, frame, stream.outRing⟩ : Appended)).toList } : T3Stream) = d
      have hsame : SameIn c d := by
        rw [← hd]
        exact ⟨hin, hmode, rfl, rfl⟩
      have hstate' : d.stream.state = .handshake := by
        rw [← hd]
        exact hkept.trans hstate
      obtain ⟨hflush, hkept'⟩ := sameIn_flushOut io.writes d
      exact ⟨hsame.trans hflush, hkept'.trans hstate'⟩

/-- **The stages in front of the response** leave the input as it is. -/
theorem pumpToResponse_same (hlive : c.Live) (hready : c.stream.state ≠ .ready)
    (hmode : c.stream.mode = .http) : StageSame .handshake c (pumpToResponse prim io c) := by
  refine (pumpTls_same hlive hready).bind fun d hd => ?_
  obtain ⟨hsame, hstate⟩ := hd
  have hgreeting : Ends (fun e => SameIn d e ∧ e.stream.state = d.stream.state) (fun _ => False)
      (greeting io d) := greeting_same (hsame.mode.trans hmode)
  cases hg : greeting io d with
  | error exit => exact (hgreeting.error hg).elim
  | ok e =>
    obtain ⟨hsame', hstate'⟩ := hgreeting.ok hg
    exact (startObfs2_same (hstate'.trans hstate)).mono
      (fun f hf => ⟨(hsame.trans hsame').trans hf.1, hf.2⟩)
      fun exit hexit => ⟨(hsame.trans hsame').trans hexit.1, hexit.2⟩

/-- What comes in front of the state `READY`, where the response has not been looked at. -/
theorem pumpFront_eq (hlive : c.Live) (hready : c.stream.state ≠ .ready) :
    pumpFront prim io c =
      ((pumpToResponse prim io c).bind (awaitResponse io)).map fun c => c.setState .ready := by
  have htls : StageSame .handshake c ((pumpConnecting io c).bind (pumpTlsHandshake io)) :=
    pumpTls_same hlive hready
  unfold pumpFront pumpToResponse
  cases ht : (pumpConnecting io c).bind (pumpTlsHandshake io) with
  | error exit => rfl
  | ok d =>
    obtain ⟨-, hstate⟩ := htls.ok ht
    exact if_pos hstate

/-! ### The response -/

/-- A client that has not looked at the response, or has not got all of its headers. -/
structure Unanswered (hdr : Bytes) (c : T3Stream) : Prop where
  mode : c.stream.mode = .http
  done : c.httpResponseDone = false
  whole : ringContents c.stream.inRing = c.heard
  stored : c.stored = c.heard
  partly : c.heard = [] ∨ 4 ≤ c.heard.length ∧ c.heard.length < hdr.length

theorem Unanswered.same {hdr : Bytes} (h : Unanswered hdr c) (hsame : SameIn c d) :
    Unanswered hdr d where
  mode := hsame.mode.trans h.mode
  done := hsame.done.trans h.done
  whole := by rw [hsame.inRing, hsame.heard, h.whole]
  stored := by rw [hsame.stored, hsame.heard, h.stored]
  partly := by rw [hsame.heard]; exact h.partly

theorem awaiting_fields (io : PumpIo) (d : T3Stream) :
    (d.awaiting io).readLog = d.readLog ++
        [⟨d.stream.inRing, io.reads.flatten, (sslReadIn io.reads io.ended d.stream.inRing).1⟩] ∧
      (d.awaiting io).stream.mode = d.stream.mode ∧
      (d.awaiting io).httpResponseDone = d.httpResponseDone ∧
      (d.awaiting io).stream.state = d.stream.state := by
  obtain ⟨hsame, hstate⟩ := sameIn_flushOut io.writesAgain d
  unfold T3Stream.awaiting
  generalize d.flushOut io.writesAgain = e at hsame hstate
  rw [← hsame.mode, ← hsame.done, ← hsame.readLog, ← hsame.inRing, ← hstate]
  unfold T3Stream.readIn T3Stream.meet
  split_ifs <;> exact ⟨rfl, rfl, rfl, rfl⟩

/-- What is heard with the read in wait of the response. -/
theorem awaiting_heard (io : PumpIo) (d : T3Stream) :
    (d.awaiting io).heard = d.heard ++ io.reads.flatten := by
  unfold T3Stream.heard
  rw [(awaiting_fields io d).1, List.flatMap_append]
  simp

/-- Where nothing has been taken from the ring, it holds all that was put in. -/
theorem awaiting_stored {hdr : Bytes} (h : Unanswered hdr d) :
    (d.awaiting io).stored = ringContents (d.awaiting io).stream.inRing := by
  obtain ⟨rest, hrest⟩ := sslReadIn_prefix io.reads io.ended d.stream.inRing
  have hstored : d.stored = ringContents d.stream.inRing := h.stored.trans h.whole.symm
  rw [awaiting_inRing, ← hrest, ← hstored]
  unfold T3Stream.stored at hstored ⊢
  rw [(awaiting_fields io d).1, List.flatMap_append]
  refine congrArg _ ?_
  simp only [List.flatMap_cons, List.flatMap_nil, List.append_nil]
  rw [← hrest, List.drop_left]

/-- The beginning of what the ring holds is the beginning of what was heard. -/
theorem awaiting_take {hdr : Bytes} (h : Unanswered hdr d)
    (hsized : ∀ bs ∈ io.reads, bs.length ≤ 16384) {k : ℕ} (hk : k ≤ 8192) :
    (ringContents (d.awaiting io).stream.inRing).take k = (d.awaiting io).heard.take k := by
  rw [awaiting_inRing, awaiting_heard, ← h.whole]
  exact sslReadIn_take io.ended d.stream.inRing_cap hsized (by unfold RING_CAP; omega)

/-- The ring holds all that was heard, as long as that is no more than headers may be. -/
theorem awaiting_whole {hdr : Bytes} (h : Unanswered hdr d)
    (hshort : (d.awaiting io).heard.length ≤ 8192) :
    ringContents (d.awaiting io).stream.inRing = (d.awaiting io).heard := by
  rw [awaiting_heard, List.length_append, ← h.whole, ringContents_length] at hshort
  rw [awaiting_inRing, awaiting_heard, ← h.whole]
  refine (sslReadIn_complete_iff io.reads io.ended d.stream.inRing_cap).mpr ?_
  unfold Room RING_CAP
  omega

section Ways

variable (hmode : d.stream.mode = .http) (hdone : d.httpResponseDone = false)
include hmode hdone

/-- What is read in wait of the response is in the books, whatever becomes of it. -/
theorem awaitResponse_books :
    Ends (fun e => e.readLog = (d.awaiting io).readLog)
      (fun exit => exit.1.readLog = (d.awaiting io).readLog) (awaitResponse io d) := by
  unfold awaitResponse T3Stream.awaiting
  rw [if_pos ⟨hmode, hdone⟩]
  refine Ends.ite (fun _ => rfl) fun _ => Ends.ite (fun _ => ?_) fun _ => rfl
  cases findSub responseEnd (ringContents _) with
  | none => exact Ends.ite (fun _ => rfl) fun _ => rfl
  | some n => rfl

/-- Nothing is there yet. -/
theorem awaitResponse_empty (hempty : ringContents (d.awaiting io).stream.inRing = []) :
    awaitResponse io d = .error (d.awaiting io, .bufTooSmall) := by
  unfold awaitResponse
  rw [if_pos ⟨hmode, hdone⟩]
  exact if_pos (by rw [← T3Stream.awaiting, hempty]; rfl)

/-- What is there is taken for a chunk. -/
theorem awaitResponse_chunk (hne : ringContents (d.awaiting io).stream.inRing ≠ [])
    (hnot : ¬ (4 ≤ (ringContents (d.awaiting io).stream.inRing).length ∧
      (ringContents (d.awaiting io).stream.inRing).take 4 = ascii "HTTP")) :
    awaitResponse io d = .ok { d.awaiting io with httpResponseDone := true } := by
  unfold awaitResponse
  rw [if_pos ⟨hmode, hdone⟩]
  exact (if_neg (mt List.length_eq_zero_iff.mp hne)).trans (if_neg hnot)

/-- Headers that are not complete are waited for. -/
theorem awaitResponse_partly (hlen : 4 ≤ (ringContents (d.awaiting io).stream.inRing).length)
    (hhttp : (ringContents (d.awaiting io).stream.inRing).take 4 = ascii "HTTP")
    (hend : findSub responseEnd (ringContents (d.awaiting io).stream.inRing) = none)
    (hshort : (ringContents (d.awaiting io).stream.inRing).length ≤ 8192) :
    awaitResponse io d = .error (d.awaiting io, .bufTooSmall) := by
  unfold T3Stream.awaiting at hlen hhttp hend hshort ⊢
  unfold awaitResponse
  rw [if_pos ⟨hmode, hdone⟩]
  dsimp only
  rw [if_neg (by omega), if_pos ⟨hlen, hhttp⟩, hend]
  exact if_neg (by omega)

/-- Headers that are complete are taken off. -/
theorem awaitResponse_strips {n : ℕ}
    (hlen : 4 ≤ (ringContents (d.awaiting io).stream.inRing).length)
    (hhttp : (ringContents (d.awaiting io).stream.inRing).take 4 = ascii "HTTP")
    (hend : findSub responseEnd (ringContents (d.awaiting io).stream.inRing) = some n) :
    awaitResponse io d =
      .ok { (d.awaiting io).consume (n + 4) with httpResponseDone := true } := by
  unfold T3Stream.awaiting at hlen hhttp hend ⊢
  unfold awaitResponse
  rw [if_pos ⟨hmode, hdone⟩]
  dsimp only
  rw [if_neg (by omega), if_pos ⟨hlen, hhttp⟩, hend]

end Ways

/-- The first look may decide: there is nothing to be decided about, or the status line is there. -/
def Decisive (hdr : Bytes) (c : T3Stream) : Prop :=
  hdr = [] ∨ c.heard.length = 0 ∨ 4 ≤ c.heard.length

/-- A client that has gone on with what it has heard, and has taken the headers off exactly where
its look was decisive. -/
structure Answered (hdr : Bytes) (x e : T3Stream) : Prop where
  mode : e.stream.mode = .http
  done : e.httpResponseDone = true
  readLog : e.readLog = x.readLog
  strips : e.stored = hdr ++ ringContents e.stream.inRing ↔ Decisive hdr x

/-- What is taken for a chunk is left in the ring. -/
theorem answered_chunk {hdr : Bytes} (h : Unanswered hdr d)
    (hiff : hdr = [] ↔ Decisive hdr (d.awaiting io)) :
    Answered hdr (d.awaiting io) { d.awaiting io with httpResponseDone := true } where
  mode := (awaiting_fields io d).2.1.trans h.mode
  done := rfl
  readLog := rfl
  strips := by
    show (d.awaiting io).stored = hdr ++ ringContents (d.awaiting io).stream.inRing ↔ _
    rw [awaiting_stored h, ← hiff]
    constructor
    · exact fun heq => List.self_eq_append_left.mp heq
    · intro hnil
      rw [hnil]
      rfl

/-- **What becomes of a response of chunks only.** -/
theorem awaitResponse_chunks {body : Bytes} (hbody : BeginsWithSize body) (h : Unanswered [] d)
    (hsized : ∀ bs ∈ io.reads, bs.length ≤ 16384) (hheard : (d.awaiting io).heard <+: body) :
    (awaitResponse io d = .error (d.awaiting io, .bufTooSmall) ∧ Unanswered [] (d.awaiting io)) ∨
      ∃ e, awaitResponse io d = .ok e ∧ Answered [] (d.awaiting io) e := by
  have htake := awaiting_take h hsized (k := 1) (by omega)
  have hfields := awaiting_fields io d
  cases hb : ringContents (d.awaiting io).stream.inRing with
  | nil =>
    have hnil : (d.awaiting io).heard = [] := by
      rw [hb] at htake
      cases hx : (d.awaiting io).heard with
      | nil => rfl
      | cons b rest =>
        rw [hx] at htake
        exact nomatch htake
    refine Or.inl ⟨awaitResponse_empty h.mode h.done hb, ?_⟩
    exact
      { mode := hfields.2.1.trans h.mode
        done := hfields.2.2.1.trans h.done
        whole := by rw [hb, hnil]
        stored := by rw [awaiting_stored h, hb, hnil]
        partly := Or.inl hnil }
  | cons b rest =>
    refine Or.inr ⟨_, awaitResponse_chunk h.mode h.done (by rw [hb]; nofun) ?_,
      answered_chunk h ⟨Or.inl, fun _ => rfl⟩⟩
    -- The first byte is a digit.
    rintro ⟨-, hhttp⟩
    have hfirst : b = 0x48 := by
      rw [hb, List.take_succ_cons] at hhttp
      exact (List.cons.inj hhttp).1
    rw [hb] at htake
    cases hx : (d.awaiting io).heard with
    | nil =>
      rw [hx] at htake
      exact nomatch htake
    | cons b' rest' =>
      rw [hx] at htake hheard
      obtain ⟨more, hmore⟩ := hheard
      have hdigit := hbody b' (by rw [← hmore]; rfl)
      rw [← (List.cons.inj htake).1, hfirst] at hdigit
      exact absurd hdigit (by decide)

/-- **What becomes of a response with headers.** -/
theorem awaitResponse_headers {hdr body : Bytes} (hhdr : ResponseHeaders hdr)
    (h : Unanswered hdr d) (hsized : ∀ bs ∈ io.reads, bs.length ≤ 16384)
    (hheard : (d.awaiting io).heard <+: hdr ++ body) :
    (awaitResponse io d = .error (d.awaiting io, .bufTooSmall) ∧
        Unanswered hdr (d.awaiting io)) ∨
      ∃ e, awaitResponse io d = .ok e ∧ Answered hdr (d.awaiting io) e := by
  have hfields := awaiting_fields io d
  have hshort := hhdr.short
  obtain ⟨-, hfour⟩ := findSub_some hhdr.ends
  have hfour : 4 ≤ hdr.length := by
    have : responseEnd.length = 4 := rfl
    omega
  have hwhole (hle : (d.awaiting io).heard.length ≤ 8192) :
      ringContents (d.awaiting io).stream.inRing = (d.awaiting io).heard := awaiting_whole h hle
  have hstored : (d.awaiting io).stored = ringContents (d.awaiting io).stream.inRing :=
    awaiting_stored h
  have hwaits (hpartly : (d.awaiting io).heard = [] ∨
      4 ≤ (d.awaiting io).heard.length ∧ (d.awaiting io).heard.length < hdr.length) :
      Unanswered hdr (d.awaiting io) := by
    have hall := hwhole <| by
      rcases hpartly with hnil | ⟨-, hlt⟩
      · rw [hnil]
        exact Nat.zero_le _
      · omega
    exact ⟨hfields.2.1.trans h.mode, hfields.2.2.1.trans h.done, hall, hstored.trans hall, hpartly⟩
  by_cases hcomplete : hdr.length ≤ (d.awaiting io).heard.length
  · -- All of the headers are there.
    have hprefix : hdr <+: ringContents (d.awaiting io).stream.inRing := by
      have heq : hdr = (d.awaiting io).heard.take hdr.length := by
        obtain ⟨more, hmore⟩ := hheard
        have htake : ((d.awaiting io).heard ++ more).take hdr.length =
            (d.awaiting io).heard.take hdr.length := List.take_append_of_le_length hcomplete
        rw [← htake, hmore, List.take_left]
      rw [heq, ← awaiting_take h hsized hhdr.short]
      exact List.take_prefix _ _
    obtain ⟨rest, hrest⟩ := hprefix
    refine Or.inr ⟨_, awaitResponse_strips h.mode h.done (n := hdr.length - 4) ?_ ?_ ?_, ?_⟩
    · rw [← hrest, List.length_append]
      omega
    · rw [← hrest, List.take_append_of_le_length hfour]
      exact hhdr.status
    · rw [← hrest]
      exact findSub_append hhdr.ends rest
    · refine ⟨hfields.2.1.trans h.mode, rfl, rfl, ⟨fun _ => Or.inr (Or.inr (by omega)),
        fun _ => ?_⟩⟩
      show (d.awaiting io).stored =
        hdr ++ ringContents (ringConsume (d.awaiting io).stream.inRing (hdr.length - 4 + 4))
      rw [hstored, ringContents_ringConsume, ← hrest, Nat.sub_add_cancel hfour, List.drop_left]
  · have hall := hwhole (by omega)
    by_cases hnone : (d.awaiting io).heard = []
    · exact Or.inl ⟨awaitResponse_empty h.mode h.done (hall.trans hnone), hwaits (Or.inl hnone)⟩
    · by_cases hstatus : 4 ≤ (d.awaiting io).heard.length
      · -- A part of the headers is there, the status line with it.
        have hprefix : (d.awaiting io).heard <+: hdr :=
          List.prefix_of_prefix_length_le hheard (List.prefix_append _ _) (by omega)
        have hend : findSub responseEnd (d.awaiting io).heard = none :=
          findSub_of_prefix hhdr.ends hprefix (by
            have : responseEnd.length = 4 := rfl
            omega)
        have hhttp : (d.awaiting io).heard.take 4 = ascii "HTTP" := by
          obtain ⟨more, hmore⟩ := hprefix
          rw [← hhdr.status, ← hmore, List.take_append_of_le_length hstatus]
        refine Or.inl ⟨awaitResponse_partly h.mode h.done ?_ ?_ ?_ ?_,
          hwaits (Or.inr ⟨hstatus, by omega⟩)⟩
        · rw [hall]
          exact hstatus
        · rw [hall]
          exact hhttp
        · rw [hall]
          exact hend
        · rw [hall]
          omega
      · -- Too little to be compared is there.
        refine Or.inr ⟨_, awaitResponse_chunk h.mode h.done (by rw [hall]; exact hnone) ?_,
          answered_chunk h ⟨Or.inl, ?_⟩⟩
        · rw [hall]
          exact fun hlen => hstatus hlen.1
        · rintro (hnil | hzero | hlen)
          · exact hnil
          · exact absurd (List.length_eq_zero_iff.mp hzero) hnone
          · exact absurd hlen hstatus

/-- **What becomes of a response**, whichever it is. -/
theorem awaitResponse_answers {hdr body : Bytes} (hstream : ServerStream hdr body)
    (h : Unanswered hdr d) (hsized : ∀ bs ∈ io.reads, bs.length ≤ 16384)
    (hheard : (d.awaiting io).heard <+: hdr ++ body) :
    (awaitResponse io d = .error (d.awaiting io, .bufTooSmall) ∧
        Unanswered hdr (d.awaiting io)) ∨
      ∃ e, awaitResponse io d = .ok e ∧ Answered hdr (d.awaiting io) e := by
  rcases hstream with hhdr | ⟨rfl, hbody⟩
  · exact awaitResponse_headers hhdr h hsized hheard
  · exact awaitResponse_chunks hbody h hsized hheard

/-- What is read in the state `READY` goes into the books. -/
theorem pumpReadyState_books (c : T3Stream) (env : PumpEnv) :
    (c.pumpReadyState env).readLog = c.readLog ++
        [⟨c.stream.inRing, env.reads.flatten,
          (sslReadIn env.reads env.ended c.stream.inRing).1⟩] ∧
      (c.pumpReadyState env).httpResponseDone = c.httpResponseDone := by
  unfold T3Stream.pumpReadyState T3Stream.processIn T3Stream.readIn T3Stream.flushOut
    T3Stream.meet
  split_ifs <;> exact ⟨rfl, rfl⟩

end Stages

/-! ### Steps -/

section Steps

variable {prim : Primitives} {hdr body : Bytes} {c : T3Stream} {io : PumpIo}

/-- **The states of a run**: the client has failed, or has gone on to the state `READY`, or has not
answered yet. -/
def Proceeding (hdr : Bytes) (c : T3Stream) : Prop :=
  c.stream.state = .error ∨ (c.stream.state = .ready ∧ c.httpResponseDone = true) ∨
    c.stream.state ≠ .ready ∧ Unanswered hdr c

/-- A call of a client that is in the state `READY` behind the handshake's stages. -/
theorem pumpFront_ready (h : c.stream.state = .ready) : pumpFront prim io c = .ok c := by
  unfold pumpFront
  rw [pumpTls_passes (by rw [h]; nofun) (by rw [h]; nofun)]
  exact if_neg (by rw [h]; nofun)

/-- The books of what TLS delivered, in a call that ends in `READY`. -/
theorem endCall_ready (d : T3Stream) (hstate : d.stream.state = .ready) :
    (endCall io (.ok d)).1 = d.pumpReadyState io.ready := if_pos hstate

/-- What is heard up to the response is a part of what is heard in the call. -/
theorem awaiting_heard_part {d : T3Stream} (hmode : d.stream.mode = .http)
    (hdone : d.httpResponseDone = false) :
    (d.awaiting io).heard <+:
      (endCall io ((awaitResponse io d).map fun c => c.setState .ready)).1.heard := by
  have hbooks : Ends (fun e => e.readLog = (d.awaiting io).readLog)
      (fun exit => exit.1.readLog = (d.awaiting io).readLog) (awaitResponse io d) :=
    awaitResponse_books hmode hdone
  unfold T3Stream.heard
  cases ha : awaitResponse io d with
  | error exit =>
    show _ <+: exit.1.readLog.flatMap Appended.bytes
    rw [hbooks.error ha]
  | ok e =>
    show _ <+: (endCall io (.ok (e.setState .ready))).1.readLog.flatMap Appended.bytes
    rw [endCall_ready _ rfl, (pumpReadyState_books _ _).1, List.flatMap_append,
      show (e.setState .ready).readLog = e.readLog from rfl, hbooks.ok ha]
    exact List.prefix_append _ _

/-- **A call of a client that has not answered.**  The headers are taken off exactly where the
condition is met. -/
theorem unanswered_pump (hstream : ServerStream hdr body) (hlive : c.Live)
    (hready : c.stream.state ≠ .ready) (h : Unanswered hdr c)
    (hsized : ∀ bs ∈ io.reads, bs.length ≤ 16384)
    (hheard : (t3ClientPump prim io c).1.heard <+: hdr ++ body) :
    (FrontStrips hdr c (pumpFront prim io c) ↔ (hdr ≠ [] →
      (∃ d, pumpToResponse prim io c = .ok d) →
        ringUsed c.stream.inRing + io.reads.flatten.length = 0 ∨
          4 ≤ ringUsed c.stream.inRing + io.reads.flatten.length)) ∧
      Proceeding hdr (t3ClientPump prim io c).1 := by
  have hsame : StageSame .handshake c (pumpToResponse prim io c) :=
    pumpToResponse_same hlive hready h.mode
  rw [t3ClientPump_live hlive.1 hlive.2] at hheard ⊢
  rw [pumpFront_eq hlive hready] at hheard ⊢
  cases hto : pumpToResponse prim io c with
  | error exit =>
    obtain ⟨hexit, hnot⟩ := hsame.error hto
    have hun := h.same hexit
    refine ⟨⟨fun _ _ hsome => ?_, fun _ => ?_⟩, Or.inr (Or.inr ⟨hnot, hun⟩)⟩
    · obtain ⟨d, hd⟩ := hsome
      exact nomatch hd
    · show exit.1.stored = _ ∧ _
      exact ⟨hun.stored.trans hun.whole.symm, hun.partly.imp id And.right⟩
  | ok d =>
    obtain ⟨hd, hstate⟩ := hsame.ok hto
    have hun := h.same hd
    rw [hto] at hheard
    have hfront : (Except.ok d : Except (T3Stream × T3Result) T3Stream).bind (awaitResponse io) =
        awaitResponse io d := rfl
    rw [hfront] at hheard ⊢
    have hcount : ringUsed c.stream.inRing + io.reads.flatten.length =
        (d.awaiting io).heard.length := by
      rw [awaiting_heard, List.length_append, ← hun.whole, ringContents_length, hd.inRing]
    rw [hcount]
    -- What is heard up to the response is a part of what is heard in the call.
    have hpart : (d.awaiting io).heard <+: hdr ++ body :=
      (awaiting_heard_part hun.mode hun.done).trans hheard
    rcases awaitResponse_answers hstream hun hsized hpart with ⟨heq, hun'⟩ | ⟨e, heq, he⟩
    · rw [heq]
      refine ⟨⟨fun _ _ _ => ?_, fun _ => ?_⟩, Or.inr (Or.inr ⟨?_, hun'⟩)⟩
      · exact hun'.partly.imp List.length_eq_zero_iff.mpr And.left
      · exact ⟨hun'.stored.trans hun'.whole.symm, hun'.partly.imp id And.right⟩
      · show (d.awaiting io).stream.state ≠ .ready
        rw [(awaiting_fields io d).2.2.2, hstate]
        nofun
    · rw [heq]
      have hready' : (e.setState .ready).stream.state = .ready := rfl
      constructor
      · have hstrips : FrontStrips hdr c ((Except.ok e : Except (T3Stream × T3Result) T3Stream).map
            fun c => c.setState .ready) ↔ e.stored = hdr ++ ringContents e.stream.inRing :=
          ⟨fun h' => h'.1 h.done,
            fun heq => ⟨fun _ => heq, fun hno => (nomatch h.done.symm.trans hno)⟩⟩
        rw [hstrips]
        refine he.strips.trans ⟨fun hdec hne _ => hdec.resolve_left hne, fun hall => ?_⟩
        exact or_iff_not_imp_left.mpr fun hne => hall hne ⟨d, rfl⟩
      · refine Or.inr (Or.inl ?_)
        show (endCall io (.ok (e.setState .ready))).1.stream.state = .ready ∧ _
        rw [endCall_ready _ hready']
        exact ⟨pumpReadyState_state _ _ hready', (pumpReadyState_books _ _).2.trans he.done⟩

/-- A read or a write of a client that is not in the state `READY` changes nothing. -/
theorem callStep_idle {e : ClientCall} (hnot : c.stream.state ≠ .ready)
    (hcall : ∀ io, e ≠ .pump io) : callStep prim c e = c := by
  cases e with
  | pump io => exact absurd rfl (hcall io)
  | read outCap =>
    have hread : t3ClientRead c.stream outCap = (c.stream, .invalidArg, []) := if_pos hnot
    rw [callStep, hread]
  | write plaintext env =>
    have hwrite : (t3ClientWrite c.stream plaintext env).stream = c.stream := by
      unfold t3ClientWrite
      cases plaintext with
      | none => rfl
      | some msg =>
        dsimp only
        split_ifs <;> rfl
    rw [callStep, hwrite]

/-- A client in the state `READY` stays there. -/
theorem callStep_ready (hready : c.stream.state = .ready) (hdone : c.httpResponseDone = true)
    (e : ClientCall) :
    (callStep prim c e).stream.state = .ready ∧ (callStep prim c e).httpResponseDone = true := by
  cases e with
  | pump io =>
    have huntroubled : c.untroubled.stream.state = .ready := hready
    rw [callStep, t3ClientPump_ready huntroubled]
    exact ⟨pumpReadyState_state _ _ hready, (pumpReadyState_books _ _).2.trans hdone⟩
  | read outCap =>
    refine ⟨?_, hdone⟩
    show (t3ClientRead c.stream outCap).1.state = .ready
    unfold t3ClientRead
    dsimp only
    split_ifs <;> exact hready
  | write plaintext env =>
    refine ⟨?_, hdone⟩
    show (t3ClientWrite c.stream plaintext env).stream.state = .ready
    unfold t3ClientWrite
    cases plaintext with
    | none => exact hready
    | some msg =>
      dsimp only
      split_ifs
      · exact hready
      · exact hready
      · exact hready
      · cases env.encryptedBlock with
        | none => exact hready
        | some block =>
          cases t3cAesCrypt c.stream.encryptCtx (framedMessage msg.bytes env.padding)
            (framedMessage msg.bytes env.padding).length with
          | none => exact hready
          | some x =>
            dsimp only
            split
            · exact hready
            · exact hready

/-- **One step.**  It strips what it should exactly where it meets the condition, and the client
proceeds in any case. -/
theorem callStep_strips (hstream : ServerStream hdr body) (h : Proceeding hdr c) {e : ClientCall}
    (hsized : TlsSized e) (hheard : (callStep prim c e).heard <+: hdr ++ body) :
    (StripsResponse prim hdr c e ↔ HearsStatus prim hdr c e) ∧
      Proceeding hdr (callStep prim c e) := by
  rcases h with herror | ⟨hready, hdone⟩ | ⟨hnot, hun⟩
  · have hover (hlive : c.Live) : False := hlive.1 herror
    refine ⟨⟨fun _ io _ hlive => (hover hlive).elim, fun _ io _ hlive => (hover hlive).elim⟩,
      Or.inl ?_⟩
    rw [callStep_error herror e]
    exact herror
  · refine ⟨⟨fun _ io _ _ hno => (nomatch hdone.symm.trans hno), fun _ io _ _ => ?_⟩,
      Or.inr (Or.inl (callStep_ready hready hdone e))⟩
    rw [pumpFront_ready (show c.untroubled.stream.state = .ready from hready)]
    exact ⟨fun hno => (nomatch hdone.symm.trans hno), fun _ => rfl⟩
  · by_cases hcall : ∀ io, e ≠ .pump io
    · rw [callStep_idle hnot hcall]
      exact ⟨⟨fun _ io he => absurd he (hcall io), fun _ io he => absurd he (hcall io)⟩,
        Or.inr (Or.inr ⟨hnot, hun⟩)⟩
    · obtain ⟨io, hio⟩ := not_forall.mp hcall
      obtain rfl := not_not.mp hio
      have hun' : Unanswered hdr c.untroubled := hun.same (sameIn_untroubled c)
      by_cases hlive : c.Live
      · obtain ⟨hiff, hnext⟩ := 
          unanswered_pump (c := c.untroubled) hstream hlive hnot hun' (hsized io rfl) hheard
        refine ⟨⟨fun hstrips io' he _ _ => ?_, fun hhears io' he _ => ?_⟩, hnext⟩
        · obtain rfl := ClientCall.pump.inj he
          exact hiff.mp (hstrips io rfl hlive)
        · obtain rfl := ClientCall.pump.inj he
          exact hiff.mpr (hhears io rfl hlive hun.done)
      · -- The client is closed, and a call changes nothing.
        have hsame : (callStep prim c (.pump io)).stream = c.stream ∧
            SameIn c.untroubled (callStep prim c (.pump io)) := by
          rw [callStep]
          unfold t3ClientPump
          by_cases herror : c.untroubled.stream.state = .error
          · rw [if_pos herror]
            exact ⟨rfl, SameIn.refl _⟩
          · have hclosed : c.untroubled.stream.state = .closed :=
              not_not.mp fun hno => hlive ⟨herror, hno⟩
            rw [if_neg herror, if_pos hclosed]
            exact ⟨rfl, SameIn.refl _⟩
        refine ⟨⟨fun _ io' _ hno => absurd hno hlive, fun _ io' _ hno => absurd hno hlive⟩,
          Or.inr (Or.inr ⟨?_, hun'.same hsame.2⟩)⟩
        rw [hsame.1]
        exact hnot

end Steps

/-! ### Runs -/

/-- A client of HTTP that has not heard anything of the response yet, such as
`T3Stream.created`. -/
structure Waiting (c : T3Stream) : Prop where
  mode : c.stream.mode = .http
  done : c.httpResponseDone = false
  unready : c.stream.state ≠ .ready
  empty : ringContents c.stream.inRing = []
  readLog : c.readLog = []

theorem Waiting.unanswered {c : T3Stream} (h : Waiting c) (hdr : Bytes) : Unanswered hdr c where
  mode := h.mode
  done := h.done
  whole := by rw [h.empty, T3Stream.heard, h.readLog]; rfl
  stored := by rw [T3Stream.stored, T3Stream.heard, h.readLog]; rfl
  partly := by rw [T3Stream.heard, h.readLog]; exact Or.inl rfl

/-- A call hears no more than what `SSL_read` delivers in it. -/
theorem unanswered_heard {prim : Primitives} {hdr : Bytes} {c : T3Stream} {io : PumpIo}
    (hlive : c.Live) (hready : c.stream.state ≠ .ready) (h : Unanswered hdr c) :
    (t3ClientPump prim io c).1.heard <+:
      c.heard ++ io.reads.flatten ++ io.ready.reads.flatten := by
  have hsame : StageSame .handshake c (pumpToResponse prim io c) :=
    pumpToResponse_same hlive hready h.mode
  rw [t3ClientPump_live hlive.1 hlive.2, pumpFront_eq hlive hready]
  cases hto : pumpToResponse prim io c with
  | error exit =>
    show exit.1.heard <+: _
    rw [(hsame.error hto).1.heard, List.append_assoc]
    exact List.prefix_append _ _
  | ok d =>
    have hd := (hsame.ok hto).1
    have hbooks : Ends (fun e => e.readLog = (d.awaiting io).readLog)
        (fun exit => exit.1.readLog = (d.awaiting io).readLog) (awaitResponse io d) :=
      awaitResponse_books (hd.mode.trans h.mode) (hd.done.trans h.done)
    rw [← hd.heard, ← awaiting_heard]
    show (endCall io ((awaitResponse io d).map fun c => c.setState .ready)).1.heard <+: _
    unfold T3Stream.heard
    cases ha : awaitResponse io d with
    | error exit =>
      show exit.1.readLog.flatMap Appended.bytes <+: _
      rw [hbooks.error ha]
      exact List.prefix_append _ _
    | ok e =>
      show (endCall io (.ok (e.setState .ready))).1.readLog.flatMap Appended.bytes <+: _
      rw [endCall_ready _ rfl, (pumpReadyState_books _ _).1, List.flatMap_append,
        show (e.setState .ready).readLog = e.readLog from rfl, hbooks.ok ha]
      simp

/-- A client that has sent all of its messages comes to the response. -/
theorem pumpToResponse_sent {prim : Primitives} {c : T3Stream} {io : PumpIo}
    (hstate : c.stream.state = .handshake) (hmode : c.stream.mode = .http)
    (hheaders : c.httpHeadersSent = true) (hobfs2 : c.obfs2Sent = true) :
    pumpToResponse prim io c = .ok (c.flushOut io.writes) := by
  have hgreeting : greeting io c = .ok c := by
    unfold greeting
    rw [hmode]
    exact congrArg Except.ok (if_pos hheaders)
  unfold pumpToResponse
  rw [pumpTls_passes (by rw [hstate]; nofun) (by rw [hstate]; nofun)]
  show (greeting io c).bind _ = _
  rw [hgreeting]
  exact if_pos hobfs2

/-- A client of HTTP that has sent all of its messages. -/
def handshakeStream : T3Stream :=
  { readyStream.setState .handshake with httpResponseDone := false }

/-- A call in which TLS delivers these bytes in wait of the response. -/
def responseIo (reads : List Bytes) : PumpIo :=
  { readyIo ⟨[], false, 0, []⟩ with reads := reads }

theorem handshakeStream_waiting : Waiting handshakeStream where
  mode := rfl
  done := rfl
  unready := nofun
  empty := rfl
  readLog := rfl

/-- What a run of one call hears. -/
theorem handshakeStream_hears (prim : Primitives) (reads : List Bytes) {stream : Bytes}
    (h : reads.flatten <+: stream) :
    Throughout (callStep prim) (fun d => d.heard <+: stream) handshakeStream
      [.pump (responseIo reads)] := by
  refine ⟨List.nil_prefix, ?_⟩
  have hlive : handshakeStream.untroubled.Live := ⟨nofun, nofun⟩
  have hheard : (callStep prim handshakeStream (.pump (responseIo reads))).heard <+:
      handshakeStream.untroubled.heard ++ reads.flatten ++ [] :=
    unanswered_heard hlive nofun (handshakeStream_waiting.unanswered [])
  rw [List.append_nil] at hheard
  exact hheard.trans h

/-- The shortest headers there are. -/
def shortHeaders : Bytes := ascii "HTTP\r\n\r\n"

theorem shortHeaders_stream (body : Bytes) : ServerStream shortHeaders body :=
  Or.inl ⟨by decide, by decide, by decide⟩

/-- **The headers are stripped whichever way the stream is cut into reads**, in a run exactly where
the first look at them finds four bytes of them. -/
theorem clientRun_strips_iff (prim : Primitives) {hdr body : Bytes} (c : T3Stream)
    (es : List ClientCall) (hstream : ServerStream hdr body) (hc : Waiting c)
    (hsized : ∀ e ∈ es, TlsSized e)
    (hheard : Throughout (callStep prim) (fun d => d.heard <+: hdr ++ body) c es) :
    Along (callStep prim) (StripsResponse prim hdr) c es ↔
      Along (callStep prim) (HearsStatus prim hdr) c es := by
  have hrun : Proceeding hdr c := Or.inr (Or.inr ⟨hc.unready, hc.unanswered hdr⟩)
  clear hc
  induction es generalizing c with
  | nil => exact Iff.rfl
  | cons e es ih =>
    obtain ⟨hiff, hnext⟩ := callStep_strips hstream hrun (hsized e List.mem_cons_self) hheard.2.start
    exact and_congr hiff
      (ih _ (fun e he => hsized e (List.mem_cons_of_mem _ he)) hheard.2 hnext)

/-- Headers and a chunk, cut inside the headers. -/
theorem clientRun_strips_cut :
    ServerStream shortHeaders (ascii "0\r\n\r\n") ∧
      (Along (callStep ⟨id, fun _ _ _ => 0⟩) (StripsResponse ⟨id, fun _ _ _ => 0⟩ shortHeaders)
          handshakeStream [.pump (responseIo [ascii "HTTP\r", ascii "\n\r\n0"])] ↔
        Along (callStep ⟨id, fun _ _ _ => 0⟩) (HearsStatus ⟨id, fun _ _ _ => 0⟩ shortHeaders)
          handshakeStream [.pump (responseIo [ascii "HTTP\r", ascii "\n\r\n0"])]) := by
  refine ⟨shortHeaders_stream _, clientRun_strips_iff _ _ _
    (shortHeaders_stream (ascii "0\r\n\r\n")) handshakeStream_waiting ?_
    (handshakeStream_hears _ _ ?_)⟩
  · intro e he io hio bs hbs
    obtain rfl := List.mem_singleton.mp he
    obtain rfl := ClientCall.pump.inj hio
    have hall : ∀ bs ∈ [ascii "HTTP\r", ascii "\n\r\n0"], bs.length ≤ 16384 := by decide
    exact hall bs hbs
  · exact List.isPrefixOf_iff_prefix.mp (by decide)

/-- **Headers are left in the ring.**  TLS delivers the first byte of them in a read of its own: the
client takes it for a chunk and does not look for headers again. -/
theorem clientRun_not_stripped :
    ¬ ∀ (prim : Primitives) (hdr body : Bytes) (c : T3Stream) (es : List ClientCall),
      ServerStream hdr body → Waiting c → (∀ e ∈ es, TlsSized e) →
        Throughout (callStep prim) (fun d => d.heard <+: hdr ++ body) c es →
          Along (callStep prim) (StripsResponse prim hdr) c es := by
  intro h
  have hsized : TlsSized (.pump (responseIo [[0x48]])) := by
    intro io hio bs hbs
    obtain rfl := ClientCall.pump.inj hio
    obtain rfl := List.mem_singleton.mp hbs
    decide
  have hheard := handshakeStream_hears ⟨id, fun _ _ _ => 0⟩ [[0x48]]
    (List.isPrefixOf_iff_prefix.mp (by decide : [0x48].isPrefixOf (shortHeaders ++ []) = true))
  obtain ⟨hstrips, -⟩ := h _ _ _ _ _ (shortHeaders_stream []) handshakeStream_waiting
    (by rintro e he; rw [List.mem_singleton.mp he]; exact hsized) hheard
  have hrun : Proceeding shortHeaders handshakeStream :=
    Or.inr (Or.inr ⟨nofun, handshakeStream_waiting.unanswered _⟩)
  have hhears := (callStep_strips (shortHeaders_stream []) hrun hsized hheard.2).1.mp hstrips
  have hcome : pumpToResponse ⟨id, fun _ _ _ => 0⟩ (responseIo [[0x48]])
      handshakeStream.untroubled = .ok _ := pumpToResponse_sent rfl rfl rfl rfl
  have hcount := hhears _ rfl ⟨nofun, nofun⟩ rfl (by decide) ⟨_, hcome⟩
  have hused : ringUsed handshakeStream.stream.inRing = 0 := rfl
  rw [hused] at hcount
  exact absurd hcount (by decide)

end Client
end Teleproto3
