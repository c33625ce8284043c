/-
# Errors that end a stream

Where the peer has closed, TLS has failed, a frame cannot be read or the upgrade is refused, the
stream is over: the call of `t3_client_pump` that meets it should leave the client in the state
`ERROR` and not return `T3_OK`, and no message should be delivered after it that was not there
before.

The pump drops the results of `ssl_flush_out`, `ssl_read_in` and `process_incoming` in every
state, and on a refused upgrade it returns an error but leaves the state as it is.  So a call
surfaces what it meets exactly where it meets nothing, or where the headers of the response
are too long at the same time: `pump_surfaces_iff`.  `clientRun_surfaces_iff` is about runs.
-/

import Teleproto3.Client.ByteLoss
import Teleproto3.Client.Write
import Teleproto3.Lib.Runs

namespace Teleproto3
namespace Client

open Lib Wire

/-! ### A call -/

/-- The stream with nothing met so far. -/
def T3Stream.untroubled (c : T3Stream) : T3Stream := { c with faults := [] }

/-- A call that leaves with this has met nothing, or has surfaced it. -/
def SurfacedExit (exit : T3Stream × T3Result) : Prop :=
  exit.1.faults ≠ [] → exit.1.stream.state = .error ∧ exit.2 ≠ .ok

/-- **What is promised of a call.** -/
def PumpSurfaces (prim : Primitives) (io : PumpIo) (c : T3Stream) : Prop :=
  SurfacedExit (t3ClientPump prim io c.untroubled)

/-! ### The condition -/

/-- No call of `SSL_write` in this flush fails. -/
def Flushes (writes : List SslWrite) (r : RingBuf) : Prop := ¬ (sslFlushOut writes r).2.2 < 0

/-- The upgrade is refused: its headers do not end in more than 4096 bytes, or the status is not
101. -/
def Refused (c : T3Stream) : Prop :=
  c.wsUpgradeSent = true ∧ 12 ≤ ringUsed c.stream.inRing ∧
    match findSub responseEnd (ringContents c.stream.inRing) with
    | none => 4096 < ringUsed c.stream.inRing
    | some _ => (ringContents c.stream.inRing).take 12 ≠ ascii "HTTP/1.1 101"

/-- `out_ring` behind the upgrade request, where it is queued. -/
def outWithRequest (io : PumpIo) (c : T3Stream) : RingBuf :=
  if c.wsUpgradeSent = false ∧ (upgradeRequest c.path c.host io.nonce).length < 1024 then
    (ringAppend c.stream.outRing (upgradeRequest c.path c.host io.nonce)).1
  else c.stream.outRing

/-- `out_ring` behind the obfuscated2 header. -/
def outWithObfs2 (prim : Primitives) (io : PumpIo) (c : T3Stream) : RingBuf :=
  if c.obfs2Sent = false then
    match obfs2Frame prim io c with
    | none => c.stream.outRing
    | some frame => (ringAppend c.stream.outRing frame).1
  else c.stream.outRing

/-- Nothing is met up to the first message.  Only where a call ends behind it, it reads and
flushes. -/
def GreetingCalm (io : PumpIo) (c : T3Stream) : Prop :=
  c.stream.mode = .ws → c.wsUpgradeDone = false → ¬ Upgraded c →
    ¬ Refused c ∧ Flushes io.writes (outWithRequest io c) ∧ io.ended = false

/-- Nothing is met behind the obfuscated2 header. -/
def Obfs2Calm (prim : Primitives) (io : PumpIo) (c : T3Stream) : Prop :=
  Flushes io.writes (outWithObfs2 prim io c)

/-- Nothing is met in wait of the response. -/
def ResponseCalm (io : PumpIo) (c : T3Stream) : Prop :=
  c.stream.mode = .http → c.httpResponseDone = false →
    Flushes io.writesAgain c.stream.outRing ∧ io.ended = false

/-- Nothing is met in the state `READY`. -/
def ReadyCalm (io : PumpIo) (c : T3Stream) : Prop :=
  io.ready.ended = false ∧ ¬ MeetsMalformed ⟨pumpRead c.stream io.ready, io.ready.mallocs, 0⟩ ∧
    Flushes io.ready.writes c.stream.outRing

/-- Nothing is met in a handshake and in what follows in the same call. -/
def HandshakeCalm (prim : Primitives) (io : PumpIo) (c : T3Stream) : Prop :=
  GreetingCalm io c ∧
    Passing (fun c => Passing (fun d => Obfs2Calm prim io c ∧ ResponseCalm io d ∧
      Passing (fun e => ReadyCalm io (e.setState .ready)) (awaitResponse io d))
      (startObfs2 prim io c)) (greeting io c)

/-- The handshake comes to a response whose headers are too long. -/
def ComesToTooLong (prim : Primitives) (io : PumpIo) (c : T3Stream) : Prop :=
  ∃ d e, greeting io c = .ok d ∧ startObfs2 prim io d = .ok e ∧ ResponseTooLong io e

/-- **The condition on a call.**  Nothing is met, or the headers of the response are too long. -/
def PumpCalm (prim : Primitives) (io : PumpIo) (c : T3Stream) : Prop :=
  Passing (fun c => (c.stream.state = .ready → ReadyCalm io c) ∧
    (c.stream.state = .handshake → ComesToTooLong prim io c ∨ HandshakeCalm prim io c))
    ((pumpConnecting io c).bind (pumpTlsHandshake io))

section Stages

variable {c d : T3Stream} {prim : Primitives} {io : PumpIo}

/-- An exit that is no failure. -/
theorem surfacedExit_iff {rc : T3Result} (hstate : d.stream.state ≠ .error) :
    SurfacedExit (d, rc) ↔ d.faults = [] := by
  constructor
  · intro h
    by_contra hne
    exact hstate (h hne).1
  · intro hnil hne
    exact absurd hnil hne

/-- Nothing met before, and nothing now. -/
theorem meet_faults_nil (p : Prop) [Decidable p] (fault : StreamFault) :
    (c.meet p fault).faults = [] ↔ c.faults = [] ∧ ¬ p := by
  rw [T3Stream.meet_faults]
  by_cases h : p
  · rw [if_pos h]
    exact ⟨fun hnil => absurd hnil (List.append_ne_nil_of_right_ne_nil _ (List.cons_ne_nil _ _)),
      fun hall => absurd h hall.2⟩
  · rw [if_neg h, List.append_nil]
    exact ⟨fun hnil => ⟨hnil, h⟩, fun hall => hall.1⟩

theorem flushOut_faults (writes : List SslWrite) :
    (c.flushOut writes).faults = [] ↔ c.faults = [] ∧ Flushes writes c.stream.outRing :=
  meet_faults_nil _ _

theorem sslReadIn_failed (reads : List Bytes) (ended : Bool) (r : RingBuf) :
    (sslReadIn reads ended r).2 < 0 ↔ ended = true := by
  induction reads generalizing r with
  | nil =>
    cases ended with
    | false =>
      show (0 : ℤ) < 0 ↔ _
      exact ⟨fun h => absurd h (lt_irrefl 0), fun h => (nomatch h)⟩
    | true =>
      show (-1 : ℤ) < 0 ↔ _
      exact ⟨fun _ => rfl, fun _ => by decide⟩
  | cons bs reads ih => exact ih _

theorem readIn_faults (reads : List Bytes) (ended : Bool) :
    (c.readIn reads ended).faults = [] ↔ c.faults = [] ∧ ended = false := by
  have hmeet := meet_faults_nil (c := { c with
    stream :=
      { c.stream with
        inRing := (sslReadIn reads ended c.stream.inRing).1
        inRing_cap := by rw [sslReadIn_cap, c.stream.inRing_cap] }
    readLog := c.readLog ++
      [(⟨c.stream.inRing, reads.flatten, (sslReadIn reads ended c.stream.inRing).1⟩ : Appended)] })
    ((sslReadIn reads ended c.stream.inRing).2 < 0) .readEnded
  refine hmeet.trans (and_congr_right fun _ => ?_)
  rw [sslReadIn_failed, Bool.not_eq_true]

/-- What a stage does with a stream that has met nothing: where it is passed nothing is met
exactly where all is calm, and where a call ends in it, it surfaces what it meets exactly then. -/
abbrev StageSurfaces (calm : Prop) (x : Except (T3Stream × T3Result) T3Stream) : Prop :=
  Ends (fun d => d.faults = [] ↔ calm) (fun exit => SurfacedExit exit ↔ calm) x

/-- A call that flushes, reads and ends, in a state that is no error. -/
theorem flush_read_surfaces {rc : T3Result} (hstate : d.stream.state ≠ .error) :
    SurfacedExit ((d.flushOut io.writes).readIn io.reads io.ended, rc) ↔
      d.faults = [] ∧ Flushes io.writes d.stream.outRing ∧ io.ended = false := by
  have hback : ((d.flushOut io.writes).readIn io.reads io.ended).stream.state ≠ .error := by
    rw [readIn_flushOut_state]
    exact hstate
  rw [surfacedExit_iff hback, readIn_faults, flushOut_faults, and_assoc]

/-- A refused upgrade is one whose answer is there, and is none or not 101. -/
theorem handleWsUpgrade_refused (nonce : Fin 16 → UInt8) (hsent : c.wsUpgradeSent = true) :
    (Refused c ∧ handleWsUpgrade nonce c = (c.meet True .upgradeRefused, -1)) ∨
      (¬ Refused c ∧ ¬ Upgraded c ∧ handleWsUpgrade nonce c = (c, 1)) ∨
      (¬ Refused c ∧ Upgraded c ∧ ∃ n,
        handleWsUpgrade nonce c = ({ c.consume (n + 4) with wsUpgradeDone := true }, 0)) := by
  unfold handleWsUpgrade Refused Upgraded
  rw [hsent, if_neg Bool.noConfusion]
  dsimp only
  rw [ringContents_length]
  by_cases hlen : ringUsed c.stream.inRing < 12
  · rw [if_pos hlen]
    exact Or.inr (Or.inl ⟨fun h => absurd h.2.1 (not_le.mpr hlen),
      fun h => absurd h.2.1 (not_le.mpr hlen), rfl⟩)
  · rw [if_neg hlen]
    cases hend : findSub responseEnd (ringContents c.stream.inRing) with
    | none =>
      dsimp only
      by_cases hlong : 4096 < ringUsed c.stream.inRing
      · rw [if_pos hlong]
        exact Or.inl ⟨⟨rfl, not_lt.mp hlen, hlong⟩, rfl⟩
      · rw [if_neg hlong]
        exact Or.inr (Or.inl ⟨fun h => hlong h.2.2, fun h => (nomatch h.2.2.1), rfl⟩)
    | some n =>
      dsimp only
      by_cases hstatus : (ringContents c.stream.inRing).take 12 ≠ ascii "HTTP/1.1 101"
      · rw [if_pos hstatus]
        exact Or.inl ⟨⟨rfl, not_lt.mp hlen, hstatus⟩, rfl⟩
      · rw [if_neg hstatus]
        exact Or.inr (Or.inr ⟨fun h => hstatus h.2.2,
          ⟨rfl, not_lt.mp hlen, rfl, not_not.mp hstatus⟩, n, rfl⟩)

/-- **The first message.** -/
theorem greeting_surfaces (hnil : c.faults = []) (hstate : c.stream.state ≠ .error) :
    Ends (fun d => d.faults = [] ∧ GreetingCalm io c)
      (fun exit => SurfacedExit exit ↔ GreetingCalm io c) (greeting io c) := by
  unfold greeting GreetingCalm
  cases hmode : c.stream.mode with
  | http =>
    show T3Stream.faults _ = [] ∧ _
    have hkeeps : (if c.httpHeadersSent then c
        else { (sendHttpPostHeaders c).1 with httpHeadersSent := true }).faults = c.faults := by
      unfold sendHttpPostHeaders
      dsimp only
      split_ifs <;> rfl
    rw [hkeeps]
    exact ⟨hnil, fun hws => (nomatch hws)⟩
  | ws =>
    by_cases hdone : c.wsUpgradeDone = false
    · cases hsent : c.wsUpgradeSent with
      | false =>
        have hnot : ¬ Upgraded c := fun h => nomatch hsent.symm.trans h.1
        have hrefused : ¬ Refused c := fun h => nomatch hsent.symm.trans h.1
        rcases handleWsUpgrade_cases io.nonce c with ⟨-, hlen, heq⟩ | ⟨-, hlen, heq⟩ | ⟨hno, -⟩ |
          ⟨hno, -⟩
        · have hout : outWithRequest io c = c.stream.outRing :=
            if_neg fun h => absurd h.2 (not_lt.mpr hlen)
          rw [wsGreeting_failed hdone heq, hout]
          refine (flush_read_surfaces (d := c.dropMessage _) hstate).trans ?_
          exact ⟨fun h _ _ _ => ⟨hrefused, h.2⟩, fun hall => ⟨hnil, (hall rfl hdone hnot).2⟩⟩
        · have hout : outWithRequest io c = (ringAppend c.stream.outRing
              (upgradeRequest c.path c.host io.nonce)).1 := if_pos ⟨hsent, hlen⟩
          rw [wsGreeting_waits hdone heq, hout]
          refine (flush_read_surfaces (d := { c.queueMessage _ with wsUpgradeSent := true })
            hstate).trans ?_
          exact ⟨fun h _ _ _ => ⟨hrefused, h.2⟩, fun hall => ⟨hnil, (hall rfl hdone hnot).2⟩⟩
        · exact nomatch hsent.symm.trans hno
        · exact absurd hno hnot
      | true =>
        have hout : outWithRequest io c = c.stream.outRing := by
          unfold outWithRequest
          rw [hsent]
          exact if_neg fun h => Bool.noConfusion h.1
        rcases handleWsUpgrade_refused io.nonce hsent with ⟨hrefused, heq⟩ | ⟨hrefused, hnot, heq⟩ |
          ⟨-, hup, n, heq⟩
        · have hnot : ¬ Upgraded c := by
            rintro ⟨-, -, hsome, hstatus⟩
            obtain ⟨n, hn⟩ := Option.isSome_iff_exists.mp hsome
            have href := hrefused.2.2
            rw [hn] at href
            exact href hstatus
          rw [wsGreeting_failed hdone heq]
          have hmeet : ¬ (c.meet True .upgradeRefused).faults = [] :=
            fun h => ((meet_faults_nil True .upgradeRefused).mp h).2 trivial
          refine (flush_read_surfaces ?_).trans
            ⟨fun h => absurd h.1 hmeet, fun hall => absurd hrefused (hall rfl hdone hnot).1⟩
          rw [T3Stream.meet_stream]
          exact hstate
        · rw [wsGreeting_waits hdone heq, hout]
          refine (flush_read_surfaces hstate).trans ?_
          exact ⟨fun h _ _ _ => ⟨hrefused, h.2⟩, fun hall => ⟨hnil, (hall rfl hdone hnot).2⟩⟩
        · rw [wsGreeting_passes hdone heq]
          exact ⟨hnil, fun _ _ hnot => absurd hup hnot⟩
    · have hpass : wsGreeting io c = .ok c := if_pos (Bool.eq_true_of_not_eq_false hdone)
      rw [hpass]
      exact ⟨hnil, fun _ h => absurd h hdone⟩

/-- **The obfuscated2 header.** -/
theorem startObfs2_faults (h : startObfs2 prim io c = .ok d) :
    d.faults = [] ↔ c.faults = [] ∧ Obfs2Calm prim io c := by
  have hframes := sendObfs2Init_frame prim io c
  unfold startObfs2 at h
  by_cases hsent : c.obfs2Sent = false
  · rw [hsent, if_neg Bool.false_ne_true] at h
    generalize sendObfs2Init prim c.params io.draws io.evp io.mask c.stream = r at hframes h
    obtain ⟨stream, sent⟩ := r
    rcases hframes with ⟨-, hfalse⟩ | ⟨frame, hframe, htrue, hout, -, -, -⟩
    · dsimp only at hfalse h
      rw [hfalse, if_pos rfl] at h
      exact nomatch h
    · dsimp only at htrue hout h
      rw [htrue, if_neg (by decide)] at h
      have hring : outWithObfs2 prim io c = stream.outRing := by
        unfold outWithObfs2
        rw [if_pos hsent, hframe, hout]
      unfold Obfs2Calm
      rw [hring, ← Except.ok.inj h, flushOut_faults]
  · have hring : outWithObfs2 prim io c = c.stream.outRing := if_neg hsent
    rw [if_pos (Bool.eq_true_of_not_eq_false hsent)] at h
    unfold Obfs2Calm
    rw [hring, ← Except.ok.inj h, flushOut_faults]

/-- **The response**, where it is not too long. -/
theorem awaitResponse_surfaces (hstate : c.stream.state ≠ .error) (h : ¬ ResponseTooLong io c) :
    StageSurfaces (c.faults = [] ∧ ResponseCalm io c) (awaitResponse io c) := by
  have hfaults (hwaits : c.stream.mode = .http ∧ c.httpResponseDone = false) :
      (c.awaiting io).faults = [] ↔ c.faults = [] ∧ ResponseCalm io c := by
    rw [T3Stream.awaiting, readIn_faults, flushOut_faults, and_assoc]
    exact and_congr_right fun _ => ⟨fun hcalm _ _ => hcalm, fun hcalm => hcalm hwaits.1 hwaits.2⟩
  rcases awaitResponse_cases h with ⟨hnot, heq⟩ | ⟨hwaits, heq | ⟨n, -, -, heq⟩ | ⟨-, -, heq⟩⟩
  · rw [heq]
    exact ⟨fun hnil => ⟨hnil, fun hmode hdone => absurd ⟨hmode, hdone⟩ hnot⟩, fun hall => hall.1⟩
  · rw [heq]
    refine (surfacedExit_iff ?_).trans (hfaults hwaits)
    rw [T3Stream.awaiting, readIn_flushOut_state]
    exact hstate
  · rw [heq]
    exact hfaults hwaits
  · rw [heq]
    exact hfaults hwaits

/-- **The state `READY`.** -/
theorem pumpReadyState_faults (c : T3Stream) :
    (c.pumpReadyState io.ready).faults = [] ↔ c.faults = [] ∧ ReadyCalm io c := by
  have hread : (c.readIn io.ready.reads io.ready.ended).stream = pumpRead c.stream io.ready := by
    unfold T3Stream.readIn
    rw [T3Stream.meet_stream]
    rfl
  have hout : ((c.readIn io.ready.reads io.ready.ended).processIn
      io.ready.mallocs).stream.outRing = c.stream.outRing := by
    unfold T3Stream.processIn
    rw [T3Stream.meet_stream, (processIncoming_keeps _).outRing, hread]
    rfl
  have hprocess : ((c.readIn io.ready.reads io.ready.ended).processIn io.ready.mallocs).faults =
      [] ↔ (c.readIn io.ready.reads io.ready.ended).faults = [] ∧
        ¬ MeetsMalformed ⟨pumpRead c.stream io.ready, io.ready.mallocs, 0⟩ := by
    unfold T3Stream.processIn
    rw [meet_faults_nil, hread]
  unfold T3Stream.pumpReadyState ReadyCalm
  rw [flushOut_faults, hprocess, readIn_faults, hout, and_assoc, and_assoc]

/-- **A handshake**, with what follows in the same call. -/
theorem pumpHandshake_surfaces (hnil : c.faults = []) (hstate : c.stream.state = .handshake) :
    SurfacedExit (endCall io (pumpHandshake prim io c)) ↔
      ComesToTooLong prim io c ∨ HandshakeCalm prim io c := by
  have hne : c.stream.state ≠ .error := by
    rw [hstate]
    nofun
  have hfailed (d : T3Stream) (h : d.stream.state = .error) : SurfacedExit (d, .internal) :=
    fun _ => ⟨h, nofun⟩
  have hgreeting : Ends (fun d => d.faults = [] ∧ GreetingCalm io c)
      (fun exit => SurfacedExit exit ↔ GreetingCalm io c) (greeting io c) :=
    greeting_surfaces hnil hne
  unfold pumpHandshake HandshakeCalm ComesToTooLong
  rw [if_pos hstate]
  cases hg : greeting io c with
  | error exit =>
    refine (hgreeting.error hg).trans ⟨fun hcalm => Or.inr ⟨hcalm, trivial⟩, ?_⟩
    rintro (⟨d, e, hd, -⟩ | ⟨hcalm, -⟩)
    · exact nomatch hd
    · exact hcalm
  | ok d =>
    obtain ⟨hd, hcalm⟩ := hgreeting.ok hg
    rw [and_iff_right hcalm]
    show SurfacedExit (endCall io (((startObfs2 prim io d).bind (awaitResponse io)).map _)) ↔
      (∃ d' e, Except.ok d = Except.ok d' ∧ _) ∨ Passing (fun e => Obfs2Calm prim io d ∧
        ResponseCalm io e ∧ Passing (fun f => ReadyCalm io (f.setState .ready))
          (awaitResponse io e)) (startObfs2 prim io d)
    by_cases hnone : d.obfs2Sent = false ∧ obfs2Frame prim io d = none
    · obtain ⟨x, hx, herr⟩ := startObfs2_fails hnone.1 hnone.2
      rw [hx]
      exact ⟨fun _ => Or.inr trivial, fun _ => hfailed x herr⟩
    · obtain ⟨e, he, -, -, -, hstate', -⟩ := startObfs2_passes hnone
      have hefaults : e.faults = [] ↔ Obfs2Calm prim io d :=
        (startObfs2_faults he).trans (and_iff_right hd)
      rw [he]
      by_cases htoo : ResponseTooLong io e
      · obtain ⟨x, hx, herr⟩ := awaitResponse_fails htoo
        show SurfacedExit (endCall io ((awaitResponse io e).map _)) ↔ _
        rw [hx]
        exact ⟨fun _ => Or.inl ⟨d, e, rfl, he, htoo⟩, fun _ => hfailed x herr⟩
      · have hne' : e.stream.state ≠ .error := by
          rw [hstate', greeting_state hg]
          exact hne
        have hresponse : StageSurfaces (e.faults = [] ∧ ResponseCalm io e) (awaitResponse io e) :=
          awaitResponse_surfaces hne' htoo
        have hfine : ¬ ∃ d' e', (Except.ok d : Except (T3Stream × T3Result) T3Stream) = .ok d' ∧
            startObfs2 prim io d' = .ok e' ∧ ResponseTooLong io e' := by
          rintro ⟨d', e', hd', he', htoo'⟩
          obtain rfl := Except.ok.inj hd'
          obtain rfl := Except.ok.inj (he.symm.trans he')
          exact htoo htoo'
        rw [or_iff_right hfine]
        show SurfacedExit (endCall io ((awaitResponse io e).map _)) ↔
          Obfs2Calm prim io d ∧ ResponseCalm io e ∧
            Passing (fun f => ReadyCalm io (f.setState .ready)) (awaitResponse io e)
        cases ha : awaitResponse io e with
        | error exit =>
          refine (hresponse.error ha).trans ?_
          rw [hefaults]
          exact and_congr_right fun _ => (and_iff_left trivial).symm
        | ok f =>
          have hf : f.faults = [] ↔ e.faults = [] ∧ ResponseCalm io e := hresponse.ok ha
          have hset : (f.setState .ready).faults = f.faults := rfl
          have hend : endCall io (.ok (f.setState .ready)) =
              ((f.setState .ready).pumpReadyState io.ready, .ok) := rfl
          show SurfacedExit (endCall io (.ok (f.setState .ready))) ↔ _
          rw [hend]
          refine (surfacedExit_iff ?_).trans ?_
          · rw [pumpReadyState_state _ _ rfl]
            nofun
          · rw [pumpReadyState_faults, hset, hf, hefaults, and_assoc]
            rfl

/-- **A call surfaces what it meets** exactly where it meets nothing, or where the headers of the
response are too long. -/
theorem pump_surfaces_iff (prim : Primitives) (io : PumpIo) (c : T3Stream) :
    PumpSurfaces prim io c ↔ PumpCalm prim io c.untroubled := by
  have hnil : c.untroubled.faults = [] := rfl
  unfold PumpSurfaces
  generalize c.untroubled = c at hnil
  have hstay (rc : T3Result) : SurfacedExit (c, rc) := fun hne => absurd hnil hne
  -- Behind the TLS handshake.
  have hshake (d : T3Stream) (hd : d.faults = []) (hstate : d.stream.state = .handshake) :
      SurfacedExit (endCall io (pumpHandshake prim io d)) ↔
        (d.stream.state = .ready → ReadyCalm io d) ∧ (d.stream.state = .handshake →
          ComesToTooLong prim io d ∨ HandshakeCalm prim io d) := by
    rw [pumpHandshake_surfaces hd hstate, hstate]
    exact ⟨fun h => ⟨fun hno => (nomatch hno), fun _ => h⟩, fun h => h.2 rfl⟩
  have htls (d : T3Stream) (hd : d.faults = []) (hstate : d.stream.state = .tls) :
      SurfacedExit (endCall io ((pumpTlsHandshake io d).bind (pumpHandshake prim io))) ↔
        Passing (fun c => (c.stream.state = .ready → ReadyCalm io c) ∧
          (c.stream.state = .handshake → ComesToTooLong prim io c ∨ HandshakeCalm prim io c))
          (pumpTlsHandshake io d) := by
    unfold pumpTlsHandshake
    rw [if_pos hstate]
    cases io.tls with
    | done => exact hshake (d.setState .handshake) hd rfl
    | again => exact ⟨fun _ => trivial, fun _ hne => absurd hd hne⟩
    | failed => exact ⟨fun _ => trivial, fun _ hne => absurd hd hne⟩
  unfold PumpCalm
  cases hstate : c.stream.state with
  | connecting =>
    rw [t3ClientPump_live (by rw [hstate]; nofun) (by rw [hstate]; nofun)]
    unfold pumpFront pumpConnecting
    rw [if_pos hstate]
    cases io.tcp with
    | pending => exact ⟨fun _ => trivial, fun _ => hstay _⟩
    | failed => exact ⟨fun _ => trivial, fun _ hne => absurd hnil hne⟩
    | connected => exact htls (c.setState .tls) hnil rfl
  | tls =>
    have hconnected : pumpConnecting io c = .ok c := if_neg (by rw [hstate]; nofun)
    rw [t3ClientPump_live (by rw [hstate]; nofun) (by rw [hstate]; nofun)]
    unfold pumpFront
    rw [hconnected]
    exact htls c hnil hstate
  | handshake =>
    have hpass : (pumpConnecting io c).bind (pumpTlsHandshake io) = .ok c :=
      pumpTls_passes (by rw [hstate]; nofun) (by rw [hstate]; nofun)
    rw [t3ClientPump_live (by rw [hstate]; nofun) (by rw [hstate]; nofun)]
    unfold pumpFront
    rw [hpass]
    exact hshake c hnil hstate
  | ready =>
    have hpass : (pumpConnecting io c).bind (pumpTlsHandshake io) = .ok c :=
      pumpTls_passes (by rw [hstate]; nofun) (by rw [hstate]; nofun)
    rw [t3ClientPump_ready hstate, hpass]
    show _ ↔ (c.stream.state = .ready → ReadyCalm io c) ∧ (c.stream.state = .handshake → _)
    rw [hstate]
    refine (surfacedExit_iff ?_).trans ?_
    · rw [pumpReadyState_state _ _ hstate]
      nofun
    · rw [pumpReadyState_faults, and_iff_right hnil]
      exact ⟨fun h => ⟨fun _ => h, fun hno => (nomatch hno)⟩, fun h => h.1 rfl⟩
  | error =>
    have hover : t3ClientPump prim io c = (c, .internal) := if_pos hstate
    rw [hover, pumpTls_passes (by rw [hstate]; nofun) (by rw [hstate]; nofun)]
    refine ⟨fun _ => ⟨fun hno => ?_, fun hno => ?_⟩, fun _ => hstay _⟩
    · exact nomatch hstate.symm.trans hno
    · exact nomatch hstate.symm.trans hno
  | closed =>
    have hover : t3ClientPump prim io c = (c, .invalidArg) := by
      unfold t3ClientPump
      rw [if_neg (by rw [hstate]; nofun), if_pos hstate]
    rw [hover, pumpTls_passes (by rw [hstate]; nofun) (by rw [hstate]; nofun)]
    refine ⟨fun _ => ⟨fun hno => ?_, fun hno => ?_⟩, fun _ => hstay _⟩
    · exact nomatch hstate.symm.trans hno
    · exact nomatch hstate.symm.trans hno

end Stages

/-! ### Runs -/

/-- What the application does, and what the outside answers. -/
inductive ClientCall
  | pump (io : PumpIo)
  | read (outCap : ℕ)
  | write (plaintext : Option Object) (env : WriteEnv)

/-- One call.  The books of a pump begin with it. -/
def callStep (prim : Primitives) (c : T3Stream) : ClientCall → T3Stream
  | .pump io => (t3ClientPump prim io c.untroubled).1
  | .read outCap => { c with stream := (t3ClientRead c.stream outCap).1 }
  | .write plaintext env => { c with stream := (t3ClientWrite c.stream plaintext env).stream }

/-- Whatever can be read now could be read then. -/
def NothingNew (d c : T3Stream) : Prop :=
  ringContents c.stream.plainIn <:+ ringContents d.stream.plainIn

/-- **What is promised of a run.**  A pump that meets what ends a stream leaves the client in the
state `ERROR` and does not return `T3_OK`, and no message can be read after it that could not be
read then. -/
def FaultsSurface (prim : Primitives) : T3Stream → List ClientCall → Prop
  | _, [] => True
  | c, e :: es =>
    (∀ io, e = .pump io → PumpSurfaces prim io c ∧
      ((callStep prim c e).faults ≠ [] →
        Throughout (callStep prim) (NothingNew (callStep prim c e)) (callStep prim c e) es)) ∧
      FaultsSurface prim (callStep prim c e) es

/-- **The condition on a step.** -/
def CallCalm (prim : Primitives) (c : T3Stream) (e : ClientCall) : Prop :=
  ∀ io, e = .pump io → PumpCalm prim io c.untroubled

/-- Nothing happens to a client in the state `ERROR`. -/
theorem callStep_error {prim : Primitives} {c : T3Stream} (h : c.stream.state = .error)
    (e : ClientCall) : (callStep prim c e).stream = c.stream := by
  cases e with
  | pump io =>
    have hover : t3ClientPump prim io c.untroubled = (c.untroubled, .internal) := if_pos h
    rw [callStep, hover]
    rfl
  | read outCap =>
    have hnot : c.stream.state ≠ .ready := by
      rw [h]
      nofun
    have hread : t3ClientRead c.stream outCap = (c.stream, .invalidArg, []) := if_pos hnot
    rw [callStep, hread]
  | write plaintext env =>
    have hnot : c.stream.state ≠ .ready := by
      rw [h]
      nofun
    have hwrite : (t3ClientWrite c.stream plaintext env).stream = c.stream := by
      unfold t3ClientWrite
      cases plaintext with
      | none => rfl
      | some msg =>
        dsimp only
        split_ifs <;> rfl
    rw [callStep, hwrite]

/-- **Errors that end a stream are surfaced** in a run exactly where every pump meets none, or
meets it together with headers of a response that are too long. -/
theorem clientRun_surfaces_iff (prim : Primitives) (c : T3Stream) (es : List ClientCall) :
    FaultsSurface prim c es ↔ Along (callStep prim) (CallCalm prim) c es := by
  induction es generalizing c with
  | nil => exact Iff.rfl
  | cons e es ih =>
    refine and_congr ?_ (ih _)
    constructor
    · intro h io he
      exact (pump_surfaces_iff prim io c).mp (h io he).1
    · intro h io he
      have hsurfaces := (pump_surfaces_iff prim io c).mpr (h io he)
      refine ⟨hsurfaces, fun hmet => ?_⟩
      subst he
      have hstate : (callStep prim c (.pump io)).stream.state = .error := (hsurfaces hmet).1
      -- The client stays as it is from here on.
      generalize callStep prim c (.pump io) = d at hstate
      have hall : Throughout (callStep prim) (fun x => x.stream = d.stream) d es :=
        throughout_of_step
          (fun x e hx => (callStep_error (by rw [hx]; exact hstate) e).trans hx) rfl
      refine hall.imp fun x hx => ?_
      unfold NothingNew
      rw [hx]

/-- A pump of a client in the state `READY` whose peer has closed surfaces nothing. -/
theorem pump_closed_not_surfaced {prim : Primitives} {io : PumpIo} {c : T3Stream}
    (hready : c.stream.state = .ready) (hended : io.ready.ended = true) :
    ¬ PumpSurfaces prim io c := by
  intro h
  have huntroubled : c.untroubled.stream.state = .ready := hready
  rw [PumpSurfaces, t3ClientPump_ready huntroubled] at h
  have hstate : (c.untroubled.pumpReadyState io.ready).stream.state ≠ .error := by
    rw [pumpReadyState_state _ _ huntroubled]
    nofun
  obtain ⟨-, hcalm, -⟩ := (pumpReadyState_faults _).mp ((surfacedExit_iff hstate).mp h)
  rw [hended] at hcalm
  exact Bool.noConfusion hcalm

/-- **An error that ends a stream is swallowed.**  The peer has closed: the pump returns `T3_OK` and
leaves the client in the state `READY`. -/
theorem clientRun_not_surfaced :
    ¬ ∀ (prim : Primitives) (c : T3Stream) (es : List ClientCall), FaultsSurface prim c es := by
  intro h
  obtain ⟨hpump, -⟩ := h ⟨id, fun _ _ _ => 0⟩ readyStream [.pump (readyIo ⟨[], true, 0, []⟩)]
  exact pump_closed_not_surfaced rfl rfl (hpump _ rfl).1

end Client
end Teleproto3
