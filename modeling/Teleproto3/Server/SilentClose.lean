/-
# A session that is dropped in silence

`type3_dispatch_on_crypto_init` drops a session for a kill switch, for a Session Header it does
not take, and for the command of the bench handler.  The first two set a timer, and the comment
at `type3_dispatch_silent_close` of `server/src/net/net-type3-dispatch.c` says what is to come:
the alarm fails the connection, and until then the client hears nothing.

The alarm of `net-tcp-rpc-ext-server.c` fails a connection from which the PROXY protocol is still
expected.  Any other it hands to the domain that is imitated, or, where none is, leaves as it
is, without a timer.  The drop of the bench command sets no timer at all.  And a read that comes
before the alarm finds `INT_MIN` in `skip_bytes`, unless the chunk framing has left bytes in
`in_u`.  `droppedRun_closed` is the promise for the runs in which the alarm has a reason to fail
the connection and the reader one to wait.
-/

import Teleproto3.Server.Alarm
import Teleproto3.Server.CipherStart
import Teleproto3.Server.ProbeWait
import Teleproto3.Server.ReaderRuns

namespace Teleproto3
namespace Server

open Lib Wire

variable {W : Type*} (env : ExtServerEnv W)

/-! ### The drop -/

/-- The hook is called on `e` in the turn that begins with `c`: behind the detector, on payload
of a WebSocket or of an HTTP stream without a cipher. -/
structure AtHook (c e : Conn W) : Prop where
  type : c.type = .rpcExtServer
  payload : ∃ b, detect env.acceptKey c = .ok b ∧ b.crypto = none ∧
    (b.wsState = .active ∧ (wsPreCrypto b).bind needInput = .ok e ∨
      b.wsState ≠ .active ∧ b.transportMode ≠ .ws ∧ needInput b = .ok e)

/-- The bench handler's command, which the hook drops without a timer. -/
def BenchCommand (e : Conn W) : Prop :=
  env.ksState e.world = .idle ∧ t3HeaderParse (e.inp.take 4) = .ok ⟨T3_CMD_BENCH, 1, 0⟩

/-- The timer of a silent close is set, within 50 to 200 milliseconds from now. -/
def CloseTimer (d : Conn W) : Prop :=
  ∃ delay, 50 / 1000 ≤ delay ∧ delay ≤ 200 / 1000 ∧
    d.timer = some (env.preciseNow d.world + delay)

section Drop

variable {env} {c d e : Conn W}

/-- The stages in front of the hook leave the type of the connection alone. -/
theorem detect_type (acceptKey : Bytes → Option Bytes) (c : Conn W) :
    Ends (fun d => d.type = c.type) (fun _ => True) (detect acceptKey c) := by
  have hneed (d : Conn W) : Ends (fun e => e.type = d.type) (fun _ => True) (needInput d) := by
    exact Ends.ite (fun _ => trivial) fun _ => rfl
  have hrequest : Ends (fun d => d.type = c.type) (fun _ => True) (httpStreamRequest c) := by
    unfold httpStreamRequest
    cases findSub headersEnd (peekBuf c.inp) with
    | none =>
      dsimp only
      exact Ends.ite (fun _ => trivial) fun _ => trivial
    | some headersLen =>
      dsimp only
      have htype : (enterHttpStream c (peekBuf c.inp) headersLen).type = c.type := rfl
      generalize enterHttpStream c (peekBuf c.inp) headersLen = b at htype
      refine Ends.bind (P := fun d => d.type = c.type) ?_ fun d hd =>
        (hneed d).mono (fun _ h => h.trans hd) fun _ _ => trivial
      unfold transitionUnwrap
      by_cases hframed : b.inp.length > 0 ∧ b.transportMode = .httpStream
      · rw [if_pos hframed]
        generalize unwrapLoop transitionChunkHeader
          ⟨b.inp, [], T3_PRECRYPTO_BYTES, b.httpChunkRemaining, b.httpChunkHeaderState⟩ = r
        obtain ⟨u, failure⟩ := r
        cases failure with
        | none => exact htype
        | some err => trivial
      · rw [if_neg hframed]
        exact htype
  have hws (d : Conn W) (hd : d.type = c.type) :
      Ends (fun e => e.type = c.type) (fun _ => True) (wsHandshake acceptKey d) := by
    unfold wsHandshake
    cases wsParseUpgradeRequest d.inp with
    | needMore => trivial
    | refused => exact hd
    | upgrade wsKey =>
      dsimp only
      cases acceptKey wsKey with
      | none => trivial
      | some accept =>
        exact (hneed (enterWs d accept)).mono (fun _ h => h.trans hd) fun _ _ => trivial
  unfold detect
  by_cases hprobe : c.wsState = .handshake
  · rw [if_pos hprobe]
    refine Ends.bind (P := fun d => d.type = c.type) ?_ fun d hd => ?_
    · exact Ends.ite (fun _ => hrequest) fun _ => rfl
    · exact Ends.ite (fun _ => hws d hd) fun _ => hd
  · rw [if_neg hprobe]
    rfl

theorem wsPreCrypto_ok {b : Conn W} (h : wsPreCrypto b = .ok e) :
    e.type = b.type ∧ e.crypto = b.crypto := by
  unfold wsPreCrypto at h
  cases hloop : wsUnwrapLoop ⟨⟨b.inp, b.wsFrameRemaining, b.wsMask, b.wsMaskOffset⟩, []⟩ with
  | error a =>
    rw [hloop] at h
    exact nomatch h
  | ok r =>
    obtain ⟨u, alive⟩ := r
    rw [hloop] at h
    cases alive with
    | false => exact nomatch h
    | true =>
      rw [← Except.ok.inj h]
      exact ⟨rfl, rfl⟩

/-- What the hook is called on has no cipher, and the type of a client. -/
theorem AtHook.client (h : AtHook env c e) : e.type = .rpcExtServer ∧ e.crypto = none := by
  obtain ⟨b, hdetect, hcrypto, hpayload⟩ := h.payload
  have htype : b.type = .rpcExtServer :=
    ((detect_type env.acceptKey c).ok hdetect).trans h.type
  rcases hpayload with ⟨-, hpayload⟩ | ⟨-, -, hpayload⟩
  · obtain ⟨x, hframes, hneed⟩ := bind_ok_iff.mp hpayload
    rw [needInput_ok hneed]
    obtain ⟨htype', hcrypto'⟩ := wsPreCrypto_ok hframes
    exact ⟨htype'.trans htype, hcrypto'.trans hcrypto⟩
  · rw [needInput_ok hpayload]
    exact ⟨htype, hcrypto⟩

/-- A drop ends the turn, and tells the reader to skip all. -/
theorem AtHook.parseStages (h : AtHook env c e)
    (hdrop : type3DispatchOnCryptoInit env.toDispatchEnv e = (d, .dropSilent)) :
    parseStages env c = .error (.ret d SKIP_ALL_BYTES) := by
  obtain ⟨b, hdetect, hcrypto, hpayload⟩ := h.payload
  have hhook : dispatchHook env e = .error (.ret d SKIP_ALL_BYTES) := by
    unfold dispatchHook
    rw [hdrop]
  have hnone : b.crypto.isNone = true := by
    rw [hcrypto]
    rfl
  have hpre : preCrypto env b = .error (.ret d SKIP_ALL_BYTES) := by
    unfold preCrypto
    rcases hpayload with ⟨hws, hpayload⟩ | ⟨hws, hmode, hpayload⟩
    · rw [if_pos ⟨hws, hnone⟩, hpayload]
      exact hhook
    · rw [if_neg fun hactive => hws hactive.1, if_pos ⟨hmode, hnone⟩, hpayload]
      exact hhook
  unfold Server.parseStages
  rw [hdetect]
  show (preCrypto env b).bind (parseSession env) = _
  rw [hpre]
  rfl

/-- **What `parse_execute` returns on a drop.** -/
theorem AtHook.parseExecute (h : AtHook env c e)
    (hdrop : type3DispatchOnCryptoInit env.toDispatchEnv e = (d, .dropSilent)) :
    clientParseExecute env c = .ok (d, SKIP_ALL_BYTES) := by
  unfold clientParseExecute
  rw [h.type]
  exact tcpRpcsCompactParseExecute_of_error env (h.parseStages hdrop)

/-- A drop other than that of the bench command sets the timer. -/
theorem drop_closeTimer
    (hdrop : type3DispatchOnCryptoInit env.toDispatchEnv e = (d, .dropSilent))
    (hbench : ¬ BenchCommand env e) :
    CloseTimer env d ∧ d.type = e.type ∧ d.crypto = e.crypto := by
  have htimer (b : Conn W) : CloseTimer env (type3Drop env.toDispatchEnv b) ∧
      (type3Drop env.toDispatchEnv b).type = b.type ∧
        (type3Drop env.toDispatchEnv b).crypto = b.crypto := by
    obtain ⟨hmin, hmax⟩ := silentCloseDelay_bounds (env.sampleDelayNs b.world).1
    exact ⟨⟨_, hmin, hmax, rfl⟩, rfl, rfl⟩
  rcases type3DispatchOnCryptoInit_cases env.toDispatchEnv e with
    ⟨-, heq⟩ | ⟨-, -, heq⟩ | ⟨hks, -, ⟨r, -, heq⟩ | ⟨hparse, -⟩ | ⟨-, heq⟩⟩
  · obtain rfl : _ = d := congrArg Prod.fst (heq.symm.trans hdrop)
    exact htimer e
  · exact nomatch congrArg Prod.snd (heq.symm.trans hdrop)
  · obtain rfl : _ = d := congrArg Prod.fst (heq.symm.trans hdrop)
    exact htimer (e.record (.sessionHeader (e.inp.take 4)))
  · exact absurd ⟨hks, hparse⟩ hbench
  · exact nomatch congrArg Prod.snd (heq.symm.trans hdrop)

end Drop

/-! ### What follows -/

/-- What happens to a connection after the drop: a read, with the number of turns the reader's loop
is given, the alarm, or something elsewhere. -/
inductive CloseEvent (W : Type*)
  | read (raw : Bytes) (turns : ℕ)
  | alarm
  | elsewhere (w : W)

/-- One event.  An alarm is one of a timer that is set. -/
def closeStep (s : Except ReaderFault (Conn W)) (e : CloseEvent W) : Except ReaderFault (Conn W) :=
  s.bind fun c =>
    match e with
    | .read raw turns => (jobRun (clientMethods env) c [raw] turns).map ReaderResult.conn
    | .alarm => .ok (if c.timer.isSome then jsAlarm env c else c)
    | .elsewhere w => .ok { c with world := w }

/-- Nothing is written to the client, no outbound connection stands behind the one that was
dropped, and it has failed or waits for the timer of the drop. -/
structure Silent (d c : Conn W) : Prop where
  out : c.out = d.out
  outP : c.outP = d.outP
  outQueue : c.outQueue = d.outQueue
  extra : c.extra = d.extra
  waiting : c.cError ∨ c.timer = d.timer

/-- The alarm fails the connection. -/
def ClosesWhenDue (s : Except ReaderFault (Conn W)) (e : CloseEvent W) : Prop :=
  ∀ c, s = .ok c → e = .alarm → c.timer.isSome → ∃ c', closeStep env s e = .ok c' ∧ c'.cError

/-- **What is promised of a session the hook dropped as `d`.**  A close timer is set, all is
silent in every state, and the alarm fails the connection. -/
def SilentlyClosed (d : Conn W) (es : List (CloseEvent W)) : Prop :=
  CloseTimer env d ∧
    Throughout (closeStep env) (fun s => ∃ c, s = .ok c ∧ Silent d c)
      (.ok (storeResult d SKIP_ALL_BYTES)) es ∧
    Along (closeStep env) (ClosesWhenDue env) (.ok (storeResult d SKIP_ALL_BYTES)) es

/-- The reader waits for more than an HTTP stream is unwrapped to before the cipher. -/
def AwaitsMore (c : Conn W) : Prop :=
  c.transportMode = .httpStream ∧ (max c.inp.length T3_PRECRYPTO_BYTES : ℕ) < c.skipBytes

/-- The alarm has a reason to fail the connection: the header of the PROXY protocol is still
expected, or the domain that is imitated cannot be reached. -/
def AlarmFails (c : Conn W) : Prop :=
  c.cProxyProtocol ∨ ∃ dflt, env.defaultDomainInfo = some dflt ∧ c.rpc.inPacketNum = -3 ∧
    (dflt.target = 0 ∧ dflt.targetIpv6 = List.replicate 16 0 ∨
      (env.clientSocket c.world dflt.target dflt.targetIpv6 (proxyPort c dflt)).1 = false)

/-- **The condition on a step.** -/
def LeavesToAlarm (s : Except ReaderFault (Conn W)) (e : CloseEvent W) : Prop :=
  ∀ c, s = .ok c → c.cError = false →
    match e with
    | .read _ _ => AwaitsMore c
    | .alarm => c.timer.isSome → AlarmFails env c
    | .elsewhere _ => True

section Runs

variable {env} {c d : Conn W}

/-- **The invariant**: silence, on a connection the alarm of the listening type is called on, and
for which the reader waits. -/
structure Dropped (d c : Conn W) : Prop extends Silent d c where
  type : c.type = .rpcExtServer
  crypto : c.crypto = none
  skipBytes_lt : c.skipBytes < 2 ^ 31

theorem Dropped.failConnection (h : Dropped d c) (err : ℤ) : Dropped d (failConnection c err) where
  out := h.out
  outP := h.outP
  outQueue := h.outQueue
  extra := h.extra
  waiting := Or.inl rfl
  type := h.type
  crypto := h.crypto
  skipBytes_lt := h.skipBytes_lt

/-- The drop itself. -/
theorem dropped_start (htype : d.type = .rpcExtServer) (hcrypto : d.crypto = none) :
    Dropped d (storeResult d SKIP_ALL_BYTES) := by
  have hstore : storeResult d SKIP_ALL_BYTES =
      { d with skipBytes := skipAfter d SKIP_ALL_BYTES } := if_neg (by decide)
  rw [hstore]
  exact ⟨⟨rfl, rfl, rfl, rfl, Or.inr rfl⟩, htype, hcrypto, skipAfter_lt d SKIP_ALL_BYTES⟩

/-- Unwrapping before the cipher changes nothing of this, and does not bring what the reader waits
for. -/
theorem httpStreamUnwrapPrecrypto_dropped (h : Dropped d c) (hmore : AwaitsMore c) :
    Dropped d (httpStreamUnwrapPrecrypto c).1 ∧ AwaitsMore (httpStreamUnwrapPrecrypto c).1 := by
  have hdst := unwrapLoop_dst_le httpStreamChunkHeaderParse ⟨c.inU, c.inp,
    T3_PRECRYPTO_BYTES - c.inp.length, c.httpChunkRemaining, c.httpChunkHeaderState⟩
  unfold httpStreamUnwrapPrecrypto
  dsimp only
  generalize unwrapLoop httpStreamChunkHeaderParse ⟨c.inU, c.inp,
    T3_PRECRYPTO_BYTES - c.inp.length, c.httpChunkRemaining, c.httpChunkHeaderState⟩ = r at hdst
  obtain ⟨u, failure⟩ := r
  dsimp only at hdst
  generalize hx : ({ c with
    inU := u.src
    inp := u.dst
    httpChunkRemaining := u.remaining
    httpChunkHeaderState := u.state } : Conn W) = x
  have hdropped : Dropped d x := by
    rw [← hx]
    exact ⟨⟨h.out, h.outP, h.outQueue, h.extra, h.waiting⟩, h.type, h.crypto, h.skipBytes_lt⟩
  have hlen : max u.dst.length T3_PRECRYPTO_BYTES ≤ max c.inp.length T3_PRECRYPTO_BYTES := by
    omega
  have hwaits : AwaitsMore x := by
    rw [← hx]
    exact ⟨hmore.1, lt_of_le_of_lt (Int.ofNat_le.mpr hlen) hmore.2⟩
  cases failure with
  | none => exact ⟨hdropped, hwaits⟩
  | some err => exact ⟨hdropped.failConnection err, hwaits⟩

/-- **A read leaves all to the alarm** where the reader waits for more. -/
theorem jobRun_dropped (h : Dropped d c) (hmore : AwaitsMore c) (raw : Bytes) (turns : ℕ) :
    Leaves (Dropped d) (fun _ => False) (jobRun (clientMethods env) c [raw] turns) := by
  -- What every part of the reader leaves as it is while it waits.
  have hrule := jobRun_leaves (m := clientMethods env) (P := fun _ => True) (F := fun _ => False)
    (I := fun x => Dropped d x ∧ AwaitsMore x) (c := c) (q := [raw]) (n := turns) ?_ ?_ ?_ ?_
    ⟨h, hmore⟩ ?_
  · cases hres : jobRun (clientMethods env) c [raw] turns with
    | error f =>
      rw [hres] at hrule
      exact hrule
    | ok r =>
      rw [hres] at hrule
      exact hrule.1
  · rintro x queue ⟨hx, hmode, hskip⟩
    rw [readerFill, if_pos (Or.inr hmode)]
    exact ⟨⟨⟨hx.out, hx.outP, hx.outQueue, hx.extra, hx.waiting⟩, hx.type, hx.crypto,
      hx.skipBytes_lt⟩, hmode, hskip⟩
  · rintro x ⟨hx, hmode, hskip⟩
    have hnone : ¬ x.crypto.isSome = true := by
      rw [hx.crypto]
      exact Bool.false_ne_true
    obtain ⟨hdropped, hwaits⟩ := httpStreamUnwrapPrecrypto_dropped hx ⟨hmode, hskip⟩
    unfold readerDecode
    rw [if_neg hnone, if_pos hmode]
    generalize httpStreamUnwrapPrecrypto x = r at hdropped hwaits
    obtain ⟨y, res⟩ := r
    exact Ends.ite (fun _ => ⟨hdropped, hwaits⟩) fun _ => ⟨hdropped, hwaits⟩
  · rintro x ⟨hx, hmode, hskip⟩
    have hpos : 0 < x.skipBytes := lt_of_le_of_lt (Int.natCast_nonneg _) hskip
    have hlt := hx.skipBytes_lt
    have hle := Nat.le_max_left x.inp.length T3_PRECRYPTO_BYTES
    have hshort : ¬ x.skipBytes ≤ totalBytes x.inp := by
      rw [totalBytes_of_lt (by omega)]
      omega
    rw [readerSkip_of_pos hpos, if_neg hshort]
    exact ⟨hx, hmode, hskip⟩
  · rintro x ⟨hx, hmode, hskip⟩ - hstops
    have hpos : 0 < x.skipBytes := lt_of_le_of_lt (Int.natCast_nonneg _) hskip
    exact absurd (Or.inl (ne_of_gt hpos)) hstops
  · intro _ x _
    exact eachTurnFor_of_forall (fun _ _ => trivial) turns _

/-- A domain that cannot be reached. -/
theorem proxyConnection_unreachable {dflt : DomainInfo}
    (hreach : dflt.target = 0 ∧ dflt.targetIpv6 = List.replicate 16 0 ∨
      (env.clientSocket c.world dflt.target dflt.targetIpv6 (proxyPort c dflt)).1 = false) :
    ∃ world err, proxyConnection env.toOutboundEnv c dflt =
      failConnection { c with world := world, rpc := { c.rpc with extraInt2 := 0 } } err := by
  unfold proxyConnection
  dsimp only
  by_cases htarget : dflt.target = 0 ∧ dflt.targetIpv6 = List.replicate 16 0
  · exact ⟨c.world, _, if_pos htarget⟩
  · rw [if_neg htarget]
    exact ⟨_, _, if_pos (hreach.resolve_left htarget)⟩

/-- **The alarm fails the connection** where it has a reason to. -/
theorem clientAlarm_fails (htype : c.type = .rpcExtServer) (hfails : AlarmFails env c) :
    ∃ world rpc err,
      clientAlarm env c = failConnection { c with world := world, rpc := rpc } err := by
  have halarm : clientAlarm env c = tcpRpcsExtAlarm env c := by
    unfold clientAlarm
    rw [htype]
  rw [halarm]
  unfold tcpRpcsExtAlarm
  by_cases hproxy : c.cProxyProtocol = true
  · rw [if_pos hproxy]
    exact ⟨c.world, c.rpc, -1, rfl⟩
  · obtain ⟨dflt, hdflt, hnum, hreach⟩ := hfails.resolve_left hproxy
    rw [if_neg hproxy, hdflt]
    dsimp only
    rw [if_pos hnum]
    obtain ⟨world, err, heq⟩ := proxyConnection_unreachable hreach
    exact ⟨world, _, err, heq⟩

/-- The alarm of a connection that has failed, or has a reason to. -/
theorem jsAlarm_dropped (h : Dropped d c) (hfails : c.cError = false → AlarmFails env c) :
    Dropped d (jsAlarm env c) ∧ (jsAlarm env c).cError = true := by
  unfold jsAlarm
  by_cases herr : c.cError = true
  · rw [if_pos herr]
    exact ⟨⟨⟨h.out, h.outP, h.outQueue, h.extra, Or.inl herr⟩, h.type, h.crypto, h.skipBytes_lt⟩,
      herr⟩
  · obtain ⟨world, rpc, err, heq⟩ := clientAlarm_fails (c := { c with timer := none })
      h.type (hfails (Bool.eq_false_iff.mpr herr))
    rw [if_neg herr, heq]
    exact ⟨⟨⟨h.out, h.outP, h.outQueue, h.extra, Or.inl rfl⟩, h.type, h.crypto, h.skipBytes_lt⟩,
      rfl⟩

/-- **One event** keeps the invariant, and an alarm fails the connection. -/
theorem closeStep_dropped (h : Dropped d c) {e : CloseEvent W}
    (hcond : LeavesToAlarm env (.ok c) e) :
    (∃ c', closeStep env (.ok c) e = .ok c' ∧ Dropped d c') ∧ ClosesWhenDue env (.ok c) e := by
  cases e with
  | elsewhere w =>
    refine ⟨⟨_, rfl, ?_⟩, fun _ _ halarm => (nomatch halarm)⟩
    exact ⟨⟨h.out, h.outP, h.outQueue, h.extra, h.waiting⟩, h.type, h.crypto, h.skipBytes_lt⟩
  | read raw turns =>
    refine ⟨?_, fun _ _ halarm => (nomatch halarm)⟩
    cases herr : c.cError with
    | true =>
      have hrun : jobRun (clientMethods env) c [raw] turns = .ok ⟨c, 0, []⟩ := if_pos herr
      exact ⟨c, congrArg (Except.map ReaderResult.conn) hrun, h⟩
    | false =>
      have hleaves : Leaves (Dropped d) (fun _ => False)
          (jobRun (clientMethods env) c [raw] turns) := jobRun_dropped h (hcond c rfl herr) raw turns
      cases hrun : jobRun (clientMethods env) c [raw] turns with
      | error f =>
        rw [hrun] at hleaves
        exact hleaves.elim
      | ok r =>
        rw [hrun] at hleaves
        exact ⟨r.conn, congrArg (Except.map ReaderResult.conn) hrun, hleaves⟩
  | alarm =>
    by_cases htimer : c.timer.isSome = true
    · obtain ⟨hdropped, hfailed⟩ := jsAlarm_dropped h fun herr => hcond c rfl herr htimer
      have hstep : closeStep env (.ok c) .alarm = .ok (jsAlarm env c) :=
        congrArg Except.ok (if_pos htimer)
      refine ⟨⟨_, hstep, hdropped⟩, ?_⟩
      intro x hx _ _
      obtain rfl := Except.ok.inj hx
      exact ⟨_, hstep, hfailed⟩
    · have hstep : closeStep env (.ok c) .alarm = .ok c := congrArg Except.ok (if_neg htimer)
      refine ⟨⟨_, hstep, h⟩, ?_⟩
      intro x hx _ hset
      obtain rfl := Except.ok.inj hx
      exact absurd hset htimer

/-- **A session is dropped in silence, and closed,** in every run after a drop other than that of
the bench command in which the alarm has a reason to fail the connection and every read finds the
reader waiting for more. -/
theorem droppedRun_closed {c e d : Conn W} (hreach : AtHook env c e)
    (hdrop : type3DispatchOnCryptoInit env.toDispatchEnv e = (d, .dropSilent))
    (hbench : ¬ BenchCommand env e) (es : List (CloseEvent W))
    (hrun : Along (closeStep env) (LeavesToAlarm env) (.ok (storeResult d SKIP_ALL_BYTES)) es) :
    clientParseExecute env c = .ok (d, SKIP_ALL_BYTES) ∧ SilentlyClosed env d es := by
  obtain ⟨htimer, htype, hcrypto⟩ := drop_closeTimer hdrop hbench
  obtain ⟨htype', hcrypto'⟩ := hreach.client
  have hstart := dropped_start (htype.trans htype') (hcrypto.trans hcrypto')
  have hstep (s : Except ReaderFault (Conn W)) (e : CloseEvent W)
      (hs : ∃ x, s = .ok x ∧ Dropped d x) (hcond : LeavesToAlarm env s e) :
      (∃ x, closeStep env s e = .ok x ∧ Dropped d x) ∧ ClosesWhenDue env s e := by
    obtain ⟨x, rfl, hx⟩ := hs
    exact closeStep_dropped hx hcond
  refine ⟨hreach.parseExecute hdrop, htimer, ?_, ?_⟩
  · have hall := throughout_of_along (I := fun s => ∃ x, s = .ok x ∧ Dropped d x)
      (fun s e hs hcond => (hstep s e hs hcond).1) ⟨_, rfl, hstart⟩ hrun
    exact hall.imp fun s ⟨x, hx, hdropped⟩ => ⟨x, hx, hdropped.toSilent⟩
  · exact along_of_inv (I := fun s => ∃ x, s = .ok x ∧ Dropped d x)
      (fun s e hs hcond => (hstep s e hs hcond).1) (fun s e hs hcond => (hstep s e hs hcond).2)
      ⟨_, rfl, hstart⟩ hrun

end Runs

set_option maxRecDepth 10000 in
/-- The hypotheses of `droppedRun_closed` hold where a bad Session Header comes in place of the
header of the PROXY protocol, and then the alarm and another byte. -/
theorem droppedRun_closed_proxy : ∃ c e d, AtHook sampleServer c e ∧
    clientParseExecute sampleServer c = .ok (d, SKIP_ALL_BYTES) ∧
      SilentlyClosed sampleServer d [.alarm, .read [0] 1] := by
  obtain ⟨e, d, hreach, hdrop, hparse, hproxy, htimer, hfailed⟩ : ∃ e d,
      AtHook sampleServer { sampleAccepted with cProxyProtocol := true, inp := sampleProbe } e ∧
        type3DispatchOnCryptoInit sampleServer.toDispatchEnv e = (d, .dropSilent) ∧
        t3HeaderParse (e.inp.take 4) ≠ .ok ⟨T3_CMD_BENCH, 1, 0⟩ ∧
        (storeResult d SKIP_ALL_BYTES).cProxyProtocol = true ∧
        (storeResult d SKIP_ALL_BYTES).timer.isSome = true ∧
        (jsAlarm sampleServer (storeResult d SKIP_ALL_BYTES)).cError = true :=
    ⟨_, _, ⟨rfl, _, rfl, rfl, Or.inr ⟨nofun, nofun, rfl⟩⟩, rfl, by decide, rfl, rfl, rfl⟩
  refine ⟨_, e, d, hreach, droppedRun_closed hreach hdrop (fun h => hparse h.2) _ ⟨?_, ?_, trivial⟩⟩
  · intro c hc _ _
    obtain rfl := Except.ok.inj hc
    exact Or.inl hproxy
  · have hstep : closeStep sampleServer (.ok (storeResult d SKIP_ALL_BYTES)) .alarm =
        .ok (jsAlarm sampleServer (storeResult d SKIP_ALL_BYTES)) :=
      congrArg Except.ok (if_pos htimer)
    rw [hstep]
    intro c hc herr
    obtain rfl := Except.ok.inj hc
    exact absurd (hfailed.symm.trans herr) Bool.noConfusion

set_option maxRecDepth 10000 in
/-- **A session that is dropped is not closed.**  A request without `Transfer-Encoding` and a bad
Session Header have come in one read.  No domain is imitated: the alarm does nothing. -/
theorem droppedRun_not_closed : ∃ e d,
    readerFront (clientMethods sampleServer) sampleAccepted [sampleProbe] =
        .ok { sampleAccepted with inp := sampleProbe } ∧
      AtHook sampleServer { sampleAccepted with inp := sampleProbe } e ∧
      type3DispatchOnCryptoInit sampleServer.toDispatchEnv e = (d, .dropSilent) ∧
      ¬ BenchCommand sampleServer e ∧ ¬ SilentlyClosed sampleServer d [.alarm] := by
  obtain ⟨e, d, hreach, hdrop, hparse, htimer, halarm⟩ : ∃ e d,
      AtHook sampleServer { sampleAccepted with inp := sampleProbe } e ∧
        type3DispatchOnCryptoInit sampleServer.toDispatchEnv e = (d, .dropSilent) ∧
        t3HeaderParse (e.inp.take 4) ≠ .ok ⟨T3_CMD_BENCH, 1, 0⟩ ∧
        (storeResult d SKIP_ALL_BYTES).timer.isSome = true ∧
        (jsAlarm sampleServer (storeResult d SKIP_ALL_BYTES)).cError = false :=
    ⟨_, _, ⟨rfl, _, rfl, rfl, Or.inr ⟨nofun, nofun, rfl⟩⟩, rfl, by decide, rfl, rfl⟩
  refine ⟨e, d, rfl, hreach, hdrop, fun h => hparse h.2, ?_⟩
  rintro ⟨-, -, hcloses, -⟩
  obtain ⟨c, hstep, hfailed⟩ := hcloses _ rfl rfl htimer
  have hc : jsAlarm sampleServer (storeResult d SKIP_ALL_BYTES) = c :=
    Except.ok.inj ((congrArg Except.ok (if_pos htimer)).symm.trans hstep)
  rw [← hc, halarm] at hfailed
  exact absurd hfailed Bool.false_ne_true

end Server
end Teleproto3
