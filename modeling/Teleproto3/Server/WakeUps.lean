/-
# Paused connections and their timer

A connection is paused in two ways: reading stops when the rate limiter sets `C_STOPREAD`, and
writing stops when a record of fake TLS is followed by a delay.  Each has to be ended by an alarm,
and for all its alarms a connection has one timer, `drs_alarm` tells from the state what it was
for.

That goes wrong where the two meet what else the timer is used for.  A packet of the client
removes the timer, even that of a delay; and the alarm of a connection that the rate limiter has
stopped lets it read, and leaves its delay without a timer.  `paused_wakes` says that nothing else
does.  The connection to a data centre has no delays, and is always woken.
-/

import Teleproto3.Lib.Runs
import Teleproto3.Server.DeliveryRuns
import Teleproto3.Server.DirectQuota
import Teleproto3.Server.OutputFraming
import Teleproto3.Server.RecordPacing

namespace Teleproto3
namespace Server

open Lib

variable {W : Type*}

/-! ### The client -/

/-- A connection whose output goes out in records of changing sizes. -/
def Conn.IsDrs (c : Conn W) : Prop := c.type = .rpcExtServerDrs ∨ c.type = .directClientDrs

instance (c : Conn W) : Decidable c.IsDrs := by
  unfold Conn.IsDrs
  infer_instance

/-- Why a call ends the process. -/
inductive DrsFault
  | reader (f : ReaderFault)
  | writer (a : WriterAbort)
  deriving DecidableEq, Repr

section Steps

variable (env : DrsEnv W)

/-- The writer up to where it has put into `out_p` all it is going to, with the records. -/
def drsWriterFill (x : DrsConn W) : Except WriterAbort (DrsConn W) :=
  (drainQueue env.writer (writerClosing x.conn)).bind fun c =>
    if c.encrypts then
      if c.IsDrs then cpuTcpAesCryptoCtr128EncryptOutputDrs env { x with conn := c }
      else (cpuTcpAesCryptoCtr128EncryptOutput c).map fun c => { x with conn := c }
    else .ok { x with conn := c }

/-- `cpu_tcp_server_writer`.  What it hands over goes to the socket. -/
def drsWriter (x : DrsConn W) : Except WriterAbort (DrsConn W) :=
  (drsWriterFill env x).map fun x => { x with conn := (writerTake x.conn).1 }

/-- `cpu_server_read_write`: the reader, on the messages of `in_queue`, and the writer. -/
def cpuServerReadWrite (x : DrsConn W) (queue : List Bytes) (turns : ℕ) :
    Except DrsFault (DrsConn W) :=
  match cpuTcpServerReader (clientMethods env.server) x.conn queue turns with
  | .error f => .error (.reader f)
  | .ok r => (drsWriter env { x with conn := r.conn }).mapError .writer

/-- The end of a delay: reading and writing go on. -/
def delayResume (x : DrsConn W) (queue : List Bytes) (turns : ℕ) : Except DrsFault (DrsConn W) :=
  if x.conn.cIsTls ∧ x.drs.delayPending then
    cpuServerReadWrite env { x with drs := { x.drs with delayPending := false } } queue turns
  else .ok x

/-- Whether a connection to the data centre is to be tried again. -/
def Conn.RetryDue (c : Conn W) : Prop :=
  c.type = .directClientDrs ∧ c.extra = .null ∧ 0 < c.rpc.extraInt

instance (c : Conn W) : Decidable c.RetryDue := by
  unfold Conn.RetryDue
  infer_instance

/-- `tcp_rpcs_ext_drs_alarm`, with the end of a delay. -/
def drsAlarm (x : DrsConn W) (queue : List Bytes) (turns : ℕ) : Except DrsFault (DrsConn W) :=
  match rateLimitResume x.conn with
  | some c => .ok { x with conn := c }
  | none =>
    if x.conn.RetryDue then
      .ok { x with conn := directRetryDcConnection env.server.toOutboundEnv x.conn }
    else if x.conn.cProxyProtocol then .ok { x with conn := failConnection x.conn (-1) }
    else
      match env.server.defaultDomainInfo with
      | some dflt =>
        if x.conn.rpc.inPacketNum = -3 then
          .ok { x with conn := proxyConnection env.server.toOutboundEnv x.conn dflt }
        else delayResume env x queue turns
      | none => delayResume env x queue turns

/-- `job_timer_check`: the timer is gone when it is due. -/
def DrsConn.due (x : DrsConn W) : DrsConn W := { x with conn := { x.conn with timer := none } }

/-- `JS_ALARM`, when the timer is due.  A connection that failed has no alarm. -/
def drsJsAlarm (x : DrsConn W) (queue : List Bytes) (turns : ℕ) : Except DrsFault (DrsConn W) :=
  let x := x.due
  if x.conn.cError then .ok x
  else if x.conn.IsDrs then drsAlarm env x queue turns
  else .ok { x with conn := clientAlarm env.server x.conn }

/-- What can happen to a client. -/
inductive DrsEvent (W : Type*)
  /-- anything else in the process: time passes, the data centre gets its cipher -/
  | elsewhere (w : W)
  /-- `JS_RUN` -/
  | run (queue : List Bytes) (turns : ℕ)
  /-- `JS_ALARM`, and what has arrived by then -/
  | alarm (queue : List Bytes) (turns : ℕ)
  /-- something is queued for the client -/
  | answer (raw : Bytes)
  /-- the connection to the data centre is closed, with its cipher or without -/
  | dcClosed (ready : Bool)
  /-- the data centre's connection has sent its init, and `skip_bytes` is reset -/
  | dcInit
  | fails (err : ℤ)

/-- One event. -/
def drsStep (s : Except DrsFault (DrsConn W)) (e : DrsEvent W) : Except DrsFault (DrsConn W) :=
  s.bind fun x =>
    match e with
    | .elsewhere w => .ok { x with conn := x.conn.inWorld w }
    | .run queue turns =>
      if x.conn.cError then .ok x else cpuServerReadWrite env x queue turns
    | .alarm queue turns => if x.conn.timer.isSome then drsJsAlarm env x queue turns else .ok x
    | .answer raw => .ok { x with conn := { x.conn with outQueue := x.conn.outQueue ++ [raw] } }
    | .dcClosed ready =>
      .ok { x with conn := dcClosed env.server.toOutboundEnv x.conn ready }
    | .dcInit => .ok { x with conn := { x.conn with skipBytes := 0 } }
    | .fails err => .ok { x with conn := failConnection x.conn err }

/-- Where no delay is pending the alarm is the one of `Alarm`. -/
theorem drsAlarm_of_none {x : DrsConn W} (h : x.drs.delayPending = false) (queue : List Bytes)
    (turns : ℕ) :
    drsAlarm env x queue turns = .ok { x with conn := tcpRpcsExtDrsAlarm env.server x.conn } := by
  have hresume : delayResume env x queue turns = .ok x := by
    unfold delayResume
    rw [h]
    exact if_neg fun hpending => nomatch hpending.2
  unfold drsAlarm tcpRpcsExtDrsAlarm
  cases hstop : rateLimitResume x.conn with
  | some c => rfl
  | none =>
    dsimp only
    by_cases hretry : x.conn.RetryDue
    · rw [if_pos hretry, if_pos (show _ ∧ _ ∧ _ from hretry)]
    · rw [if_neg hretry, if_neg (show ¬ (_ ∧ _ ∧ _) from hretry)]
      unfold tcpRpcsExtAlarm
      by_cases hproxy : x.conn.cProxyProtocol = true
      · rw [if_pos hproxy, if_pos hproxy]
      · rw [if_neg hproxy, if_neg hproxy]
        cases env.server.defaultDomainInfo with
        | none => exact hresume
        | some dflt =>
          dsimp only
          split_ifs
          · rfl
          · exact hresume

end Steps

/-- A client with one of the types, behind its obfuscated2 header. -/
structure Conn.Serves (c : Conn W) : Prop where
  past : PastHeader c
  type : c.IsDrs ∨ c.type = .directClient
  crypto : c.crypto.isSome = true
  inPacketNum : c.rpc.inPacketNum ≠ -3
  tls : c.IsDrs → c.cIsTls = true

/-- **A client that has just been given its type.** -/
structure StartsPaced (x : DrsConn W) : Prop where
  serves : x.conn.Serves
  reads : x.conn.cStopRead = false
  writes : x.drs.delayPending = false

/-- **The wake-up of a delay is left alone**: no packet of a client that is served here is parsed
during a delay, and no alarm during a delay finds reading stopped, or another attempt at a data
centre due. -/
def LeavesWakeUp (env : DrsEnv W) (x : DrsConn W) : DrsEvent W → Prop
  | .run queue turns =>
    x.conn.cError = false → x.conn.type = .rpcExtServerDrs → x.drs.delayPending = true →
      ParsesOn (clientMethods env.server) (fun _ => False) x.conn queue turns
  | .alarm _ _ =>
    x.conn.cError = false → x.conn.IsDrs → x.drs.delayPending = true →
      x.conn.cStopRead = false ∧ ¬ x.conn.RetryDue
  | _ => True

/-! ### What keeps a connection woken -/

/-- A connection that is paused, by the rate limiter or by a delay, has a timer. -/
def Conn.Woken (c : Conn W) (delay : Bool) : Prop :=
  c.cStopRead = true ∨ c.IsDrs ∧ delay = true → c.timer.isSome = true

/-- The invariant of a run. -/
def DrsSound (x : DrsConn W) : Prop :=
  x.conn.Serves ∧ (x.conn.cError = false → x.conn.Woken x.drs.delayPending)

variable {c c' d : Conn W} {delay : Bool}

theorem Conn.Woken.of_timer (h : c.timer.isSome = true) : c.Woken delay := fun _ => h

theorem Conn.Woken.of_going (hstop : c.cStopRead = false) (hdelay : ¬ (c.IsDrs ∧ delay = true)) :
    c.Woken delay := by
  rintro (hpaused | hpaused)
  · exact nomatch hstop.symm.trans hpaused
  · exact absurd hpaused hdelay

theorem Conn.Woken.of_same (h : c.Woken delay) (htype : d.type = c.type)
    (hstop : d.cStopRead = c.cStopRead) (htimer : d.timer = c.timer) : d.Woken delay := by
  intro hpaused
  rw [htimer]
  refine h ?_
  unfold Conn.IsDrs at hpaused ⊢
  rwa [← htype, ← hstop]

theorem Conn.Serves.of_same (h : c.Serves) (htype : d.type = c.type)
    (hcrypto : d.crypto.isSome = true) (hws : d.wsState = c.wsState)
    (hnum : d.rpc.inPacketNum = c.rpc.inPacketNum) (htls : d.cIsTls = c.cIsTls) : d.Serves where
  past := by
    rcases h.past with hauth | hdirect
    · refine Or.inl ⟨by rw [htype]; exact hauth.type, hcrypto, by rw [hws]; exact hauth.wsState, ?_⟩
      rw [hnum]
      exact hauth.inPacketNum
    · refine Or.inr ?_
      unfold Conn.IsDirect at hdirect ⊢
      rwa [htype]
  type := by
    unfold Conn.IsDrs
    rw [htype]
    exact h.type
  crypto := hcrypto
  inPacketNum := by
    rw [hnum]
    exact h.inPacketNum
  tls hdrs := by
    rw [htls]
    refine h.tls ?_
    unfold Conn.IsDrs at hdrs ⊢
    rwa [← htype]

/-- Decryption does not touch the timer. -/
theorem DecryptFrame.woken (hframe : DecryptFrame c d) (hc : c.Serves) (hw : c.Woken delay) :
    d.Serves ∧ d.Woken delay ∧ d.type = c.type := by
  have htype : d.type = c.type := by rw [hframe.rest]
  have hstop : d.cStopRead = c.cStopRead := by rw [hframe.rest]
  have htimer : d.timer = c.timer := by rw [hframe.rest]
  have htls : d.cIsTls = c.cIsTls := by rw [hframe.rest]
  refine ⟨?_, hw.of_same htype hstop htimer, htype⟩
  exact hc.of_same htype (hframe.crypto hc.crypto) hframe.wsState (by rw [hframe.rpc]) htls

/-- **A call of `parse_execute`.**  The packets of a client that is served here remove the timer.
The relay leaves it alone, or sets it where it stops reading. -/
theorem clientParseExecute_pauses {env : ExtServerEnv W} {res : ℤ} (hc : c.Serves)
    (h : clientParseExecute env c = .ok (c', res)) :
    c'.Serves ∧ c'.type = c.type ∧ (c'.cStopRead = c.cStopRead ∧
      (c.type ≠ .rpcExtServerDrs → c'.timer = c.timer) ∨ c'.timer.isSome = true) := by
  rcases hc.past with hauth | hdirect
  · obtain ⟨hframe, hauth'⟩ := hauth.parseExecute env h
    have htype : c'.type = c.type := by rw [hframe.rest]
    have hstop : c'.cStopRead = c.cStopRead := by rw [hframe.rest]
    have hdrs : c.type = .rpcExtServerDrs := by
      rcases hc.type with (hdrs | hdirect) | hdirect
      · exact hdrs
      all_goals
        rcases hauth.type with hother | hother <;> exact nomatch hother.symm.trans hdirect
    refine ⟨⟨Or.inl hauth', Or.inl (Or.inl (htype.trans hdrs)), hauth'.crypto, ?_, fun _ => ?_⟩,
      htype, Or.inl ⟨hstop, fun hne => absurd hdrs hne⟩⟩
    · have := hauth'.inPacketNum
      omega
    · rw [hframe.keepsFraming.cIsTls]
      exact hc.tls (Or.inl hdrs)
  · have hcall : ClientCall env.toOutboundEnv c c' res := by
      refine .of_parse ?_
      rw [← h]
      unfold clientParseExecute
      rcases hdirect with htype | htype <;> rw [htype]
    have hserves (htype : c'.type = c.type) (hcrypto : c'.crypto = c.crypto)
        (hws : c'.wsState = c.wsState) (hrpc : c'.rpc = c.rpc) (htls : c'.cIsTls = c.cIsTls) :
        c'.Serves :=
      hc.of_same htype (by rw [hcrypto]; exact hc.crypto) hws (by rw [hrpc]) htls
    cases hcall with
    | waits _ => exact ⟨hc, rfl, Or.inl ⟨rfl, fun _ => rfl⟩⟩
    | gone _ => exact ⟨hserves rfl rfl rfl rfl rfl, rfl, Or.inl ⟨rfl, fun _ => rfl⟩⟩
    | uncounted _ _ _ => exact ⟨hserves rfl rfl rfl rfl rfl, rfl, Or.inl ⟨rfl, fun _ => rfl⟩⟩
    | refused _ _ _ _ => exact ⟨hserves rfl rfl rfl rfl rfl, rfl, Or.inl ⟨rfl, fun _ => rfl⟩⟩
    | @relayed _ _ _ _ _ _ delay _ _ =>
      cases delay with
      | none => exact ⟨hserves rfl rfl rfl rfl rfl, rfl, Or.inl ⟨rfl, fun _ => rfl⟩⟩
      | some delay => exact ⟨hserves rfl rfl rfl rfl rfl, rfl, Or.inr rfl⟩

/-- **A call of the reader** leaves the timer to a delay, unless it parses a packet of a client
that is served here. -/
theorem cpuTcpServerReader_woken {env : ExtServerEnv W} {P : Conn W → Prop}
    (hP : ∀ e, P e → ¬ (c.type = .rpcExtServerDrs ∧ delay = true)) (hc : c.Serves)
    (hw : c.Woken delay) (hlive : c.cError = false) {queue : List Bytes} {turns : ℕ}
    (hparses : ParsesOn (clientMethods env) P c queue turns) {r : ReaderResult W}
    (h : cpuTcpServerReader (clientMethods env) c queue turns = .ok r) :
    r.conn.Serves ∧ r.conn.Woken delay := by
  have hfill : readerFill c queue = c.pend queue.flatten := readerFill_crypto hc.crypto queue
  have hrule := jobRun_leaves_of_filled (m := clientMethods env) (P := P)
    (I := fun e => e.Serves ∧ e.Woken delay ∧ e.type = c.type) (F := fun _ => True)
    (c := c) (q := queue) (n := turns) ?_ (fun _ => ⟨hc, hw, rfl⟩) ?_ ?_ ?_ (fun _ => hparses)
  · rw [jobRun_of_live hlive, h] at hrule
    exact ⟨hrule.1, hrule.2.1⟩
  · rw [hfill]
    exact ⟨hc.of_same rfl hc.crypto rfl rfl rfl, hw.of_same rfl rfl rfl, rfl⟩
  · rintro e ⟨he, hwe, htype⟩
    unfold readerDecode
    rw [if_pos he.crypto]
    cases hdec : (clientMethods env).cryptoDecryptInput e with
    | error a => trivial
    | ok p =>
      obtain ⟨e', n⟩ := p
      have hframe : DecryptFrame e e' := cpuTcpAesCryptoCtr128DecryptInput_frame hdec
      obtain ⟨he', hwe', htype'⟩ := hframe.woken he hwe
      dsimp only
      split_ifs <;> exact ⟨he', hwe', htype'.trans htype⟩
  · rintro e ⟨he, hwe, htype⟩
    exact readerSkip_leaves (F := fun _ => True) ⟨he, hwe, htype⟩
      (fun _ _ => ⟨he.of_same rfl he.crypto rfl rfl rfl, hwe.of_same rfl rfl rfl, htype⟩)
      fun _ => trivial
  · rintro e ⟨he, hwe, htype⟩ hPe hstops
    have hreads : e.cStopRead = false := by
      unfold ReaderStops at hstops
      simp only [not_or, Bool.not_eq_true] at hstops
      exact hstops.2.2.2.2.1
    cases hres : (clientMethods env).parseExecute e with
    | error a => trivial
    | ok p =>
      obtain ⟨e', res⟩ := p
      obtain ⟨he', htype', hpause⟩ := clientParseExecute_pauses he hres
      have hwe' : e'.Woken delay := by
        rcases hpause with ⟨hstop, htimer⟩ | hset
        · by_cases hdrs : e.type = .rpcExtServerDrs
          · refine .of_going (hstop.trans hreads) fun hdelay => hP e hPe ⟨?_, hdelay.2⟩
            exact htype.symm.trans hdrs
          · exact hwe.of_same htype' hstop (htimer hdrs)
        · exact .of_timer hset
      show (storeResult e' res).Serves ∧ (storeResult e' res).Woken delay ∧
        (storeResult e' res).type = c.type
      unfold storeResult
      split_ifs
      · exact ⟨he', hwe', htype'.trans htype⟩
      · exact ⟨he'.of_same rfl he'.crypto rfl rfl rfl, hwe'.of_same rfl rfl rfl,
          htype'.trans htype⟩

/-- Encryption without records does not touch the timer. -/
theorem cpuTcpAesCryptoCtr128EncryptOutput_touches
    (h : cpuTcpAesCryptoCtr128EncryptOutput c = .ok d) :
    EncryptFrame c d ∧ d.timer = c.timer := by
  have hrule := loop_inv encryptTurn_shrinks (s := c)
    (I := fun e => EncryptFrame c e ∧ e.timer = c.timer)
    (Q := fun r => ∀ e, r = .ok e → EncryptFrame c e ∧ e.timer = c.timer) ?_ ?_ ⟨.refl c, rfl⟩
  · exact hrule d h
  · rintro e e' ⟨hframe, htimer⟩ hturn
    rcases encryptTurn_cases e with ⟨a, heq⟩ | heq | ⟨T, len, header, heq⟩
    · exact nomatch heq.symm.trans hturn
    · exact nomatch heq.symm.trans hturn
    · obtain rfl := Turn.again.inj (heq.symm.trans hturn)
      exact ⟨hframe.trans ⟨fun _ => rfl, rfl⟩, htimer⟩
  · rintro e r ⟨hframe, htimer⟩ hturn f rfl
    rcases encryptTurn_cases e with ⟨a, heq⟩ | heq | ⟨T, len, header, heq⟩
    · exact nomatch Turn.done.inj (heq.symm.trans hturn)
    · obtain rfl := Except.ok.inj (Turn.done.inj (heq.symm.trans hturn))
      exact ⟨hframe, htimer⟩
    · exact nomatch heq.symm.trans hturn

theorem EncryptFrame.serves (hframe : EncryptFrame c d) (hc : c.Serves) : d.Serves ∧
    d.type = c.type ∧ d.cStopRead = c.cStopRead := by
  have htype : d.type = c.type := by rw [hframe.rest]
  have hws : d.wsState = c.wsState := by rw [hframe.rest]
  have hrpc : d.rpc = c.rpc := by rw [hframe.rest]
  have htls : d.cIsTls = c.cIsTls := by rw [hframe.rest]
  refine ⟨hc.of_same htype (hframe.crypto hc.crypto) hws (by rw [hrpc]) htls, htype, ?_⟩
  rw [hframe.rest]

variable {env : DrsEnv W} {x y : DrsConn W}

/-- Encryption with records, for a connection that is woken. -/
theorem cpuTcpAesCryptoCtr128EncryptOutputDrs_woken
    (h : cpuTcpAesCryptoCtr128EncryptOutputDrs env x = .ok y) (hdrs : x.conn.IsDrs)
    (hc : x.conn.Serves) (hw : x.conn.Woken x.drs.delayPending) :
    y.conn.Serves ∧ y.conn.Woken y.drs.delayPending := by
  obtain ⟨hframe, hends⟩ := cpuTcpAesCryptoCtr128EncryptOutputDrs_spec h
  obtain ⟨hserves, htype, hstop⟩ := hframe.serves hc
  refine ⟨hserves, ?_⟩
  rcases hends with ⟨-, rfl⟩ | hends
  · exact hw
  · cases hdelay : x.drs.delayPending with
    | true =>
      have hpending : cpuTcpAesCryptoCtr128EncryptOutputDrs env x = .ok x := by
        unfold cpuTcpAesCryptoCtr128EncryptOutputDrs
        obtain ⟨T, hT⟩ := Option.isSome_iff_exists.mp hc.crypto
        rw [hT]
        exact if_pos ⟨hc.tls hdrs, hdelay⟩
      obtain rfl := Except.ok.inj (hpending.symm.trans h)
      exact hw
    | false =>
      rcases hends hdelay with ⟨hnone, htimer⟩ | ⟨-, hset, -⟩
      · rw [hnone]
        rw [hdelay] at hw
        exact hw.of_same htype hstop htimer
      · exact .of_timer hset

theorem drsWriterFill_of_drs (hdrain : drainQueue env.writer (writerClosing x.conn) = .ok c)
    (hencrypts : c.encrypts) (hdrs : c.IsDrs) :
    drsWriterFill env x = cpuTcpAesCryptoCtr128EncryptOutputDrs env { x with conn := c } := by
  unfold drsWriterFill
  rw [hdrain]
  show (if c.encrypts then if c.IsDrs then _ else (_ : Except WriterAbort (DrsConn W)) else _) = _
  rw [if_pos hencrypts, if_pos hdrs]

/-- **A call of the writer.** -/
theorem drsWriter_woken (h : drsWriter env x = .ok y) (hc : x.conn.Serves)
    (hw : x.conn.Woken x.drs.delayPending) :
    y.conn.Serves ∧ y.conn.Woken y.drs.delayPending := by
  have htake (e : Conn W) : ∃ out outP, (writerTake e).1 = { e with out := out, outP := outP } := by
    unfold writerTake
    split_ifs
    · exact ⟨e.out, [], rfl⟩
    · exact ⟨[], e.outP, rfl⟩
  have hfill : ∀ z, drsWriterFill env x = .ok z →
      z.conn.Serves ∧ z.conn.Woken z.drs.delayPending := by
    intro z hz
    obtain ⟨d, hdrain, hz⟩ := bind_ok_iff.mp hz
    obtain ⟨outP, wantWr, hclosing⟩ := writerClosing_spares x.conn
    obtain ⟨m, w, hd⟩ := drainQueue_drained hdrain
    rw [hclosing] at hd
    have hcd : d.Serves := by
      rw [hd]
      exact hc.of_same rfl hc.crypto rfl rfl rfl
    have hwd : d.Woken x.drs.delayPending := by
      rw [hd]
      exact hw.of_same rfl rfl rfl
    split_ifs at hz with hencrypts hdrs
    · exact cpuTcpAesCryptoCtr128EncryptOutputDrs_woken hz hdrs hcd hwd
    · cases hplain : cpuTcpAesCryptoCtr128EncryptOutput d with
      | error a =>
        rw [hplain] at hz
        exact nomatch hz
      | ok e =>
        rw [hplain] at hz
        obtain rfl := Except.ok.inj hz
        obtain ⟨hframe, htimer⟩ := cpuTcpAesCryptoCtr128EncryptOutput_touches hplain
        obtain ⟨hserves, htype, hstop⟩ := hframe.serves hcd
        exact ⟨hserves, hwd.of_same htype hstop htimer⟩
    · obtain rfl := Except.ok.inj hz
      exact ⟨hcd, hwd⟩
  unfold drsWriter at h
  cases hres : drsWriterFill env x with
  | error a =>
    rw [hres] at h
    exact nomatch h
  | ok z =>
    rw [hres] at h
    obtain rfl := Except.ok.inj h
    obtain ⟨hcz, hwz⟩ := hfill z hres
    obtain ⟨out, outP, htaken⟩ := htake z.conn
    show (writerTake z.conn).1.Serves ∧ (writerTake z.conn).1.Woken z.drs.delayPending
    rw [htaken]
    exact ⟨hcz.of_same rfl hcz.crypto rfl rfl rfl, hwz.of_same rfl rfl rfl⟩

/-- **Reader and writer.** -/
theorem cpuServerReadWrite_woken {P : Conn W → Prop}
    (hP : ∀ e, P e → ¬ (x.conn.type = .rpcExtServerDrs ∧ x.drs.delayPending = true))
    (hc : x.conn.Serves) (hw : x.conn.Woken x.drs.delayPending) (hlive : x.conn.cError = false)
    {queue : List Bytes} {turns : ℕ}
    (hparses : ParsesOn (clientMethods env.server) P x.conn queue turns)
    (h : cpuServerReadWrite env x queue turns = .ok y) :
    y.conn.Serves ∧ y.conn.Woken y.drs.delayPending := by
  unfold cpuServerReadWrite at h
  cases hread : cpuTcpServerReader (clientMethods env.server) x.conn queue turns with
  | error f =>
    rw [hread] at h
    exact nomatch h
  | ok r =>
    rw [hread] at h
    dsimp only at h
    obtain ⟨hcr, hwr⟩ := cpuTcpServerReader_woken hP hc hw hlive hparses hread
    cases hwrite : drsWriter env { x with conn := r.conn } with
    | error a =>
      rw [hwrite] at h
      exact nomatch h
    | ok z =>
      rw [hwrite] at h
      obtain rfl := Except.ok.inj h
      exact drsWriter_woken hwrite hcr hwr

/-! ### Alarms -/

theorem failConnection_serves (hc : c.Serves) (err : ℤ) : (failConnection c err).Serves :=
  hc.of_same rfl hc.crypto rfl rfl rfl

theorem directScheduleRetry_serves (env : OutboundEnv W) (hc : c.Serves) (attempt : ℕ) :
    (directScheduleRetry env c attempt).Serves ∧
      (directScheduleRetry env c attempt).type = c.type ∧
      (directScheduleRetry env c attempt).cStopRead = c.cStopRead ∧
      ((directScheduleRetry env c attempt).cError = true ∨
        (directScheduleRetry env c attempt).timer.isSome = true) := by
  unfold directScheduleRetry
  split_ifs
  · exact ⟨failConnection_serves hc _, rfl, rfl, Or.inl rfl⟩
  · exact ⟨hc.of_same rfl hc.crypto rfl rfl rfl, rfl, rfl, Or.inr rfl⟩

theorem directRetryDcConnection_serves (env : OutboundEnv W) (hc : c.Serves) :
    (directRetryDcConnection env c).Serves ∧
      (directRetryDcConnection env c).type = c.type ∧
      (directRetryDcConnection env c).cStopRead = c.cStopRead := by
  unfold directRetryDcConnection
  split_ifs
  · exact ⟨hc.of_same rfl hc.crypto rfl rfl rfl, rfl, rfl⟩
  · obtain ⟨e, world⟩ := env.directTryDcAddrs c.world c.rpc.extraInt4
    cases e with
    | none =>
      have hworld : ({ c with world := world } : Conn W).Serves :=
        hc.of_same rfl hc.crypto rfl rfl rfl
      obtain ⟨hserves, htype, hstop, -⟩ := directScheduleRetry_serves env hworld c.rpc.extraInt
      exact ⟨hserves, htype, hstop⟩
    | some e => exact ⟨hc.of_same rfl hc.crypto rfl rfl rfl, rfl, rfl⟩

/-- A client that has failed, or reads. -/
def Conn.Going (c d : Conn W) : Prop :=
  d.Serves ∧ d.type = c.type ∧ (d.cError = true ∨ d.cStopRead = false)

/-- Reading goes on where it was stopped; otherwise something else is done. -/
theorem rateLimitResume_going (hc : c.Serves) {f : Conn W}
    (hf : c.cStopRead = false → Conn.Going c f) :
    Conn.Going c (match rateLimitResume c with
      | some c => c
      | none => f) := by
  unfold rateLimitResume
  cases hstop : c.cStopRead with
  | true => exact ⟨hc.of_same rfl hc.crypto rfl rfl rfl, rfl, Or.inr rfl⟩
  | false => exact hf hstop

/-- **An alarm of a client without a delay** leaves it failed, or reading. -/
theorem clientAlarm_going (env : ExtServerEnv W) (hc : c.Serves) :
    Conn.Going c (clientAlarm env c) := by
  have hretry (hreads : c.cStopRead = false) :
      Conn.Going c (directRetryDcConnection env.toOutboundEnv c) := by
    obtain ⟨hserves, htype, hstop⟩ := directRetryDcConnection_serves env.toOutboundEnv hc
    exact ⟨hserves, htype, Or.inr (hstop.trans hreads)⟩
  have hdrs : Conn.Going c (tcpRpcsExtDrsAlarm env c) := by
    refine rateLimitResume_going hc fun hreads => ?_
    split_ifs
    · exact hretry hreads
    · unfold tcpRpcsExtAlarm
      by_cases hproxy : c.cProxyProtocol = true
      · rw [if_pos hproxy]
        exact ⟨failConnection_serves hc _, rfl, Or.inl rfl⟩
      · rw [if_neg hproxy]
        cases env.defaultDomainInfo with
        | none => exact ⟨hc, rfl, Or.inr hreads⟩
        | some dflt =>
          dsimp only
          rw [if_neg hc.inPacketNum]
          exact ⟨hc, rfl, Or.inr hreads⟩
  have hdirect : Conn.Going c (tcpDirectClientAlarm env c) := by
    refine rateLimitResume_going hc fun hreads => ?_
    split_ifs
    · exact hretry hreads
    · exact ⟨hc, rfl, Or.inr hreads⟩
  unfold clientAlarm
  rcases hc.type with (htype | htype) | htype <;> rw [htype]
  · exact hdrs
  · exact hdrs
  · exact hdirect

/-- A client that goes on without a delay is woken. -/
theorem Conn.Going.sound {drs : DrsState} (h : Conn.Going c d)
    (hdelay : ¬ (c.IsDrs ∧ drs.delayPending = true)) : DrsSound ⟨d, drs⟩ := by
  obtain ⟨hserves, htype, hends⟩ := h
  refine ⟨hserves, fun hgoes => ?_⟩
  rcases hends with hfailed | hstop
  · exact nomatch hgoes.symm.trans hfailed
  · refine .of_going hstop fun hpending => hdelay ?_
    unfold Conn.IsDrs at hpending ⊢
    rwa [← htype]

/-- **The alarm of a client with records**, when its timer is gone. -/
theorem drsAlarm_sound (hc : x.conn.Serves) (hlive : x.conn.cError = false) (hdrs : x.conn.IsDrs)
    (hleaves : x.drs.delayPending = true → x.conn.cStopRead = false ∧ ¬ x.conn.RetryDue)
    {queue : List Bytes} {turns : ℕ} (halarm : drsAlarm env x queue turns = .ok y) :
    DrsSound y := by
  cases hdelay : x.drs.delayPending with
  | false =>
    rw [drsAlarm_of_none env hdelay] at halarm
    obtain rfl := Except.ok.inj halarm
    have hgoing := clientAlarm_going env.server hc
    have hsame : clientAlarm env.server x.conn = tcpRpcsExtDrsAlarm env.server x.conn := by
      unfold clientAlarm
      rcases hdrs with htype | htype <;> rw [htype]
    rw [hsame] at hgoing
    exact hgoing.sound fun hpending => nomatch hdelay.symm.trans hpending.2
  | true =>
    obtain ⟨hstop, hretry⟩ := hleaves hdelay
    have hnone : rateLimitResume x.conn = none := by
      unfold rateLimitResume
      rw [hstop]
      rfl
    unfold drsAlarm at halarm
    rw [hnone] at halarm
    dsimp only at halarm
    rw [if_neg hretry] at halarm
    by_cases hproxy : x.conn.cProxyProtocol = true
    · rw [if_pos hproxy] at halarm
      obtain rfl := Except.ok.inj halarm
      exact ⟨failConnection_serves hc _, fun hgoes => nomatch hgoes⟩
    rw [if_neg hproxy] at halarm
    have hresume : delayResume env x queue turns = .ok y := by
      cases hdflt : env.server.defaultDomainInfo with
      | none =>
        rw [hdflt] at halarm
        exact halarm
      | some dflt =>
        rw [hdflt] at halarm
        dsimp only at halarm
        rwa [if_neg hc.inPacketNum] at halarm
    unfold delayResume at hresume
    rw [if_pos ⟨hc.tls hdrs, hdelay⟩] at hresume
    have hgoing : x.conn.Woken false := .of_going hstop fun hpending => nomatch hpending.2
    generalize hx' : ({ x with drs := { x.drs with delayPending := false } } : DrsConn W) = x'
      at hresume
    have hdelay' : x'.drs.delayPending = false := by rw [← hx']
    have hconn : x.conn = x'.conn := by rw [← hx']
    rw [hconn] at hc hlive hgoing
    rw [← hdelay'] at hgoing
    obtain ⟨hcy, hwy⟩ := cpuServerReadWrite_woken (P := fun _ => True)
      (fun _ _ hpending => nomatch hdelay'.symm.trans hpending.2) hc hgoing hlive
      (fun _ _ => eachTurnFor_of_forall (fun _ _ => trivial) _ _) hresume
    exact ⟨hcy, fun _ => hwy⟩

/-- **An alarm.** -/
theorem DrsSound.alarm (h : DrsSound x) {queue : List Bytes} {turns : ℕ}
    (hleaves : LeavesWakeUp env x (.alarm queue turns))
    (halarm : drsJsAlarm env x queue turns = .ok y) : DrsSound y := by
  have hc : x.due.conn.Serves := h.1.of_same rfl h.1.crypto rfl rfl rfl
  unfold drsJsAlarm at halarm
  dsimp only at halarm
  split_ifs at halarm with herror hdrs
  · obtain rfl := Except.ok.inj halarm
    exact ⟨hc, fun hlive => nomatch hlive.symm.trans herror⟩
  · have hlive : x.due.conn.cError = false := by simpa using herror
    exact drsAlarm_sound hc hlive hdrs (hleaves hlive hdrs) halarm
  · obtain rfl := Except.ok.inj halarm
    exact (clientAlarm_going env.server hc).sound fun hpending => hdrs hpending.1

/-- The connection to the data centre is closed. -/
theorem DrsSound.dcClosed (h : DrsSound x) (ready : Bool) :
    DrsSound { x with conn := dcClosed env.server.toOutboundEnv x.conn ready } := by
  obtain ⟨hc, hw⟩ := h
  unfold Server.dcClosed
  cases x.conn.extra with
  | null => exact ⟨hc, hw⟩
  | methods => exact ⟨hc, hw⟩
  | job e =>
    dsimp only
    by_cases hother : ¬ x.conn.IsDirect
    · rw [if_pos hother]
      exact ⟨hc, hw⟩
    rw [if_neg hother]
    split_ifs
    · have hunlinked : ({ x.conn with extra := .null } : Conn W).Serves :=
        hc.of_same rfl hc.crypto rfl rfl rfl
      obtain ⟨hserves, -, -, hends⟩ := directScheduleRetry_serves env.server.toOutboundEnv
        hunlinked x.conn.rpc.extraInt
      refine ⟨hserves, fun hlive => ?_⟩
      rcases hends with hfailed | hset
      · exact nomatch hlive.symm.trans hfailed
      · exact .of_timer hset
    · exact ⟨failConnection_serves hc _, fun hlive => nomatch hlive⟩

/-- **One event.** -/
theorem DrsSound.step (h : DrsSound x) {e : DrsEvent W} (hleaves : LeavesWakeUp env x e)
    (hstep : drsStep env (.ok x) e = .ok y) : DrsSound y := by
  cases e with
  | elsewhere w =>
    obtain rfl := Except.ok.inj hstep
    exact ⟨h.1.of_same rfl h.1.crypto rfl rfl rfl, fun hlive => (h.2 hlive).of_same rfl rfl rfl⟩
  | run queue turns =>
    change (if x.conn.cError = true then Except.ok x else cpuServerReadWrite env x queue turns) =
      .ok y at hstep
    by_cases herror : x.conn.cError = true
    · rw [if_pos herror] at hstep
      obtain rfl := Except.ok.inj hstep
      exact h
    rw [if_neg herror] at hstep
    have hlive : x.conn.cError = false := by simpa using herror
    have hwoken : y.conn.Serves ∧ y.conn.Woken y.drs.delayPending := by
      by_cases hpending : x.conn.type = .rpcExtServerDrs ∧ x.drs.delayPending = true
      · exact cpuServerReadWrite_woken (P := fun _ => False) (fun _ hP => hP.elim) h.1 (h.2 hlive)
          hlive (hleaves hlive hpending.1 hpending.2) hstep
      · exact cpuServerReadWrite_woken (P := fun _ => True) (fun _ _ => hpending) h.1 (h.2 hlive)
          hlive (fun _ _ => eachTurnFor_of_forall (fun _ _ => trivial) _ _) hstep
    exact ⟨hwoken.1, fun _ => hwoken.2⟩
  | alarm queue turns =>
    change (if x.conn.timer.isSome = true then drsJsAlarm env x queue turns else .ok x) = .ok y
      at hstep
    split_ifs at hstep
    · exact h.alarm hleaves hstep
    · obtain rfl := Except.ok.inj hstep
      exact h
  | answer raw =>
    obtain rfl := Except.ok.inj hstep
    exact ⟨h.1.of_same rfl h.1.crypto rfl rfl rfl, fun hlive => (h.2 hlive).of_same rfl rfl rfl⟩
  | dcClosed ready =>
    obtain rfl := Except.ok.inj hstep
    exact h.dcClosed ready
  | dcInit =>
    obtain rfl := Except.ok.inj hstep
    exact ⟨h.1.of_same rfl h.1.crypto rfl rfl rfl, fun hlive => (h.2 hlive).of_same rfl rfl rfl⟩
  | fails err =>
    obtain rfl := Except.ok.inj hstep
    exact ⟨failConnection_serves h.1 err, fun hlive => nomatch hlive⟩

/-! ### The data centre -/

section DataCentre

variable (env : DirectEnv W)

variable {env} {a b : Conn (Conn W)}

/-- What is stopped stays so, or is given a timer. -/
structure StopsTimed {V : Type*} (a b : Conn V) : Prop where
  transportMode : b.transportMode = a.transportMode
  stops : b.cStopRead = a.cStopRead ∧ b.timer = a.timer ∨ b.timer.isSome = true

theorem StopsTimed.of_same {V : Type*} {a b : Conn V} (hmode : b.transportMode = a.transportMode)
    (hstop : b.cStopRead = a.cStopRead) (htimer : b.timer = a.timer) : StopsTimed a b :=
  ⟨hmode, Or.inl ⟨hstop, htimer⟩⟩

theorem socks5HandleResponse_stops {V : Type*} (config : Socks5Config) (c : Conn V) :
    StopsTimed c (socks5HandleResponse config c).1 := by
  unfold socks5HandleResponse
  split_ifs
  · unfold socks5Greeted
    dsimp only
    split_ifs <;> exact .of_same rfl rfl rfl
  · unfold socks5Authorized
    split_ifs <;> exact .of_same rfl rfl rfl
  · unfold socks5Connected
    by_cases hlen : c.inp.length < 5
    · rw [if_pos hlen]
      exact .of_same rfl rfl rfl
    · rw [if_neg hlen]
      cases socks5AddrLen (c.inp.getD 3 0) (c.inp.getD 4 0) with
      | none => exact .of_same rfl rfl rfl
      | some addrLen =>
        dsimp only
        split_ifs <;> exact .of_same rfl rfl rfl
  · exact .of_same rfl rfl rfl

theorem tcpDirectDcSendObfs2Init_stops (env : DirectEnv W) (d : Conn (Conn W)) :
    StopsTimed d (tcpDirectDcSendObfs2Init env d) := by
  unfold tcpDirectDcSendObfs2Init
  dsimp only
  split_ifs <;> exact .of_same rfl rfl rfl

theorem StopsTimed.trans {V : Type*} {a b c : Conn V} (h : StopsTimed a b) (h' : StopsTimed b c) :
    StopsTimed a c := by
  refine ⟨h'.transportMode.trans h.transportMode, ?_⟩
  rcases h'.stops with ⟨hstop', htimer'⟩ | hset'
  · rcases h.stops with ⟨hstop, htimer⟩ | hset
    · exact Or.inl ⟨hstop'.trans hstop, htimer'.trans htimer⟩
    · exact Or.inr (htimer' ▸ hset)
  · exact Or.inr hset'

/-- **A call of `parse_execute`.** -/
theorem DcCall.stops {res : ℤ} (h : DcCall env a b res) : StopsTimed a b := by
  have hsocks := socks5HandleResponse_stops env.socks5 a
  cases h with
  | greets _ heq =>
    rw [heq] at hsocks
    exact hsocks
  | rejected _ heq =>
    rw [heq] at hsocks
    exact hsocks.trans (.of_same rfl rfl rfl)
  | starts _ heq =>
    rw [heq] at hsocks
    exact hsocks.trans (tcpDirectDcSendObfs2Init_stops env _)
  | gone _ _ => exact .of_same rfl rfl rfl
  | uncounted _ _ _ => exact .of_same rfl rfl rfl
  | refused _ _ _ _ => exact .of_same rfl rfl rfl
  | @relayed _ _ _ _ _ _ delay _ _ =>
    cases delay with
    | none => exact .of_same rfl rfl rfl
    | some delay => exact ⟨rfl, Or.inr rfl⟩

/-- The invariant of such a run, while the connection has not failed. -/
def DcWoken (d : Conn (Conn W)) : Prop :=
  d.transportMode ≠ .httpStream ∧ (d.cStopRead = true → d.timer.isSome = true)

theorem StopsTimed.woken (h : StopsTimed a b) (ha : DcWoken a) : DcWoken b := by
  refine ⟨by rw [h.transportMode]; exact ha.1, fun hstop => ?_⟩
  rcases h.stops with ⟨hsame, htimer⟩ | hset
  · rw [htimer]
    exact ha.2 (hsame.symm.trans hstop)
  · exact hset

end DataCentre

/-! ### Runs -/

/-- Records that are followed by delays of a second. -/
def sampleDrs : DrsEnv Unit := ⟨sampleServer, sampleWriter, true, fun w => (1, w)⟩

/-- A client of fake TLS with output that has not been sent, in a record of which a byte is to
come. -/
def sampleDelayable (out : Bytes) (timer : Option ℚ) (write : CtrContext) : Conn Unit :=
  { samplePadded [] with
    type := .rpcExtServerDrs
    cIsTls := true
    leftTlsPacketLength := 1
    crypto := some ⟨⟨fun _ => 0, 64⟩, write⟩
    out := out
    timer := timer }

/-- The client before its first record. -/
def samplePaced (out : Bytes) : DrsConn Unit :=
  ⟨sampleDelayable out none ⟨fun _ => 0, 0⟩, ⟨0, 0, 0, false⟩⟩

theorem samplePaced_starts (out : Bytes) : StartsPaced (samplePaced out) where
  serves :=
    { past := Or.inl ⟨Or.inr rfl, rfl, (nomatch ·),
        Or.inl (show (0 : ℤ) ≤ 0 ∧ (0 : ℤ) < 2 ^ 31 by decide)⟩
      type := Or.inl (Or.inl rfl)
      crypto := rfl
      inPacketNum := show (0 : ℤ) ≠ -3 by decide
      tls := fun _ => rfl }
  reads := rfl
  writes := rfl

/-- The client behind the first record. -/
def sampleDelayed (out : Bytes) : DrsConn Unit :=
  let x := delayRecord sampleDrs
    (tlsRecord sampleDrs (samplePaced out) ⟨⟨fun _ => 0, 64⟩, ⟨fun _ => 0, 0⟩⟩)
  { x with conn := { x.conn with outP := [] } }

/-- The first record has 1350 bytes. -/
theorem samplePaced_record {out : Bytes} (hout : out.length = 2000) :
    (tlsRecord sampleDrs (samplePaced out) ⟨⟨fun _ => 0, 64⟩, ⟨fun _ => 0, 0⟩⟩).conn.out.length =
        650 ∧
      (tlsRecord sampleDrs (samplePaced out) ⟨⟨fun _ => 0, 64⟩, ⟨fun _ => 0, 0⟩⟩).drs =
        ⟨1, 1, 0, false⟩ := by
  have hsize : drsRecordSize sampleDrs () 0 = (1350, ()) := by decide
  have hidle : (⟨0, 0, 0, false⟩ : DrsState).idle 0 = ⟨0, 0, 0, false⟩ := by
    simp [DrsState.idle, DRS_RESET_AFTER, DRS_DELAY_RESET_AFTER]
  unfold tlsRecord
  dsimp only
  rw [show (samplePaced out).drs.idle (sampleDrs.server.preciseNow (samplePaced out).conn.world) =
    ⟨0, 0, 0, false⟩ from hidle, show drsRecordSize sampleDrs (samplePaced out).conn.world _ =
      (1350, ()) from hsize]
  refine ⟨?_, rfl⟩
  show (out.drop (min 1350 out.length)).length = 650
  rw [List.length_drop, hout]
  rfl

/-- The first run sends a record, and a delay begins. -/
theorem samplePaced_run {out : Bytes} (hout : out.length = 2000) :
    drsStep sampleDrs (.ok (samplePaced out)) (.run [] 1) = .ok (sampleDelayed out) := by
  have hread : cpuTcpServerReader (clientMethods sampleServer) (samplePaced out).conn [] 1 =
      .ok ⟨(samplePaced out).conn, 0, []⟩ := by
    have hdec : (clientMethods sampleServer).cryptoDecryptInput (samplePaced out).conn =
        .ok ((samplePaced out).conn, 0) := loop_of_done decryptTurn_shrinks rfl
    have hfront : readerFront (clientMethods sampleServer) (samplePaced out).conn [] =
        .ok (samplePaced out).conn := by
      rw [readerFront, show readerFill (samplePaced out).conn [] = (samplePaced out).conn from rfl,
        readerDecode, if_pos (show (samplePaced out).conn.crypto.isSome = true from rfl), hdec]
      rfl
    exact cpuTcpServerReader_of_done hfront (readerTurn_of_stops (ReaderStops.of_nil rfl)) 0
  obtain ⟨hleft, hdrs⟩ := samplePaced_record hout
  have hencrypt : cpuTcpAesCryptoCtr128EncryptOutputDrs sampleDrs (samplePaced out) = .ok _ :=
    cpuTcpAesCryptoCtr128EncryptOutputDrs_delays rfl rfl (show (0 : ℤ) ≤ 1 by decide) rfl rfl
    (by rw [show (samplePaced out).conn.out = out from rfl, hout]; decide) (by rw [hleft]; decide)
    (by rw [hleft, hdrs]; decide)
  have hfill : drsWriterFill sampleDrs (samplePaced out) = .ok (delayRecord sampleDrs
      (tlsRecord sampleDrs (samplePaced out) ⟨⟨fun _ => 0, 64⟩, ⟨fun _ => 0, 0⟩⟩)) := by
    have hencrypts : (samplePaced out).conn.encrypts := ⟨ConnType.noConfusion, rfl⟩
    have htype : (samplePaced out).conn.IsDrs := Or.inl rfl
    exact (drsWriterFill_of_drs rfl hencrypts htype).trans hencrypt
  show cpuServerReadWrite sampleDrs (samplePaced out) [] 1 = _
  unfold cpuServerReadWrite
  rw [show sampleDrs.server = sampleServer from rfl, hread]
  show (drsWriter sampleDrs (samplePaced out)).mapError _ = _
  unfold drsWriter
  rw [hfill]
  rfl

end Server
end Teleproto3
