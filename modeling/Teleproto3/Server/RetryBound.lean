/-
# How often a client's data centre is tried again

`direct_schedule_retry` gives a client up once `extra_int` has reached `DIRECT_MAX_RETRIES`, and
otherwise counts it up and sets the timer.  `direct_retry_dc_connection` clears it as soon as a
connection is initiated, and `tcp_direct_close` of a connection without a cipher reads it again:
after a retry that initiates a connection the count begins anew.

A client is closed before the connection it is linked to, whose `extra` still points to it.  If
that connection has no cipher, its end sets the timer of a client that has been closed.

Beside the client and the connection a `RetryRun` keeps what the code does not: the attempts since
the client came to its data centre or since the last init, the retries scheduled in that time as
long as the client had not failed, and those scheduled for a client that had been closed.
-/

import Teleproto3.Server.DirectRelay

namespace Teleproto3
namespace Server

open Lib

/-! ### Attempts -/

/-- The attempts so far: how many have failed, and whether one made by a retry has initiated a
connection. -/
structure Attempts where
  failed : ℕ
  resumed : Bool
  deriving DecidableEq, Repr

namespace Attempts

/-- No attempt. -/
def start : Attempts := ⟨0, false⟩

/-- An attempt fails. -/
def fail (a : Attempts) : Attempts := { a with failed := a.failed + 1 }

/-- An attempt made by a retry initiates a connection. -/
def resume (a : Attempts) : Attempts := { a with resumed := true }

/-- **What the counter of a client is worth**, where it is linked to a connection and where it
waits for the next attempt: once a retry has initiated a connection, it is behind. -/
inductive Counted : Attempts → Bool → ℕ → Prop
  | linked : Counted ⟨0, false⟩ true 0
  | waiting (failed : ℕ) : Counted ⟨failed, false⟩ false failed
  | relinked {failed : ℕ} (hfailed : 0 < failed) : Counted ⟨failed, true⟩ true 0
  | behind {failed counter : ℕ} (hless : counter < failed) : Counted ⟨failed, true⟩ false counter

variable {a : Attempts} {linked : Bool} {counter : ℕ}

/-- A failure leaves the client waiting, and the counter one higher. -/
theorem Counted.fail (h : Counted a linked counter) : Counted a.fail false (counter + 1) := by
  cases h with
  | linked => exact .waiting 1
  | waiting => exact .waiting _
  | relinked hfailed => exact .behind (Nat.succ_lt_succ hfailed)
  | behind hless => exact .behind (Nat.succ_lt_succ hless)

/-- A retry has a failure behind it. -/
theorem Counted.resume (h : Counted a false counter) (hpos : 0 < counter) :
    Counted a.resume true 0 := by
  cases h with
  | waiting => exact .relinked hpos
  | behind hless => exact .relinked (hpos.trans hless)

/-- **The exact condition for a failure**: the retry it may lead to is none too many, unless
enough attempts have failed and the counter is behind. -/
theorem Counted.bounded_iff (h : Counted a linked counter) {bound : ℕ} (hpos : 0 < bound)
    (hle : a.failed ≤ bound) :
    (counter < bound → a.failed + 1 ≤ bound) ↔ (a.failed < bound ∨ a.resumed = false) := by
  cases h with
  | linked => exact ⟨fun _ => .inr rfl, fun _ _ => hpos⟩
  | waiting => exact ⟨fun _ => .inr rfl, fun _ hless => hless⟩
  | relinked hfailed =>
    refine ⟨fun hbounded => .inl (hbounded hpos), fun h _ => ?_⟩
    exact h.resolve_right Bool.noConfusion
  | behind hless =>
    refine ⟨fun hbounded => .inl (hbounded (hless.trans_le hle)), fun h _ => ?_⟩
    exact h.resolve_right Bool.noConfusion

end Attempts

/-! ### The two ends of a client -/

section Links

variable {W : Type*}

/-- `tcp_direct_close` of a connection to a data centre, for the client its `extra` points to. -/
def tcpDirectCloseDc (env : OutboundEnv W) (d : Conn Unit) (client : Conn W) : Conn W :=
  if d.extra = .null then client
  else if d.crypto.isSome = false ∧ client.rpc.extraInt < DIRECT_MAX_RETRIES then
    directScheduleRetry env { client with extra := .null } client.rpc.extraInt
  else failConnection client (-23)

/-- A linked client, whose counter is clear: it is unlinked for another attempt, or failed once
the connection has its cipher. -/
theorem tcpDirectCloseDc_of_clear (env : OutboundEnv W) (d : Conn Unit) {client : Conn W}
    (hclear : client.rpc.extraInt = 0) :
    d.extra = .null ∧ tcpDirectCloseDc env d client = client ∨
      (d.extra ≠ .null ∧ d.crypto.isSome = false ∧
        tcpDirectCloseDc env d client = directScheduleRetry env { client with extra := .null } 0) ∨
      d.crypto.isSome = true ∧ tcpDirectCloseDc env d client = failConnection client (-23) := by
  unfold tcpDirectCloseDc
  rw [hclear]
  cases hcrypto : d.crypto.isSome with
  | true =>
    rw [if_neg (by simp : ¬ (true = false ∧ 0 < DIRECT_MAX_RETRIES))]
    split_ifs with hextra
    · exact .inl ⟨hextra, rfl⟩
    · exact .inr (.inr ⟨rfl, rfl⟩)
  | false =>
    rw [if_pos (by decide : false = false ∧ 0 < DIRECT_MAX_RETRIES)]
    split_ifs with hextra
    · exact .inl ⟨hextra, rfl⟩
    · exact .inr (.inl ⟨hextra, rfl, rfl⟩)

/-- A retry has been scheduled: `extra_int` goes up there, and nowhere else. -/
def Schedules (c c' : Conn W) : Prop := c.rpc.extraInt < c'.rpc.extraInt

instance (c c' : Conn W) : Decidable (Schedules c c') := inferInstanceAs (Decidable (_ < _))

/-- **What `direct_schedule_retry` does**: it schedules a retry, or fails the client. -/
theorem directScheduleRetry_cases (env : OutboundEnv W) (c : Conn W) :
    c.rpc.extraInt < DIRECT_MAX_RETRIES ∧
        (directScheduleRetry env c c.rpc.extraInt).rpc.extraInt = c.rpc.extraInt + 1 ∨
      DIRECT_MAX_RETRIES ≤ c.rpc.extraInt ∧
        directScheduleRetry env c c.rpc.extraInt = failConnection c (-27) := by
  unfold directScheduleRetry
  split_ifs with h
  · exact .inr ⟨h, rfl⟩
  · exact .inl ⟨not_le.mp h, rfl⟩

/-- **The first attempt.** -/
theorem directConnectToDc_cases (env : OutboundEnv W) (c : Conn W) :
    env.directDcKnown c.world c.rpc.extraInt4 = false ∧ (directConnectToDc env c).cError = true ∧
        (directConnectToDc env c).rpc = c.rpc ∨
      (env.directDcKnown c.world c.rpc.extraInt4 = true ∧
        (env.directTryDcAddrs c.world c.rpc.extraInt4).1 = none ∧
        (directConnectToDc env c).cError = c.cError ∧
        (directConnectToDc env c).rpc.extraInt = 1 ∧ (directConnectToDc env c).extra = c.extra) ∨
      (env.directTryDcAddrs c.world c.rpc.extraInt4).1 ≠ none ∧
        (directConnectToDc env c).cError = c.cError ∧ (directConnectToDc env c).rpc = c.rpc ∧
        (directConnectToDc env c).extra.isJob = true := by
  unfold directConnectToDc
  cases env.directDcKnown c.world c.rpc.extraInt4 with
  | false => exact .inl ⟨rfl, rfl, rfl⟩
  | true =>
    rw [if_neg (by simp)]
    dsimp only
    rcases env.directTryDcAddrs c.world c.rpc.extraInt4 with ⟨_ | e, w⟩
    · exact .inr (.inl ⟨rfl, rfl, rfl, rfl, rfl⟩)
    · exact .inr (.inr ⟨by simp, rfl, rfl, rfl⟩)

/-- An alarm makes the next attempt: `direct_retry_dc_connection` comes to
`direct_try_dc_addrs`. -/
def AttemptDue (env : OutboundEnv W) (c : Conn W) : Prop :=
  c.cError = false ∧ c.cStopRead = false ∧ c.IsDirect ∧ c.extra = .null ∧ 0 < c.rpc.extraInt ∧
    env.directDcKnown c.world c.rpc.extraInt4 = true

instance (env : OutboundEnv W) (c : Conn W) : Decidable (AttemptDue env c) :=
  inferInstanceAs (Decidable (_ ∧ _))

/-- What comes of the attempt an alarm makes, if it makes one: whether a connection is
initiated. -/
def attemptOutcome (env : OutboundEnv W) (c : Conn W) : Option Bool :=
  if AttemptDue env c then some (env.directTryDcAddrs c.world c.rpc.extraInt4).1.isSome else none

/-- A client that has failed makes no attempt. -/
theorem live_of_attemptOutcome {env : OutboundEnv W} {c : Conn W} {outcome : Bool}
    (h : attemptOutcome env c = some outcome) : c.cError = false := by
  unfold attemptOutcome at h
  split_ifs at h with hdue
  exact hdue.1

/-- What an alarm comes to for the link and the counter of a client. -/
inductive AlarmResult (c c' : Conn W) : Option Bool → Prop
  | quiet (hsame : c'.rpc.extraInt = c.rpc.extraInt) (hextra : c'.extra = c.extra) :
      AlarmResult c c' none
  | unknown (hfailed : c'.cError = true) (hclear : c'.rpc.extraInt = 0)
      (hextra : c'.extra = c.extra) : AlarmResult c c' none
  | connects (hextra : c.extra = .null) (hpos : 0 < c.rpc.extraInt)
      (hlinked : c'.extra.isJob = true) (hclear : c'.rpc.extraInt = 0) :
      AlarmResult c c' (some true)
  | waits (hextra : c.extra = .null) (hless : c.rpc.extraInt < DIRECT_MAX_RETRIES)
      (hcount : c'.rpc.extraInt = c.rpc.extraInt + 1) (hextra' : c'.extra = .null) :
      AlarmResult c c' (some false)
  | givesUp (hextra : c.extra = .null) (hmax : DIRECT_MAX_RETRIES ≤ c.rpc.extraInt)
      (hfailed : c'.cError = true) (hsame : c'.rpc.extraInt = c.rpc.extraInt)
      (hextra' : c'.extra = .null) : AlarmResult c c' (some false)

/-- **A retry.** -/
theorem directRetryDcConnection_result (env : OutboundEnv W) {c : Conn W}
    (hextra : c.extra = .null) (hpos : 0 < c.rpc.extraInt) :
    AlarmResult c (directRetryDcConnection env c)
      (if env.directDcKnown c.world c.rpc.extraInt4 = true then
        some (env.directTryDcAddrs c.world c.rpc.extraInt4).1.isSome else none) := by
  unfold directRetryDcConnection
  cases hknown : env.directDcKnown c.world c.rpc.extraInt4 with
  | false => exact .unknown rfl rfl rfl
  | true =>
    rw [if_neg Bool.noConfusion, if_pos rfl]
    rcases env.directTryDcAddrs c.world c.rpc.extraInt4 with ⟨_ | e, w⟩
    · dsimp only
      rcases directScheduleRetry_cases env ({ c with world := w } : Conn W) with
        ⟨hless, hcount⟩ | ⟨hmax, hfails⟩
      · refine .waits hextra hless hcount ?_
        unfold directScheduleRetry
        rw [if_neg (not_le.mpr hless)]
        exact hextra
      · rw [hfails]
        exact .givesUp hextra hmax rfl rfl hextra
    · exact .connects hextra hpos rfl rfl

/-- The timer has no part in it. -/
theorem AlarmResult.of_due {c c' : Conn W} {outcome : Option Bool}
    (h : AlarmResult { c with timer := none } c' outcome) : AlarmResult c c' outcome := by
  cases h with
  | quiet hsame hextra => exact .quiet hsame hextra
  | unknown hfailed hclear hextra => exact .unknown hfailed hclear hextra
  | connects hextra hpos hlinked hclear => exact .connects hextra hpos hlinked hclear
  | waits hextra hless hcount hextra' => exact .waits hextra hless hcount hextra'
  | givesUp hextra hmax hfailed hsame hextra' => exact .givesUp hextra hmax hfailed hsame hextra'

theorem tcpRpcsExtAlarm_result (env : ExtServerEnv W) {c : Conn W}
    (hnum : c.rpc.inPacketNum ≠ -3) : AlarmResult c (tcpRpcsExtAlarm env c) none := by
  unfold tcpRpcsExtAlarm
  simp only [if_neg hnum]
  split_ifs
  · exact .quiet rfl rfl
  · cases env.defaultDomainInfo with
    | none => exact .quiet rfl rfl
    | some dflt => exact .quiet rfl rfl

/-- A client whose alarm makes an attempt where one is due, and else `other`. -/
theorem retry_result (env : OutboundEnv W) {c other : Conn W} (hlive : c.cError = false)
    (hdirect : c.IsDirect) (hother : AlarmResult c other none) :
    AlarmResult c ((rateLimitResume c).getD
      (if c.extra = .null ∧ 0 < c.rpc.extraInt then directRetryDcConnection env c else other))
      (attemptOutcome env c) := by
  unfold rateLimitResume attemptOutcome
  cases hstop : c.cStopRead with
  | true =>
    have hnot : ¬ AttemptDue env c := fun ⟨_, hreads, _⟩ => by simp [hstop] at hreads
    rw [if_neg hnot, if_pos (rfl : true = true)]
    exact .quiet rfl rfl
  | false =>
    rw [if_neg Bool.false_ne_true]
    dsimp only [Option.getD_none]
    by_cases hretry : c.extra = .null ∧ 0 < c.rpc.extraInt
    · have hresult := directRetryDcConnection_result env hretry.1 hretry.2
      have hdue : AttemptDue env c ↔ env.directDcKnown c.world c.rpc.extraInt4 = true :=
        ⟨fun ⟨_, _, _, _, _, hknown⟩ => hknown,
          fun hknown => ⟨hlive, hstop, hdirect, hretry.1, hretry.2, hknown⟩⟩
      rw [if_pos hretry]
      simp only [hdue]
      exact hresult
    · have hnot : ¬ AttemptDue env c := fun ⟨_, _, _, hextra, hpos, _⟩ => hretry ⟨hextra, hpos⟩
      rw [if_neg hretry, if_neg hnot]
      exact hother

theorem clientAlarm_result (env : ExtServerEnv W) {c : Conn W} (hlive : c.cError = false)
    (hdirect : c.IsDirect) (hnum : c.rpc.inPacketNum ≠ -3) :
    AlarmResult c (clientAlarm env c) (attemptOutcome env.toOutboundEnv c) := by
  unfold clientAlarm
  rcases id hdirect with htype | htype
  · have hresult := retry_result env.toOutboundEnv hlive hdirect
      (AlarmResult.quiet rfl rfl : AlarmResult c c none)
    rw [htype]
    show AlarmResult c (tcpDirectClientAlarm env c) _
    unfold tcpDirectClientAlarm
    cases hresume : rateLimitResume c with
    | none =>
      rw [hresume] at hresult
      exact hresult
    | some d =>
      rw [hresume] at hresult
      exact hresult
  · have hresult := retry_result env.toOutboundEnv hlive hdirect (tcpRpcsExtAlarm_result env hnum)
    rw [htype]
    show AlarmResult c (tcpRpcsExtDrsAlarm env c) _
    unfold tcpRpcsExtDrsAlarm
    simp only [htype, true_and]
    cases hresume : rateLimitResume c with
    | none =>
      rw [hresume] at hresult
      exact hresult
    | some d =>
      rw [hresume] at hresult
      exact hresult

/-- **An alarm of a client in direct mode.** -/
theorem jsAlarm_result (env : ExtServerEnv W) {c : Conn W} (hdirect : c.cError = false → c.IsDirect)
    (hnum : c.rpc.inPacketNum ≠ -3) :
    AlarmResult c (jsAlarm env c) (attemptOutcome env.toOutboundEnv c) := by
  unfold jsAlarm
  split_ifs with hfailed
  · have hnot : ¬ AttemptDue env.toOutboundEnv c := fun ⟨hlive, _⟩ => by simp [hfailed] at hlive
    rw [attemptOutcome, if_neg hnot]
    exact .quiet rfl rfl
  · have hlive : c.cError = false := by simpa using hfailed
    have hresult := clientAlarm_result env (c := { c with timer := none }) hlive
      (hdirect hlive) hnum
    exact hresult.of_due

end Links

/-! ### The run of a client -/

variable {X : Type*}

/-- A client, the connection whose `extra` points to it, and what has become of its attempts.
`closed` is set once `tcp_direct_close` has been called for the client. -/
structure RetryRun (X : Type*) where
  session : DirectSession X
  closed : Bool
  attempts : Attempts
  retries : ℕ
  late : ℕ

/-- What can happen.  `fail_connection`, which anything in the process may call, is an event of
its own; the close it leads to follows at any time. -/
inductive RetryEvent (X : Type*)
  /-- anything else in the process -/
  | elsewhere (x : X)
  | clientRead (decrypted : Bytes) (turns : ℕ)
  | clientAlarm
  | clientFails (err : ℤ)
  | clientClose
  | dcConnected
  | dcRead (raw decrypted : Bytes) (turns : ℕ)
  | dcAlarm
  | dcFails (err : ℤ)
  | dcClose

/-- The connection behind the client has got its cipher: its init is sent. -/
def InitDone (s s' : DirectSession X) : Prop :=
  s.dc.any (·.crypto.isSome) = false ∧ s'.dc.any (·.crypto.isSome) = true

instance (s s' : DirectSession X) : Decidable (InitDone s s') :=
  inferInstanceAs (Decidable (_ ∧ _))

/-- The attempts with the outcome of one more, if there was one. -/
def Attempts.record (a : Attempts) : Option Bool → Attempts
  | none => a
  | some true => a.resume
  | some false => a.fail

namespace RetryRun

/-- The session goes on; an init is the end of the attempts so far. -/
def goesOn (x : RetryRun X) (s : DirectSession X) : RetryRun X :=
  if InitDone x.session s then { x with session := s, attempts := .start, retries := 0 }
  else { x with session := s }

/-- The retries scheduled for a client that has not failed. -/
def countRetry (x : RetryRun X) (c c' : Conn (DcWorld X)) : ℕ :=
  if c.cError = false ∧ Schedules c c' then x.retries + 1 else x.retries

theorem countRetry_of_le {x : RetryRun X} {c c' : Conn (DcWorld X)}
    (h : c'.rpc.extraInt ≤ c.rpc.extraInt) : x.countRetry c c' = x.retries :=
  if_neg fun hcounts => absurd hcounts.2 (not_lt.mpr h)

theorem countRetry_of_failed {x : RetryRun X} {c c' : Conn (DcWorld X)} (h : c.cError = true) :
    x.countRetry c c' = x.retries :=
  if_neg fun hcounts => by simp [h] at hcounts

theorem countRetry_of_next {x : RetryRun X} {c c' : Conn (DcWorld X)} (hlive : c.cError = false)
    (h : c'.rpc.extraInt = c.rpc.extraInt + 1) : x.countRetry c c' = x.retries + 1 :=
  if_pos ⟨hlive, (Nat.lt_succ_self _).trans_eq h.symm⟩

end RetryRun

section Step

variable (base : ExtServerEnv X) (direct : DirectEnv X)

/-- A client comes to its data centre: `direct_connect_to_dc`, which makes the first attempt. -/
def startRetries (c : Conn (DcWorld X)) : RetryRun X :=
  let env := (sessionServer base).toOutboundEnv
  let s := startSession base direct c
  { session := s
    closed := false
    attempts :=
      if env.directDcKnown c.world c.rpc.extraInt4 = true ∧
          (env.directTryDcAddrs c.world c.rpc.extraInt4).1 = none then Attempts.start.fail
      else .start
    retries := if c.cError = false ∧ Schedules c s.client then 1 else 0
    late := 0 }

/-- An alarm of the client. -/
def retryAlarm (x : RetryRun X) : RetryRun X :=
  let c := x.session.meet
  let c' := jsAlarm (sessionServer base) c
  { x with
    session := x.session.withClient (sessionDirect base direct) c'
    attempts := x.attempts.record (attemptOutcome (sessionServer base).toOutboundEnv c)
    retries := x.countRetry c c' }

/-- `tcp_direct_close` of the client: its link is taken, the connection behind it is failed, and
the timer is removed. -/
def retryClientClose (x : RetryRun X) : RetryRun X :=
  if x.session.client.cError = false ∨ x.closed = true then x
  else
    { x with
      session :=
        { x.session with
          client := { x.session.client with extra := .null, timer := none }
          dc :=
            if x.session.client.extra = .null then x.session.dc
            else x.session.dc.map fun d => failConnection d (-23) }
      closed := true }

/-- `tcp_direct_close` of the connection to the data centre.  Before the init it is an attempt
that has failed. -/
def retryDcClose (x : RetryRun X) (d : Conn Unit) : RetryRun X :=
  let c := x.session.meet
  let c' := tcpDirectCloseDc (sessionServer base).toOutboundEnv d c
  { x with
    session := { x.session with client := c', dc := none }
    attempts :=
      if c.cError = false ∧ d.extra ≠ .null ∧ d.crypto.isSome = false then x.attempts.fail
      else x.attempts
    retries := x.countRetry c c'
    late := if x.closed = true ∧ Schedules c c' then x.late + 1 else x.late }

/-- One event. -/
def retryStep (x : RetryRun X) (e : RetryEvent X) : RetryRun X :=
  if x.session.fault then x
  else
    match e with
    | .elsewhere y => x.goesOn (sessionStep base direct x.session (.elsewhere y))
    | .clientRead decrypted turns =>
      x.goesOn (sessionStep base direct x.session (.clientRead decrypted turns))
    | .clientAlarm => retryAlarm base direct x
    | .clientFails err =>
      { x with session := { x.session with client := failConnection x.session.client err } }
    | .clientClose => retryClientClose x
    | .dcConnected => x.goesOn (sessionStep base direct x.session .dcConnected)
    | .dcRead raw decrypted turns =>
      x.goesOn (sessionStep base direct x.session (.dcRead raw decrypted turns))
    | .dcAlarm => x.goesOn (sessionStep base direct x.session .dcAlarm)
    | .dcFails err =>
      { x with
        session := { x.session with dc := x.session.dc.map fun d => failConnection d err } }
    | .dcClose =>
      match x.session.dc with
      | some d => if d.cError then retryDcClose base x d else x
      | none => x

end Step

/-- **The bound**: no more retries than `DIRECT_MAX_RETRIES` before the client fails or an init is
sent, and none for a client that has been closed. -/
structure RetriesBounded (x : RetryRun X) : Prop where
  bounded : x.retries ≤ DIRECT_MAX_RETRIES
  late : x.late = 0

/-- An attempt that fails is none too many: fewer than `DIRECT_MAX_RETRIES` have failed before it,
or none that a retry made has initiated a connection. -/
def Attempts.Spare (a : Attempts) : Prop := a.failed < DIRECT_MAX_RETRIES ∨ a.resumed = false

/-- **The condition**: every attempt that fails is none too many, and no connection is closed
before its init when its client has been closed. -/
def AttemptsSpare (base : ExtServerEnv X) (x : RetryRun X) (e : RetryEvent X) : Prop :=
  x.session.fault = false →
    match e with
    | .clientAlarm =>
      attemptOutcome (sessionServer base).toOutboundEnv x.session.meet = some false →
        x.attempts.Spare
    | .dcClose =>
      ∀ d, x.session.dc = some d → d.cError = true → d.extra ≠ .null → d.crypto.isSome = false →
        (x.session.client.cError = false → x.attempts.Spare) ∧ x.closed = false
    | _ => True

/-! ### What a client keeps -/

/-- What happens between two attempts leaves of a client. -/
structure ClientGoesOn {W : Type*} (c c' : Conn W) : Prop where
  crypto : c'.crypto = c.crypto
  skipBytes : c'.skipBytes = c.skipBytes ∨ c'.skipBytes = 0
  type : c'.type = c.type
  rpc : c'.rpc = c.rpc
  isJob : c'.extra.isJob = c.extra.isJob
  failed : c.cError = true → c'.cError = true

theorem ClientGoesOn.refl {W : Type*} (c : Conn W) : ClientGoesOn c c :=
  ⟨rfl, .inl rfl, rfl, rfl, rfl, id⟩

theorem ClientKept.goesOn {W : Type*} {c c' : Conn W} (h : ClientKept c c') :
    ClientGoesOn c c' := by
  rw [h.same]
  exact ⟨rfl, h.skipBytes, rfl, rfl, rfl, id⟩

theorem httpStreamUnwrapPrecrypto_world {W : Type*} (c : Conn W) :
    (httpStreamUnwrapPrecrypto c).1.world = c.world := by
  unfold httpStreamUnwrapPrecrypto
  dsimp only
  split
  · rfl
  · rfl

/-- **A call of the data centre's reader leaves its client alone**, whatever arrives. -/
theorem directDc_kept {W : Type*} (env : DirectEnv W) {decrypted : Bytes} {c : Conn (Conn W)}
    {queue : List Bytes} {turns : ℕ} {r : ReaderResult (Conn W)}
    (h : jobRun (directDcMethods env decrypted) c queue turns = .ok r) :
    ClientKept c.world r.conn.world := by
  have hrule := jobRun_leaves (m := directDcMethods env decrypted) (P := fun _ => True)
    (I := fun d => ClientKept c.world d.world) (F := fun _ => True) (c := c) (q := queue)
    (n := turns) ?_ ?_ ?_ ?_ (.refl _) (fun _ _ _ => eachTurnFor_of_forall (fun _ _ => trivial) _ _)
  · rw [h] at hrule
    exact hrule
  · intro d queue hd
    unfold readerFill
    split_ifs
    · exact hd
    · exact hd
  · intro d hd
    unfold readerDecode
    split_ifs
    · exact hd
    · have hworld := httpStreamUnwrapPrecrypto_world d
      rcases hres : httpStreamUnwrapPrecrypto d with ⟨d', res⟩
      rw [hres] at hworld
      have hd' : ClientKept c.world d'.world := by
        rw [show d'.world = d.world from hworld]
        exact hd
      dsimp only
      split_ifs
      · exact hd'
      · exact hd'
    · exact hd
  · intro d hd
    exact readerSkip_leaves (F := fun _ => True) hd (fun _ _ => hd) fun _ => trivial
  · intro d hd _ _
    cases hres : (directDcMethods env decrypted).parseExecute d with
    | error a => trivial
    | ok p =>
      obtain ⟨d', res⟩ := p
      have hcall : DcCall env d d' res := .of_parse hres
      show ClientKept c.world (storeResult d' res).world
      rw [storeResult, if_pos hcall.res]
      exact hd.trans hcall.clientKept

section Session

variable {base : ExtServerEnv X} {direct : DirectEnv X} {s : DirectSession X}

/-- **What the events without an attempt do to a client**; no connection appears behind it. -/
structure SessionGoesOn (s s' : DirectSession X) : Prop where
  client : ClientGoesOn s.client s'.client
  dc : s'.dc.isSome = true → s.dc.isSome = true

theorem SessionGoesOn.refl (s : DirectSession X) : SessionGoesOn s s := ⟨.refl _, id⟩

/-- The client is the one its data centre's connection meets. -/
theorem ClientGoesOn.of_meet {c : Conn (DcWorld X)} (h : ClientGoesOn s.meet c) :
    ClientGoesOn s.client c :=
  ⟨h.crypto, h.skipBytes, h.type, h.rpc, h.isJob, h.failed⟩

theorem sessionClientRead_goesOn (hcrypto : s.client.crypto.isSome = true)
    (hskip : s.client.skipBytes = 0) (decrypted : Bytes) (turns : ℕ) :
    SessionGoesOn s (sessionClientRead base s decrypted turns) := by
  unfold sessionClientRead
  split_ifs with hfailed
  · exact .refl s
  · have hlive : s.client.cError = false := by simpa using hfailed
    split
    · next r hr =>
      have hmoves := (directClient_reads base (c := s.meet) hcrypto hskip hlive hr).moves
      refine ⟨⟨hmoves.crypto, .inl hmoves.skipBytes, hmoves.type, hmoves.rpc, hmoves.isJob, ?_⟩, id⟩
      exact fun h => absurd h hfailed
    · exact ⟨.refl _, id⟩

theorem sessionDcRead_goesOn {d : Conn Unit} (hd : s.dc = some d) (raw decrypted : Bytes)
    (turns : ℕ) : SessionGoesOn s (sessionDcRead base direct s d raw decrypted turns) := by
  have hdc : s.dc.isSome = true := by rw [hd]; rfl
  unfold sessionDcRead
  cases d.cError with
  | true => exact .refl s
  | false =>
    rw [if_neg Bool.false_ne_true]
    split
    · next r hr =>
      have hkept : ClientKept s.meet r.conn.world := directDc_kept _ hr
      exact ⟨hkept.goesOn.of_meet, fun _ => hdc⟩
    · exact ⟨.refl _, id⟩

theorem tcpDirectDcConnected_kept {W : Type*} (env : DirectEnv W) (c : Conn (Conn W)) :
    ClientKept c.world (tcpDirectDcConnected env c).world := by
  unfold tcpDirectDcConnected
  split_ifs
  · exact .refl _
  · exact (tcpDirectDcSendObfs2Init_spec env c).1

end Session

/-! ### What a run keeps -/

/-- What holds of every run. -/
structure RetrySound (x : RetryRun X) : Prop where
  crypto : x.session.client.crypto.isSome = true
  skipBytes : x.session.client.skipBytes = 0
  inPacketNum : x.session.client.rpc.inPacketNum ≠ -3
  direct : x.session.client.cError = false → x.session.client.IsDirect
  closed : x.closed = true → x.session.client.cError = true
  dc : x.session.dc.isSome = true → x.session.client.rpc.extraInt = 0 ∧
    (x.session.client.cError = false → x.session.client.extra.isJob = true)
  retries : x.session.client.cError = false → x.retries = x.attempts.failed
  counted : x.session.client.cError = false →
    Attempts.Counted x.attempts x.session.client.extra.isJob x.session.client.rpc.extraInt

namespace RetrySound

variable {base : ExtServerEnv X} {direct : DirectEnv X} {x : RetryRun X}

/-- **A step without an attempt.** -/
theorem goesOn (h : RetrySound x) {s : DirectSession X} (hs : SessionGoesOn x.session s) :
    RetrySound (x.goesOn s) := by
  obtain ⟨hclient, hdc⟩ := hs
  have hlive (hlive : s.client.cError = false) : x.session.client.cError = false := by
    cases herror : x.session.client.cError with
    | false => rfl
    | true => exact absurd (hclient.failed herror) (by simp [hlive])
  have hsame (y : RetryRun X) (hy : y.session = s) (hclosed : y.closed = x.closed)
      (hretries : s.client.cError = false → y.retries = y.attempts.failed)
      (hcounted : s.client.cError = false →
        Attempts.Counted y.attempts s.client.extra.isJob s.client.rpc.extraInt) : RetrySound y := by
    subst hy
    refine ⟨by rw [hclient.crypto]; exact h.crypto, ?_, by rw [hclient.rpc]; exact h.inPacketNum,
      fun he => ?_, fun hc => hclient.failed (h.closed (hclosed.symm.trans hc)), fun hd => ?_,
      hretries, hcounted⟩
    · rcases hclient.skipBytes with hskip | hskip
      · exact hskip.trans h.skipBytes
      · exact hskip
    · unfold Conn.IsDirect
      rw [hclient.type]
      exact h.direct (hlive he)
    · rw [hclient.rpc, hclient.isJob]
      exact ⟨(h.dc (hdc hd)).1, fun he => (h.dc (hdc hd)).2 (hlive he)⟩
  unfold RetryRun.goesOn
  split_ifs with hinit
  · refine hsame _ rfl rfl (fun _ => rfl) fun he => ?_
    have hsome : s.dc.isSome = true := by
      cases hs : s.dc with
      | none => simp [InitDone, hs] at hinit
      | some d => rfl
    obtain ⟨hzero, hjob⟩ := h.dc (hdc hsome)
    rw [hclient.rpc, hclient.isJob, hzero, hjob (hlive he)]
    exact .linked
  · refine hsame _ rfl rfl (fun he => h.retries (hlive he)) fun he => ?_
    rw [hclient.rpc, hclient.isJob]
    exact h.counted (hlive he)

/-- **An alarm.** -/
theorem alarm (h : RetrySound x) : RetrySound (retryAlarm base direct x) := by
  have hlinks := jsAlarm_links base (c := x.session.meet) h.direct h.inPacketNum
  have hresult := jsAlarm_result (sessionServer base) (c := x.session.meet) h.direct h.inPacketNum
  have hlive (outcome : Bool)
      (ho : attemptOutcome (sessionServer base).toOutboundEnv x.session.meet = some outcome) :
      x.session.client.cError = false := live_of_attemptOutcome (c := x.session.meet) ho
  unfold retryAlarm
  dsimp only
  generalize jsAlarm (sessionServer base) x.session.meet = c' at *
  generalize attemptOutcome (sessionServer base).toOutboundEnv x.session.meet = outcome at *
  have hfailed (hc : x.closed = true) : c'.cError = true := by
    cases he : c'.cError with
    | true => rfl
    | false =>
      have hopen : x.session.client.cError = false := (hlinks.live he).1
      exact absurd (h.closed hc) (by simp [hopen])
  have hkept (hdc : (x.session.withClient (sessionDirect base direct) c').dc.isSome = true →
        c'.rpc.extraInt = 0 ∧ (c'.cError = false → c'.extra.isJob = true))
      (hcounted : c'.cError = false →
        x.countRetry x.session.meet c' = (x.attempts.record outcome).failed ∧
          Attempts.Counted (x.attempts.record outcome) c'.extra.isJob c'.rpc.extraInt) :
      RetrySound
        { x with
          session := x.session.withClient (sessionDirect base direct) c'
          attempts := x.attempts.record outcome
          retries := x.countRetry x.session.meet c' } :=
    ⟨hlinks.crypto ▸ h.crypto, hlinks.skipBytes.trans h.skipBytes,
      fun hnum => h.inPacketNum (hlinks.inPacketNum.symm.trans hnum),
      fun he => (hlinks.live he).2, hfailed, hdc, fun he => (hcounted he).1,
      fun he => (hcounted he).2⟩
  cases hresult with
  | quiet hsame hextra =>
    have hold (he : c'.cError = false) : x.session.client.cError = false := (hlinks.live he).1
    refine hkept (fun hd => ?_) fun he => ⟨?_, ?_⟩
    · rw [DirectSession.withClient_of_same _ hextra] at hd
      obtain ⟨hzero, hjob⟩ := h.dc hd
      exact ⟨hsame.trans hzero, fun he => hextra ▸ hjob (hold he)⟩
    · rw [RetryRun.countRetry_of_le hsame.le]
      exact h.retries (hold he)
    · rw [hsame, hextra]
      exact h.counted (hold he)
  | unknown hfails hclear hextra =>
    refine hkept (fun _ => ⟨hclear, fun he => ?_⟩) fun he => ?_
    · simp [hfails] at he
    · simp [hfails] at he
  | connects hextra hpos hlinked hclear =>
    have hcounted := h.counted (hlive true rfl)
    refine hkept (fun _ => ⟨hclear, fun _ => hlinked⟩) fun _ => ⟨?_, ?_⟩
    · rw [RetryRun.countRetry_of_le (hclear ▸ Nat.zero_le _)]
      exact h.retries (hlive true rfl)
    · rw [hclear, hlinked]
      rw [show x.session.client.extra = .null from hextra] at hcounted
      exact hcounted.resume hpos
  | waits hextra hless hcount hextra' =>
    have hcounted := h.counted (hlive false rfl)
    refine hkept (fun hd => ?_) fun _ => ⟨?_, ?_⟩
    · rw [DirectSession.withClient_of_same _ (hextra'.trans hextra.symm)] at hd
      exact absurd ((h.dc hd).2 (hlive false rfl))
        (by rw [show x.session.client.extra = .null from hextra]; exact Bool.false_ne_true)
    · have hnext : x.countRetry x.session.meet c' = x.retries + 1 :=
        RetryRun.countRetry_of_next (hlive false rfl) hcount
      rw [hnext, h.retries (hlive false rfl)]
      rfl
    · rw [hcount, hextra']
      exact hcounted.fail
  | givesUp hextra hmax hfails hsame hextra' =>
    refine hkept (fun hd => ?_) fun he => ?_
    · rw [DirectSession.withClient_of_same _ (hextra'.trans hextra.symm)] at hd
      exact absurd ((h.dc hd).2 (hlive false rfl))
        (by rw [show x.session.client.extra = .null from hextra]; exact Bool.false_ne_true)
    · simp [hfails] at he

/-- What an alarm schedules is within the bound exactly where its attempt is none too many. -/
theorem alarm_bounded_iff (h : RetrySound x) (hbounded : RetriesBounded x) :
    RetriesBounded (retryAlarm base direct x) ↔
      (attemptOutcome (sessionServer base).toOutboundEnv x.session.meet = some false →
        x.attempts.Spare) := by
  have hresult := jsAlarm_result (sessionServer base) (c := x.session.meet) h.direct h.inPacketNum
  have hlive (outcome : Bool)
      (ho : attemptOutcome (sessionServer base).toOutboundEnv x.session.meet = some outcome) :
      x.session.client.cError = false := live_of_attemptOutcome (c := x.session.meet) ho
  have hiff : RetriesBounded (retryAlarm base direct x) ↔
      x.countRetry x.session.meet (jsAlarm (sessionServer base) x.session.meet) ≤
        DIRECT_MAX_RETRIES :=
    ⟨RetriesBounded.bounded, fun hle => ⟨hle, hbounded.late⟩⟩
  rw [hiff]
  generalize jsAlarm (sessionServer base) x.session.meet = c' at *
  generalize attemptOutcome (sessionServer base).toOutboundEnv x.session.meet = outcome at *
  cases hresult with
  | quiet hsame hextra =>
    rw [RetryRun.countRetry_of_le hsame.le]
    exact ⟨fun _ ho => by simp at ho, fun _ => hbounded.bounded⟩
  | unknown hfails hclear hextra =>
    rw [RetryRun.countRetry_of_le (hclear ▸ Nat.zero_le _)]
    exact ⟨fun _ ho => by simp at ho, fun _ => hbounded.bounded⟩
  | connects hextra hpos hlinked hclear =>
    rw [RetryRun.countRetry_of_le (hclear ▸ Nat.zero_le _)]
    exact ⟨fun _ ho => by simp at ho, fun _ => hbounded.bounded⟩
  | waits hextra hless hcount hextra' =>
    have hnext : x.countRetry x.session.meet c' = x.retries + 1 :=
      RetryRun.countRetry_of_next (hlive false rfl) hcount
    have hretries := h.retries (hlive false rfl)
    have hspare := (h.counted (hlive false rfl)).bounded_iff (by decide : 0 < DIRECT_MAX_RETRIES)
      (hretries ▸ hbounded.bounded)
    rw [hnext, hretries]
    exact ⟨fun hle _ => hspare.mp fun _ => hle, fun hs => hspare.mpr (hs rfl) hless⟩
  | givesUp hextra hmax hfails hsame hextra' =>
    have hretries := h.retries (hlive false rfl)
    have hspare := (h.counted (hlive false rfl)).bounded_iff (by decide : 0 < DIRECT_MAX_RETRIES)
      (hretries ▸ hbounded.bounded)
    rw [RetryRun.countRetry_of_le hsame.le]
    exact ⟨fun _ _ => hspare.mp fun hless => absurd hless (not_lt.mpr hmax),
      fun _ => hbounded.bounded⟩

/-- **A connection fails**, the client's or the one behind it. -/
theorem clientFails (h : RetrySound x) (err : ℤ) :
    RetrySound
      { x with session := { x.session with client := failConnection x.session.client err } } := by
  refine ⟨h.crypto, h.skipBytes, h.inPacketNum, fun he => ?_, fun _ => rfl,
    fun hdc => ⟨(h.dc hdc).1, fun he => ?_⟩, fun he => ?_, fun he => ?_⟩
  all_goals simp [failConnection] at he

theorem dcFails (h : RetrySound x) (err : ℤ) :
    RetrySound
      { x with
        session := { x.session with dc := x.session.dc.map fun d => failConnection d err } } :=
  ⟨h.crypto, h.skipBytes, h.inPacketNum, h.direct, h.closed, fun hdc => h.dc (by simpa using hdc),
    h.retries, h.counted⟩

/-- **The client is closed.** -/
theorem clientClose (h : RetrySound x) : RetrySound (retryClientClose x) := by
  unfold retryClientClose
  split_ifs with hopen hextra
  · exact h
  all_goals
    have hfailed : x.session.client.cError = true := by
      rw [not_or] at hopen
      simpa using hopen.1
    have hnot (he : x.session.client.cError = false) : False := by simp [hfailed] at he
    refine ⟨h.crypto, h.skipBytes, h.inPacketNum, fun he => (hnot he).elim, fun _ => hfailed,
      fun hdc => ⟨(h.dc (by simpa using hdc)).1, fun he => (hnot he).elim⟩,
      fun he => (hnot he).elim, fun he => (hnot he).elim⟩

/-- **The connection to the data centre is closed.** -/
theorem dcClose (h : RetrySound x) {d : Conn Unit} (hd : x.session.dc = some d) :
    RetrySound (retryDcClose base x d) := by
  have hclear : x.session.meet.rpc.extraInt = 0 := (h.dc (by rw [hd]; rfl)).1
  unfold retryDcClose
  dsimp only
  rcases tcpDirectCloseDc_of_clear (sessionServer base).toOutboundEnv d hclear with
    ⟨hextra, heq⟩ | ⟨hextra, hcrypto, heq⟩ | ⟨hcrypto, heq⟩
  · rw [heq]
    refine ⟨h.crypto, h.skipBytes, h.inPacketNum, h.direct, h.closed, fun hdc => ?_, fun he => ?_,
      fun he => ?_⟩
    · simp at hdc
    · rw [RetryRun.countRetry_of_le le_rfl, if_neg (by simp [hextra])]
      exact h.retries he
    · rw [if_neg (by simp [hextra])]
      exact h.counted he
  · rw [heq]
    refine ⟨h.crypto, h.skipBytes, h.inPacketNum, h.direct, h.closed, fun hdc => ?_, fun he => ?_,
      fun he => ?_⟩
    · simp at hdc
    · have hlive : x.session.meet.cError = false := he
      rw [if_pos ⟨hlive, hextra, hcrypto⟩, RetryRun.countRetry_of_next hlive (by rw [hclear]; rfl),
        h.retries he]
      rfl
    · have hlive : x.session.meet.cError = false := he
      have hcounted := (h.counted he).fail
      rw [show x.session.client.rpc.extraInt = 0 from hclear] at hcounted
      rw [if_pos ⟨hlive, hextra, hcrypto⟩]
      exact hcounted
  · rw [heq]
    refine ⟨h.crypto, h.skipBytes, h.inPacketNum, fun he => ?_, fun _ => rfl, fun hdc => ?_,
      fun he => ?_, fun he => ?_⟩
    · simp [failConnection] at he
    · simp at hdc
    · simp [failConnection] at he
    · simp [failConnection] at he

/-- What that close schedules is within the bound exactly where it is the close of an open client's
attempt that is none too many. -/
theorem dcClose_bounded_iff (h : RetrySound x) (hbounded : RetriesBounded x) {d : Conn Unit}
    (hd : x.session.dc = some d) :
    RetriesBounded (retryDcClose base x d) ↔
      (d.extra ≠ .null → d.crypto.isSome = false →
        (x.session.client.cError = false → x.attempts.Spare) ∧ x.closed = false) := by
  have hclear : x.session.meet.rpc.extraInt = 0 := (h.dc (by rw [hd]; rfl)).1
  have hiff (c' : Conn (DcWorld X))
      (heq : tcpDirectCloseDc (sessionServer base).toOutboundEnv d x.session.meet = c') :
      RetriesBounded (retryDcClose base x d) ↔
        x.countRetry x.session.meet c' ≤ DIRECT_MAX_RETRIES ∧
          (if x.closed = true ∧ Schedules x.session.meet c' then x.late + 1 else x.late) = 0 := by
    subst heq
    exact ⟨fun ⟨hle, hlate⟩ => ⟨hle, hlate⟩, fun ⟨hle, hlate⟩ => ⟨hle, hlate⟩⟩
  rcases tcpDirectCloseDc_of_clear (sessionServer base).toOutboundEnv d hclear with
    ⟨hextra, heq⟩ | ⟨hextra, hcrypto, heq⟩ | ⟨hcrypto, heq⟩
  · rw [hiff _ heq, RetryRun.countRetry_of_le le_rfl, if_neg fun hs => lt_irrefl _ hs.2]
    exact ⟨fun _ hne => absurd hextra hne, fun _ => ⟨hbounded.bounded, hbounded.late⟩⟩
  · have hschedules : Schedules x.session.meet (directScheduleRetry
        (sessionServer base).toOutboundEnv { x.session.meet with extra := .null } 0) := by
      unfold Schedules
      rw [hclear]
      exact Nat.zero_lt_one
    rw [hiff _ heq]
    cases hlive : x.session.client.cError with
    | false =>
      have hlive' : x.session.meet.cError = false := hlive
      have hopen : x.closed = false := by
        cases hclosed : x.closed with
        | false => rfl
        | true => exact absurd (h.closed hclosed) (by simp [hlive])
      have hretries := h.retries hlive
      have hcounter : x.session.client.rpc.extraInt < DIRECT_MAX_RETRIES := by
        rw [show x.session.client.rpc.extraInt = 0 from hclear]
        decide
      have hspare := (h.counted hlive).bounded_iff (by decide : 0 < DIRECT_MAX_RETRIES)
        (hretries ▸ hbounded.bounded)
      rw [RetryRun.countRetry_of_next hlive' (by rw [hclear]; rfl), hretries,
        if_neg (by simp [hopen])]
      exact ⟨fun ⟨hle, _⟩ _ _ => ⟨fun _ => hspare.mp fun _ => hle, hopen⟩,
        fun hs => ⟨hspare.mpr ((hs hextra hcrypto).1 rfl) hcounter, hbounded.late⟩⟩
    | true =>
      have hfailed : x.session.meet.cError = true := hlive
      rw [RetryRun.countRetry_of_failed hfailed]
      cases hclosed : x.closed with
      | false =>
        rw [if_neg (by simp)]
        exact ⟨fun _ _ _ => ⟨fun he => by simp at he, rfl⟩,
          fun _ => ⟨hbounded.bounded, hbounded.late⟩⟩
      | true =>
        rw [if_pos ⟨rfl, hschedules⟩]
        exact ⟨fun ⟨_, hlate⟩ => absurd hlate (Nat.succ_ne_zero _),
          fun hs => by simpa using (hs hextra hcrypto).2⟩
  · have hsame : (failConnection x.session.meet (-23)).rpc.extraInt =
      x.session.meet.rpc.extraInt := rfl
    rw [hiff _ heq, RetryRun.countRetry_of_le hsame.le,
      if_neg fun hs => absurd hs.2 (not_lt.mpr hsame.le)]
    exact ⟨fun _ _ hnone => by simp [hcrypto] at hnone,
      fun _ => ⟨hbounded.bounded, hbounded.late⟩⟩

/-- An event without an attempt leaves the session with the same client. -/
theorem session_goesOn (h : RetrySound x) (hfault : x.session.fault = false)
    {e : SessionEvent X} (halarm : e ≠ .clientAlarm) (hclose : e ≠ .clientClose)
    (hdcClose : e ≠ .dcClose) :
    SessionGoesOn x.session (sessionStep base direct x.session e) := by
  unfold sessionStep
  rw [hfault, if_neg Bool.false_ne_true]
  cases e with
  | elsewhere y => exact ⟨⟨rfl, .inl rfl, rfl, rfl, rfl, id⟩, id⟩
  | clientRead decrypted turns =>
    exact sessionClientRead_goesOn h.crypto h.skipBytes decrypted turns
  | clientAlarm => exact absurd rfl halarm
  | clientClose => exact absurd rfl hclose
  | dcConnected =>
    cases hd : x.session.dc with
    | none => exact .refl _
    | some d =>
      dsimp only
      split_ifs
      · exact .refl _
      · have hkept : ClientKept x.session.meet _ :=
          tcpDirectDcConnected_kept (sessionDirect base direct) (d.over x.session.meet)
        exact ⟨hkept.goesOn.of_meet, fun _ => by rw [hd]; rfl⟩
  | dcRead raw decrypted turns =>
    cases hd : x.session.dc with
    | none => exact .refl _
    | some d => exact sessionDcRead_goesOn hd raw decrypted turns
  | dcAlarm => exact ⟨.refl _, fun hsome => by simpa using hsome⟩
  | dcClose => exact absurd rfl hdcClose

end RetrySound

/-- Such an event keeps the bound. -/
theorem RetriesBounded.goesOn {x : RetryRun X} (h : RetriesBounded x) (s : DirectSession X) :
    RetriesBounded (x.goesOn s) := by
  unfold RetryRun.goesOn
  split_ifs
  · exact ⟨Nat.zero_le _, h.late⟩
  · exact ⟨h.bounded, h.late⟩

theorem RetriesBounded.clientClose {x : RetryRun X} (h : RetriesBounded x) :
    RetriesBounded (retryClientClose x) := by
  unfold retryClientClose
  split_ifs
  all_goals exact ⟨h.bounded, h.late⟩

section Run

variable {base : ExtServerEnv X} {direct : DirectEnv X}

/-- **One step**: it keeps what a run keeps, and stays within the bound exactly where it meets
the condition. -/
theorem retryStep_sound {x : RetryRun X} (h : RetrySound x) (e : RetryEvent X) :
    RetrySound (retryStep base direct x e) ∧
      (RetriesBounded x →
        (RetriesBounded (retryStep base direct x e) ↔ AttemptsSpare base x e)) := by
  unfold retryStep AttemptsSpare
  cases hfault : x.session.fault with
  | true => exact ⟨h, fun hb => ⟨fun _ hnone => by simp at hnone, fun _ => hb⟩⟩
  | false =>
    rw [if_neg Bool.false_ne_true]
    have hplain {s : DirectSession X} (hs : SessionGoesOn x.session s) :
        RetrySound (x.goesOn s) ∧
          (RetriesBounded x → (RetriesBounded (x.goesOn s) ↔ (false = false → True))) :=
      ⟨h.goesOn hs, fun hb => ⟨fun _ _ => trivial, fun _ => hb.goesOn s⟩⟩
    cases e with
    | elsewhere y => exact hplain (h.session_goesOn hfault (by simp) (by simp) (by simp))
    | clientRead decrypted turns =>
      exact hplain (h.session_goesOn hfault (by simp) (by simp) (by simp))
    | clientAlarm =>
      exact ⟨h.alarm, fun hb => (h.alarm_bounded_iff hb).trans ⟨fun hs _ => hs, fun hs => hs rfl⟩⟩
    | clientFails err =>
      exact ⟨h.clientFails err, fun hb => ⟨fun _ _ => trivial, fun _ => ⟨hb.bounded, hb.late⟩⟩⟩
    | clientClose =>
      exact ⟨h.clientClose, fun hb => ⟨fun _ _ => trivial, fun _ => hb.clientClose⟩⟩
    | dcConnected => exact hplain (h.session_goesOn hfault (by simp) (by simp) (by simp))
    | dcRead raw decrypted turns =>
      exact hplain (h.session_goesOn hfault (by simp) (by simp) (by simp))
    | dcAlarm => exact hplain (h.session_goesOn hfault (by simp) (by simp) (by simp))
    | dcFails err =>
      exact ⟨h.dcFails err, fun hb => ⟨fun _ _ => trivial, fun _ => ⟨hb.bounded, hb.late⟩⟩⟩
    | dcClose =>
      cases hd : x.session.dc with
      | none => exact ⟨h, fun hb => ⟨fun _ _ _ hsome => by simp at hsome, fun _ => hb⟩⟩
      | some d =>
        dsimp only
        cases herror : d.cError with
        | false =>
          rw [if_neg Bool.false_ne_true]
          refine ⟨h, fun hb => ⟨fun _ _ d' hd' herror' => ?_, fun _ => hb⟩⟩
          obtain rfl := Option.some.inj hd'
          simp [herror] at herror'
        | true =>
          rw [if_pos rfl]
          refine ⟨h.dcClose hd, fun hb => (h.dcClose_bounded_iff hb hd).trans ?_⟩
          constructor
          · intro hs _ d' hd' _
            obtain rfl := Option.some.inj hd'
            exact hs
          · exact fun hs => hs rfl d rfl herror

/-- **A run begins well.** -/
theorem startRetries_sound {c : Conn (DcWorld X)} (h : AtSession c) (hfresh : c.rpc.extraInt = 0) :
    RetrySound (startRetries base direct c) ∧ RetriesBounded (startRetries base direct c) := by
  have hs := SessionSound.start base direct h
  have hclient : (startSession base direct c).client =
      directConnectToDc (sessionServer base).toOutboundEnv c := rfl
  have hbounded : RetriesBounded (startRetries base direct c) := by
    refine ⟨?_, rfl⟩
    unfold startRetries
    dsimp only
    split_ifs
    · decide
    · decide
  refine ⟨?_, hbounded⟩
  have hdc (hsome : (startSession base direct c).dc.isSome = true) :
      (startSession base direct c).client.extra.isJob = true := hs.linked hsome
  rw [hclient] at hdc
  have hkept (hclear : (startSession base direct c).dc.isSome = true →
        (directConnectToDc (sessionServer base).toOutboundEnv c).rpc.extraInt = 0)
      (hcounted : (directConnectToDc (sessionServer base).toOutboundEnv c).cError = false →
        (startRetries base direct c).retries = (startRetries base direct c).attempts.failed ∧
          Attempts.Counted (startRetries base direct c).attempts
            (directConnectToDc (sessionServer base).toOutboundEnv c).extra.isJob
            (directConnectToDc (sessionServer base).toOutboundEnv c).rpc.extraInt) :
      RetrySound (startRetries base direct c) :=
    ⟨hs.crypto, hs.skipBytes, hs.inPacketNum, hs.direct, fun hc => by simp [startRetries] at hc,
      fun hsome => ⟨hclear hsome, fun _ => hdc hsome⟩, fun he => (hcounted he).1,
      fun he => (hcounted he).2⟩
  unfold startRetries at hkept ⊢
  dsimp only at hkept ⊢
  rcases directConnectToDc_cases (sessionServer base).toOutboundEnv c with
    ⟨hunknown, hfails, hrpc⟩ | ⟨hknown, hnone, herror, hone, hextra⟩ | ⟨hsome, herror, hrpc, hjob⟩
  · refine hkept (fun _ => hrpc ▸ hfresh) fun he => ?_
    simp [hfails] at he
  · refine hkept (fun hd => ?_) fun he => ?_
    · have hjob := hdc hd
      rw [hextra, h.extra] at hjob
      simp at hjob
    · have hschedules : Schedules c (directConnectToDc (sessionServer base).toOutboundEnv c) := by
        unfold Schedules
        rw [hfresh, hone]
        exact Nat.zero_lt_one
      rw [if_pos ⟨herror.symm.trans he, hschedules⟩, if_pos ⟨hknown, hnone⟩, hextra, h.extra, hone]
      exact ⟨rfl, .waiting 1⟩
  · refine hkept (fun _ => hrpc ▸ hfresh) fun he => ?_
    have hsame : ¬ Schedules c (directConnectToDc (sessionServer base).toOutboundEnv c) := by
      unfold Schedules
      rw [hrpc]
      exact lt_irrefl _
    rw [if_neg fun hs => hsame hs.2, if_neg fun hs => hsome hs.2, hjob, hrpc, hfresh]
    exact ⟨rfl, .linked⟩

/-- **main statement**: whatever order the reads, alarms, failures and closes of a client and its
data centre's connections come in, no more than `DIRECT_MAX_RETRIES` retries are scheduled before
the client fails or an init is sent, and none for a client that has been closed, exactly where no
attempt fails when that many have failed and a retry has initiated a connection among them, and
where no connection without a cipher outlives its client. -/
theorem retryRun_bounded_iff (base : ExtServerEnv X) (direct : DirectEnv X)
    (c : Conn (DcWorld X)) (h : AtSession c) (hfresh : c.rpc.extraInt = 0)
    (es : List (RetryEvent X)) :
    Throughout (retryStep base direct) RetriesBounded (startRetries base direct c) es ↔
      Along (retryStep base direct) (AttemptsSpare base) (startRetries base direct c) es := by
  obtain ⟨hsound, hbounded⟩ : RetrySound (startRetries base direct c) ∧
      RetriesBounded (startRetries base direct c) := startRetries_sound h hfresh
  refine throughout_iff_along (I := RetrySound) (R := fun _ _ => True)
    (fun x e hx _ => (retryStep_sound hx e).1)
    (fun x e hx _ hb => (retryStep_sound hx e).2 hb) hsound hbounded ?_
  exact along_of_throughout (Q := fun _ => True) (fun _ _ _ => trivial)
    (throughout_of_step (fun _ _ _ => trivial) trivial)

end Run

/-! ### A client whose connections fail before their init -/

/-- A connection fails. -/
def failsOnce : List (RetryEvent Unit) := [.dcFails (-200), .dcClose]

/-- Four connections fail one after the other. -/
def fourFailures : List (RetryEvent Unit) :=
  failsOnce ++ .clientAlarm :: failsOnce ++ .clientAlarm :: failsOnce ++ .clientAlarm :: failsOnce

/-- A client is closed, and the connection without a cipher behind it after it. -/
def closedFirst : List (RetryEvent Unit) := [.clientFails (-1), .clientClose, .dcClose]

/-- One failure, a retry, and the init. -/
theorem retryRun_bounded_once :
    Throughout (retryStep reachableServer readyDirect) RetriesBounded
      (startRetries reachableServer readyDirect acceptedClient)
      [.dcFails (-200), .dcClose, .clientAlarm, .dcConnected] := by
  refine (retryRun_bounded_iff _ _ acceptedClient ⟨rfl, rfl, rfl, rfl⟩ rfl _).mpr
    ⟨fun _ => trivial, fun _ d _ _ _ _ => ⟨fun _ => .inl ?_, rfl⟩, fun _ ho => ?_,
      fun _ => trivial, trivial⟩
  · decide
  · exact absurd ho (by decide)

/-- A fourth retry is scheduled. -/
theorem fourFailures_retries :
    (finish (retryStep reachableServer readyDirect)
      (startRetries reachableServer readyDirect acceptedClient) fourFailures).retries = 4 := by
  decide

/-- A retry is scheduled for the client that has been closed. -/
theorem closedFirst_late :
    (finish (retryStep reachableServer readyDirect)
      (startRetries reachableServer readyDirect acceptedClient) closedFirst).late = 1 := by
  decide

/-- So neither half of the bound holds of every run. -/
theorem retryRun_not_bounded :
    (¬ ∀ (c : Conn (DcWorld Unit)) (es : List (RetryEvent Unit)), AtSession c →
        c.rpc.extraInt = 0 →
        Throughout (retryStep reachableServer readyDirect)
          (fun x => x.retries ≤ DIRECT_MAX_RETRIES)
          (startRetries reachableServer readyDirect c) es) ∧
      ¬ ∀ (c : Conn (DcWorld Unit)) (es : List (RetryEvent Unit)), AtSession c →
        c.rpc.extraInt = 0 →
        Throughout (retryStep reachableServer readyDirect) (fun x => x.late = 0)
          (startRetries reachableServer readyDirect c) es := by
  constructor
  · intro h
    have hle := (h acceptedClient fourFailures ⟨rfl, rfl, rfl, rfl⟩ rfl).finish
    rw [fourFailures_retries] at hle
    exact absurd hle (by decide)
  · intro h
    have hzero := (h acceptedClient closedFirst ⟨rfl, rfl, rfl, rfl⟩ rfl).finish
    rw [closedFirst_late] at hzero
    exact absurd hzero (by decide)

end Server
end Teleproto3
