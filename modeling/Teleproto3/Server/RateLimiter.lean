/-
# The rate limit of an address

The token bucket of `struct tracked_ip`, which all connections of an address share:
`rate_bucket_refill`, `rate_limit_after_relay` and `rate_limit_resume` of
`server/src/net/net-tcp-rpc-ext-server.c`, and what a relay of `net-tcp-direct-dc.c` makes of
them.

A relay is counted when it has happened.  Where it overdraws the bucket its connection stops
reading until the debt is paid back, though for no longer than five seconds: a connection that
relays more than it may in that time does so every five seconds (`rateBound_fiveSeconds`).  What
is promised is `rate_bounded`, for runs in which nothing else moves the timer of a connection that
has been paused.
-/

import Teleproto3.Lib.Pacing
import Teleproto3.Lib.Runs
import Teleproto3.Server.Alarm
import Teleproto3.Server.Surroundings

namespace Teleproto3
namespace Server

open Lib

/-! ### The bucket -/

/-- `tokens` and `last_refill_time` of `struct tracked_ip`. -/
structure TokenBucket where
  tokens : ℤ
  lastRefillTime : ℚ
  deriving DecidableEq, Repr

/-- `rate_bucket_refill`.  The time is exact. -/
def rateBucketRefill (tip : TokenBucket) (preciseNow : ℚ) (effRate : ℤ) : TokenBucket :=
  let elapsed := preciseNow - tip.lastRefillTime
  if elapsed > 0 then
    let refill := ⌊elapsed * effRate⌋
    { tokens := if tip.tokens + refill > effRate then effRate else tip.tokens + refill
      lastRefillTime := preciseNow }
  else tip

/-- The delay after which reading goes on. -/
def rateDelay (tokens effRate : ℤ) : ℚ :=
  let delay := (-tokens : ℚ) / effRate
  let delay := if delay < 1 / 1000 then 1 / 1000 else delay
  if delay > 5 then 5 else delay

/-- `rate_limit_after_relay` on the bucket it has found, with the delay it asks for. -/
def rateLimitAfterRelay (effRate : ℤ) (tip : TokenBucket) (preciseNow : ℚ) (bytes : ℕ) :
    TokenBucket × Option ℚ :=
  let tip := rateBucketRefill tip preciseNow effRate
  let tip := { tip with tokens := tip.tokens - bytes }
  (tip, if tip.tokens < 0 then some (rateDelay tip.tokens effRate) else none)

section Bucket

variable {tip : TokenBucket} {now : ℚ} {effRate : ℤ}

/-- **What a refill adds.** -/
theorem rateBucketRefill_spec (hlast : tip.lastRefillTime ≤ now) (hcap : tip.tokens ≤ effRate) :
    (rateBucketRefill tip now effRate).lastRefillTime = now ∧
      (rateBucketRefill tip now effRate).tokens ≤ effRate ∧
      ((rateBucketRefill tip now effRate).tokens : ℚ) ≤
        tip.tokens + effRate * (now - tip.lastRefillTime) := by
  unfold rateBucketRefill
  dsimp only
  by_cases helapsed : now - tip.lastRefillTime > 0
  · rw [if_pos helapsed]
    have hfloor := Int.floor_le ((now - tip.lastRefillTime) * (effRate : ℚ))
    refine ⟨rfl, ?_, ?_⟩
    · dsimp only
      split_ifs <;> omega
    · have hsum : ((tip.tokens + ⌊(now - tip.lastRefillTime) * (effRate : ℚ)⌋ : ℤ) : ℚ) ≤
          tip.tokens + effRate * (now - tip.lastRefillTime) := by
        push_cast
        linarith
      dsimp only
      split_ifs with hover
      · have hless : (effRate : ℚ) ≤
            ((tip.tokens + ⌊(now - tip.lastRefillTime) * (effRate : ℚ)⌋ : ℤ) : ℚ) := by
          exact_mod_cast hover.le
        exact hless.trans hsum
      · exact hsum
  · rw [if_neg helapsed]
    have hnow : tip.lastRefillTime = now := le_antisymm hlast (by linarith)
    refine ⟨hnow, hcap, ?_⟩
    rw [hnow, sub_self, mul_zero, add_zero]

/-- A pause is no shorter than the debt, up to five seconds. -/
theorem pauseAfter_le_rateDelay (tokens effRate : ℤ) :
    pauseAfter effRate 5 tokens ≤ rateDelay tokens effRate := by
  unfold pauseAfter rateDelay
  dsimp only
  split_ifs with hshort hcap hcap
  · exact min_le_right _ _
  · exact (min_le_left _ _).trans hshort.le
  · exact min_le_right _ _
  · exact min_le_left _ _

end Bucket

/-! ### The connections -/

/-- Whether a connection reads, and its timer. -/
structure Pausing where
  stopRead : Bool
  timer : Option ℚ
  deriving DecidableEq, Repr

/-- A connection's part in it. -/
def Conn.pausing {W : Type*} (c : Conn W) : Pausing := ⟨c.cStopRead, c.timer⟩

/-- After a relay. -/
def Pausing.after (p : Pausing) (preciseNow : ℚ) : Option ℚ → Pausing
  | none => p
  | some delay => ⟨true, some (preciseNow + delay)⟩

/-- A relay of so many bytes. -/
def relayOn (effRate : ℤ) (preciseNow : ℚ) (tip : TokenBucket) (p : Pausing) (bytes : ℕ) :
    TokenBucket × Pausing :=
  ((rateLimitAfterRelay effRate tip preciseNow bytes).1,
    p.after preciseNow (rateLimitAfterRelay effRate tip preciseNow bytes).2)

/-- The world of the connections of an address: the time, the bucket, and the rest. -/
structure LimitWorld (X : Type*) where
  clock : ℚ
  bucket : TokenBucket
  rest : X

variable {X : Type*}

/-- The surroundings of the clients of an address that is tracked. -/
def limitedServer (effRate : ℤ) (base : ExtServerEnv X) : ExtServerEnv (LimitWorld X) :=
  { base.lift LimitWorld.rest (fun w x => { w with rest := x }) with
    preciseNow := LimitWorld.clock
    rateLimitAfterRelay := fun w _ _ n =>
      ((rateLimitAfterRelay effRate w.bucket w.clock n).2,
        { w with bucket := (rateLimitAfterRelay effRate w.bucket w.clock n).1 }) }

/-- The surroundings of their data centres' connections. -/
def limitedDirect (effRate : ℤ) (base : ExtServerEnv X) (direct : DirectEnv X) :
    DirectEnv (LimitWorld X) :=
  direct.lift LimitWorld.rest (fun w x => { w with rest := x })
    (limitedServer effRate base).toOutboundEnv

/-- **What a call can do** to the bucket and its connection: nothing, or what a relay does. -/
def Limits (effRate : ℤ) (w w' : LimitWorld X) (p p' : Pausing) (bytes : ℕ) : Prop :=
  w'.clock = w.clock ∧
    ((w'.bucket, p') = (w.bucket, p) ∨
      (w'.bucket, p') = relayOn effRate w.clock w.bucket p bytes)

theorem Limits.unmoved {effRate : ℤ} {w w' : LimitWorld X} {p p' : Pausing} {bytes : ℕ}
    (hclock : w'.clock = w.clock) (hbucket : w'.bucket = w.bucket) (hp : p' = p) :
    Limits effRate w w' p p' bytes :=
  ⟨hclock, Or.inl (by rw [hbucket, hp])⟩

/-- **A client's call.** -/
theorem tcpDirectClientParseExecute_limits {effRate : ℤ} {base : ExtServerEnv X}
    {c c' : Conn (LimitWorld X)} {res : ℤ}
    (h : tcpDirectClientParseExecute (limitedServer effRate base).toOutboundEnv c =
      .ok (c', res)) :
    Limits effRate c.world c'.world c.pausing c'.pausing c.inp.length := by
  cases ClientCall.of_parse h with
  | waits => exact .unmoved rfl rfl rfl
  | gone => exact .unmoved rfl rfl rfl
  | uncounted => exact .unmoved rfl rfl rfl
  | @refused e _ _ _ w haccount =>
    obtain rfl : _ = w := congrArg Prod.snd haccount
    exact .unmoved rfl rfl rfl
  | @relayed e _ _ _ w w' delay haccount hrate =>
    obtain rfl : _ = w := congrArg Prod.snd haccount
    obtain rfl : (rateLimitAfterRelay effRate c.world.bucket c.world.clock c.inp.length).2 = delay :=
      congrArg Prod.fst hrate
    obtain rfl : _ = w' := congrArg Prod.snd hrate
    refine ⟨?_, Or.inr ?_⟩
    · cases (rateLimitAfterRelay effRate c.world.bucket c.world.clock c.inp.length).2 <;> rfl
    · unfold relayOn
      cases (rateLimitAfterRelay effRate c.world.bucket c.world.clock c.inp.length).2 <;> rfl

/-- **A call of a data centre's connection**, which pauses that connection. -/
theorem tcpDirectDcParseExecute_limits {effRate : ℤ} {base : ExtServerEnv X} {direct : DirectEnv X}
    {c c' : Conn (Conn (LimitWorld X))} {res : ℤ} (hdone : c.rpc.extraInt = 0)
    (h : tcpDirectDcParseExecute (limitedDirect effRate base direct) c = .ok (c', res)) :
    Limits effRate c.world.world c'.world.world c.pausing c'.pausing c.inp.length := by
  cases DcCall.of_parse h with
  | greets hsocks => omega
  | rejected hsocks => omega
  | starts hsocks => omega
  | gone => exact .unmoved rfl rfl rfl
  | uncounted => exact .unmoved rfl rfl rfl
  | @refused _ _ _ w haccount =>
    obtain rfl : _ = w := congrArg Prod.snd haccount
    exact .unmoved rfl rfl rfl
  | @relayed _ e _ _ w w' delay haccount hrate =>
    obtain rfl : _ = w := congrArg Prod.snd haccount
    obtain rfl : (rateLimitAfterRelay effRate c.world.world.bucket c.world.world.clock
      c.inp.length).2 = delay := congrArg Prod.fst hrate
    obtain rfl : _ = w' := congrArg Prod.snd hrate
    refine ⟨?_, Or.inr ?_⟩
    · cases (rateLimitAfterRelay effRate c.world.world.bucket c.world.world.clock
        c.inp.length).2 <;> rfl
    · unfold relayOn
      cases (rateLimitAfterRelay effRate c.world.world.bucket c.world.world.clock
        c.inp.length).2 <;> rfl

/-- **A connection that is paused relays nothing**: no call is made for what it has received. -/
theorem cpuTcpServerReader_paused {W : Type*} (m : ReaderMethods W) {c d : Conn W}
    {queue : List Bytes} (hdecode : readerDecode m (readerFill c queue) = .ok d)
    (hstop : d.cStopRead = true) (turns : ℕ) :
    ∃ ret, cpuTcpServerReader m c queue turns = .ok ⟨d, ret, []⟩ := by
  have hfront : readerFront m c queue = (readerFlags d).bind readerSkip := by
    rw [readerFront, hdecode]
    rfl
  rw [cpuTcpServerReader, hfront, readerFlags]
  by_cases hfailed : d.cFailed ∨ d.cError ∨ d.cNetFailed
  · rw [if_pos hfailed]
    exact ⟨-1, rfl⟩
  · rw [if_neg hfailed, if_pos hstop]
    exact ⟨0, rfl⟩

/-- A connection that reads again. -/
def Conn.resumed {W : Type*} (c : Conn W) : Conn W := { c with cStopRead := false }

/-- The alarm of a connection that is paused. -/
theorem clientAlarm_resumes {W : Type*} (env : ExtServerEnv W) {c : Conn W}
    (htype : c.type = .directClient ∨ c.type = .directClientDrs) (hstop : c.cStopRead = true) :
    clientAlarm env c = c.resumed := by
  have hresume : rateLimitResume c = some c.resumed := if_pos hstop
  rw [clientAlarm]
  rcases htype with htype | htype
  · rw [htype]
    dsimp only
    unfold tcpDirectClientAlarm
    rw [hresume]
  · rw [htype]
    dsimp only
    unfold tcpRpcsExtDrsAlarm
    rw [hresume]

/-- **A pause ends with the alarm.** -/
theorem jsAlarm_resumes {W : Type*} (env : ExtServerEnv W) {c : Conn W}
    (htype : c.type = .directClient ∨ c.type = .directClientDrs) (hlive : c.cError = false)
    (hstop : c.cStopRead = true) : (jsAlarm env c).pausing = ⟨false, none⟩ := by
  rw [jsAlarm, if_neg (by rw [hlive]; exact Bool.false_ne_true)]
  rw [clientAlarm_resumes env (c := { c with timer := none }) htype hstop]
  rfl

/-! ### Runs -/

/-- The bucket of an address with the connections of its clients and of their data centres, and
what they have relayed. -/
structure RateRun where
  clock : ℚ
  bucket : TokenBucket
  conns : ℕ → Pausing
  relays : List (Spending ℕ)

/-- What can happen: time passes, a connection has bytes to relay, a timer is due, or something
else sets the timer of a connection. -/
inductive RateEvent
  | wait (t : NNRat)
  | relay (i n : ℕ)
  | alarm (i : ℕ)
  | otherTimer (i : ℕ) (delay : ℚ)

/-- The address is entered, with the tokens of one second. -/
def RateRun.start (effRate : ℤ) (preciseNow : ℚ) : RateRun :=
  ⟨preciseNow, ⟨effRate, preciseNow⟩, fun _ => ⟨false, none⟩, []⟩

/-- One step. -/
def rateStep (effRate : ℤ) (s : RateRun) : RateEvent → RateRun
  | .wait t => { s with clock := s.clock + t }
  | .relay i n =>
    if (s.conns i).stopRead ∨ n = 0 then s
    else
      let (bucket, p) := relayOn effRate s.clock s.bucket (s.conns i) n
      { s with
        bucket := bucket
        conns := Function.update s.conns i p
        relays := s.relays ++ [⟨s.clock, i, n, bucket.tokens⟩] }
  | .alarm i =>
    match (s.conns i).timer with
    | none => s
    | some t =>
      if t ≤ s.clock then { s with conns := Function.update s.conns i ⟨false, none⟩ } else s
  | .otherTimer i delay =>
    { s with
      conns := Function.update s.conns i { s.conns i with timer := some (s.clock + delay) } }

/-- Nothing else moves the timer of a connection that is paused. -/
def Undisturbed (s : RateRun) : RateEvent → Prop
  | .otherTimer i _ => (s.conns i).stopRead = false
  | _ => True

/-- The relays in an interval. -/
def relaysWithin (relays : List (Spending ℕ)) (t T : ℚ) : List (Spending ℕ) :=
  relays.filter fun a => t ≤ a.time ∧ a.time ≤ t + T

/-- **A bound for every interval**: the tokens of one second and of the interval, and so many
relays of each connection. -/
def RateBound (effRate : ℤ) (perConnection : ℚ → ℕ) (relays : List (Spending ℕ)) : Prop :=
  ∀ t T : ℚ, 0 ≤ T → ∃ rest, rest.Sublist (relaysWithin relays t T) ∧
    spent (relaysWithin relays t T) ≤ effRate + effRate * T + spent rest ∧
    ∀ i, (rest.countP fun a => a.spender = i) ≤ perConnection T

/-- The invariant of a run. -/
structure RateSound (effRate : ℤ) (s : RateRun) : Prop where
  paced : Paced effRate 5 s.relays
  refilled : s.bucket.lastRefillTime ≤ s.clock
  tokens : s.bucket.tokens ≤ effRate
  past : ∀ a ∈ s.relays, a.time ≤ s.clock
  follows : ∀ a ∈ s.relays, (s.bucket.tokens : ℚ) ≤
    a.left + effRate * (s.bucket.lastRefillTime - a.time)
  paused : ∀ a ∈ s.relays, a.left < 0 → s.clock < a.time + pauseAfter effRate 5 a.left →
    (s.conns a.spender).stopRead = true ∧
      ∀ t, (s.conns a.spender).timer = some t → a.time + pauseAfter effRate 5 a.left ≤ t

namespace RateSound

variable {effRate : ℤ} {s : RateRun}

theorem start (effRate : ℤ) (preciseNow : ℚ) : RateSound effRate (.start effRate preciseNow) :=
  ⟨⟨.nil, nofun⟩, le_rfl, le_rfl, nofun, nofun, nofun⟩

/-- A connection that reads has no debt that is not paid back. -/
theorem pause_le (h : RateSound effRate s) {a : Spending ℕ} (ha : a ∈ s.relays)
    (hreads : (s.conns a.spender).stopRead = false) (hleft : a.left < 0) :
    a.time + pauseAfter effRate 5 a.left ≤ s.clock := by
  refine le_of_not_gt fun hlt => ?_
  have hstop := (h.paused a ha hleft hlt).1
  rw [hreads] at hstop
  exact nomatch hstop

/-- The connection `i` changes, all of whose debts are paid back. -/
theorem withConn (h : RateSound effRate s) {i : ℕ} (p : Pausing)
    (hpaid : ∀ a ∈ s.relays, a.spender = i → a.left < 0 →
      a.time + pauseAfter effRate 5 a.left ≤ s.clock) :
    RateSound effRate { s with conns := Function.update s.conns i p } := by
  refine ⟨h.paced, h.refilled, h.tokens, h.past, h.follows, fun a ha hleft hlt => ?_⟩
  by_cases hi : a.spender = i
  · exact absurd hlt (not_lt.mpr (hpaid a ha hi hleft))
  · dsimp only
    rw [Function.update_of_ne hi]
    exact h.paused a ha hleft hlt

/-- Time passes. -/
theorem wait (h : RateSound effRate s) (t : NNRat) :
    RateSound effRate { s with clock := s.clock + t } := by
  have hlater : s.clock ≤ s.clock + t := le_add_of_nonneg_right t.coe_nonneg
  exact ⟨h.paced, h.refilled.trans hlater, h.tokens, fun a ha => (h.past a ha).trans hlater,
    h.follows, fun a ha hleft hlt => h.paused a ha hleft (hlater.trans_lt hlt)⟩

/-- **A relay.** -/
theorem relay (h : RateSound effRate s) {i n : ℕ} (hreads : (s.conns i).stopRead = false) :
    RateSound effRate
      { s with
        bucket := (relayOn effRate s.clock s.bucket (s.conns i) n).1
        conns := Function.update s.conns i (relayOn effRate s.clock s.bucket (s.conns i) n).2
        relays := s.relays ++ [⟨s.clock, i, n,
          (relayOn effRate s.clock s.bucket (s.conns i) n).1.tokens⟩] } := by
  obtain ⟨hlast, hcap, hgain⟩ := rateBucketRefill_spec h.refilled h.tokens
  have htip : (relayOn effRate s.clock s.bucket (s.conns i) n).1 =
      ⟨(rateBucketRefill s.bucket s.clock effRate).tokens - n, s.clock⟩ := by
    show (⟨_, (rateBucketRefill s.bucket s.clock effRate).lastRefillTime⟩ : TokenBucket) = _
    rw [hlast]
  have hconn : (relayOn effRate s.clock s.bucket (s.conns i) n).2 = (s.conns i).after s.clock
      (if (rateBucketRefill s.bucket s.clock effRate).tokens - n < 0 then
        some (rateDelay ((rateBucketRefill s.bucket s.clock effRate).tokens - n) effRate)
      else none) := rfl
  rw [htip, hconn]
  generalize (rateBucketRefill s.bucket s.clock effRate).tokens = tokens at hcap hgain
  have hbudget {a : Spending ℕ} (ha : a ∈ s.relays) :
      (tokens : ℚ) ≤ a.left + effRate * (s.clock - a.time) := by
    have hfollows := h.follows a ha
    linarith
  have hleft : (((tokens - n : ℤ) : ℚ)) + n = tokens := by
    push_cast
    ring
  refine ⟨h.paced.concat (fun a ha => ⟨h.past a ha, ?_, fun hi hdebt => ?_⟩) ?_, le_rfl, ?_,
    fun a ha => ?_, fun a ha => ?_, fun a ha hdebt hlt => ?_⟩
  · dsimp only
    rw [hleft]
    exact hbudget ha
  · exact h.pause_le ha (by rw [hi]; exact hreads) hdebt
  · dsimp only
    rw [hleft]
    exact_mod_cast hcap
  · dsimp only
    omega
  · rcases List.mem_append.mp ha with ha | ha
    · exact h.past a ha
    · rw [List.mem_singleton.mp ha]
  · rcases List.mem_append.mp ha with ha | ha
    · have hle := hbudget ha
      have hn : (0 : ℚ) ≤ n := Nat.cast_nonneg n
      dsimp only
      linarith
    · rw [List.mem_singleton.mp ha]
      dsimp only
      rw [sub_self, mul_zero, add_zero]
  · rcases List.mem_append.mp ha with ha | ha
    · by_cases hi : a.spender = i
      · exact absurd hlt (not_lt.mpr (h.pause_le ha (by rw [hi]; exact hreads) hdebt))
      · dsimp only
        rw [Function.update_of_ne hi]
        exact h.paused a ha hdebt hlt
    · rw [List.mem_singleton.mp ha] at hdebt ⊢
      have hcast : (((tokens - n : ℤ) : ℚ)) < 0 := hdebt
      have hnegative : tokens - n < 0 := by exact_mod_cast hcast
      dsimp only
      rw [Function.update_self, if_pos hnegative]
      refine ⟨rfl, fun t ht => ?_⟩
      rw [← Option.some.inj ht]
      exact add_le_add_right (pauseAfter_le_rateDelay _ _) _

/-- **One step.** -/
theorem step (h : RateSound effRate s) {e : RateEvent} (hcalm : Undisturbed s e) :
    RateSound effRate (rateStep effRate s e) := by
  cases e with
  | wait t => exact h.wait t
  | relay i n =>
    rw [rateStep]
    split_ifs with hidle
    · exact h
    · exact h.relay (Bool.eq_false_iff.mpr fun hstop => hidle (Or.inl hstop))
  | alarm i =>
    rw [rateStep]
    rcases htimer : (s.conns i).timer with _ | t
    · exact h
    · dsimp only
      split_ifs with hdue
      · refine h.withConn _ fun a ha hi hleft => le_of_not_gt fun hlt => ?_
        have hset := (h.paused a ha hleft hlt).2 t (by rw [hi, htimer])
        exact absurd (hset.trans hdue) (not_le.mpr hlt)
      · exact h
  | otherTimer i delay =>
    exact h.withConn _ fun a ha hi hleft => h.pause_le ha (by rw [hi]; exact hcalm) hleft

/-- The bound follows. -/
theorem bound (h : RateSound effRate s) (hrate : 0 < effRate) :
    RateBound effRate (fun T => 1 + ⌊T / 5⌋₊) s.relays := by
  intro t T hT
  have hwindow (a : Spending ℕ) (ha : a ∈ relaysWithin s.relays t T) :
      t ≤ a.time ∧ a.time ≤ t + T := by
    simpa using (List.mem_filter.mp ha).2
  obtain ⟨rest, hsub, hspent, hcount⟩ :=
    (h.paced.sublist List.filter_sublist).bound (Int.cast_pos.mpr hrate) (by norm_num) hT hwindow
  exact ⟨rest, hsub, hspent, hcount⟩

end RateSound

end Server
end Teleproto3
