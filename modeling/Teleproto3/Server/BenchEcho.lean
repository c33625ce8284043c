/-
# The echo of the bench handler

`bench-handler.c` and `bench-session.c`: after the header a bench client sends a byte for its mode,
and in the mode of an echo the server frames back what follows.  `bench_drain_connection` takes what
there is 8192 bytes at a time and hands it to `bench_handler_recv`, which puts what fits into an
output buffer of 4096 bytes and returns how much that was.  In the mode of an echo the fetch is
limited to the room in the buffer, but before the mode byte is read the mode is not known.

`benchEcho_iff` says when nothing is lost.  The build is one with `TELEPROTO3_BENCH`; the registry
of the sessions is left out, and a client has the session that `bench_session_lookup` finds for it.
-/

import Teleproto3.Server.OutputFraming

namespace Teleproto3
namespace Server

open Lib Wire Client

/-! ### The handler -/

/-- `BENCH_MODE_SINK`. -/
def BENCH_MODE_SINK : UInt8 := 0x01

/-- `BENCH_MODE_ECHO`. -/
def BENCH_MODE_ECHO : UInt8 := 0x02

/-- `BENCH_MODE_SOURCE`. -/
def BENCH_MODE_SOURCE : UInt8 := 0x03

/-- `BENCH_OUT_CAP`. -/
def BENCH_OUT_CAP : ℕ := 4096

/-- `BENCH_SOURCE_MAX`. -/
def BENCH_SOURCE_MAX : ℕ := 64 * 2 ^ 20

/-- `BENCH_RC_SOURCE_DONE`. -/
def BENCH_RC_SOURCE_DONE : ℤ := -100

/-- `bench_conn_t`, with the fields of its `bench_state`.  Of `source_len_buf` and `out_buf` it has
the bytes that have been written. -/
structure BenchConn where
  mode : UInt8
  initialised : Bool
  modeByteSeen : Bool
  sourceLenPending : ℕ
  sourceLenBuf : Bytes
  lengthDecoded : Bool
  bytesProcessed : ℕ
  sourceRemaining : ℕ
  outBuf : Bytes
  deriving DecidableEq, Repr

/-- A session as `bench_handler_init` leaves it. -/
def BenchConn.init : BenchConn := ⟨0, true, false, 0, [], false, 0, 0, []⟩

/-- `bench_stats_t`. -/
structure BenchStats where
  sinkBytes : ℕ
  echoBytes : ℕ
  sourceBytes : ℕ
  deriving DecidableEq, Repr

/-- What the handler and the loops of `bench_drain_connection` work on. -/
structure Bench (W : Type*) where
  /-- `g_bench_handler_enabled` -/
  enabled : Bool
  stats : BenchStats
  sess : BenchConn
  conn : Conn W
  /-- what has gone from `c->out` to the socket -/
  sent : Bytes

/-- What the handler calls. -/
structure BenchEnv (W : Type*) where
  /-- `bench_csprng` -/
  csprng : W → ℕ → Option Bytes × W
  /-- how much `writev` takes in `bench_flush_out_to_socket`; nothing where `fcntl` fails -/
  flush : W → Bytes → Option ℕ × W

variable {W : Type*}

/-- `out_push`, and what it returns. -/
def outPush (outBuf src : Bytes) : Bytes × ℕ :=
  let n := min src.length (BENCH_OUT_CAP - outBuf.length)
  (outBuf ++ src.take n, n)

/-- A counter of 64 bits. -/
def addU64 (x n : ℕ) : ℕ := (x + n) % 2 ^ 64

section Handler

variable (env : BenchEnv W)

/-- One turn of the loop that emits: 1024 bytes at most. -/
def emitTurn (x : Bytes × W × ℕ) : Turn (Bytes × W × ℕ) (Bytes × W × Bool) :=
  if x.2.2 = 0 then .done (x.1, x.2.1, true)
  else
    match env.csprng x.2.1 (min x.2.2 1024) with
    | (none, world) => .done (x.1, world, false)
    | (some tmp, world) => .again ((outPush x.1 tmp).1, world, x.2.2 - min x.2.2 1024)

theorem emitTurn_shrinks : Shrinks (emitTurn env) fun x => x.2.2 := by
  intro x x' h
  unfold emitTurn at h
  split at h
  · cases h
  next h0 =>
    split at h
    · cases h
    · injection h with h
      rw [← h]
      show x.2.2 - min x.2.2 1024 < x.2.2
      omega

/-- The bytes of the generator up to what is to be emitted. -/
def emitLoop (outBuf : Bytes) (world : W) (toEmit : ℕ) : Bytes × W × Bool :=
  loop (emitTurn env) _ (emitTurn_shrinks env) (outBuf, world, toEmit)

/-- The emission, at the end of the case of a source. -/
def benchEmit (b : Bench W) : ℤ × Bench W :=
  let toEmit := min b.sess.sourceRemaining (BENCH_OUT_CAP - b.sess.outBuf.length)
  if toEmit = 0 then (0, b)
  else
    match emitLoop env b.sess.outBuf b.conn.world toEmit with
    | (outBuf, world, false) =>
      (-2, { b with
        sess := { b.sess with outBuf := outBuf }
        conn := { b.conn with world := world } })
    | (outBuf, world, true) =>
      let left := b.sess.sourceRemaining - toEmit
      (if left = 0 then BENCH_RC_SOURCE_DONE else toEmit,
        { b with
          stats := { b.stats with sourceBytes := addU64 b.stats.sourceBytes toEmit }
          sess := { b.sess with
            outBuf := outBuf
            sourceRemaining := left
            bytesProcessed := addU64 b.sess.bytesProcessed toEmit }
          conn := { b.conn with world := world } })

/-- The case of a source: four bytes for a length, and then as many bytes of the generator's. -/
def benchSource (b : Bench W) (p : Bytes) : ℤ × Bench W :=
  let k := min b.sess.sourceLenPending p.length
  let sess := { b.sess with
    sourceLenBuf := b.sess.sourceLenBuf ++ p.take k
    sourceLenPending := b.sess.sourceLenPending - k }
  if sess.sourceLenPending > 0 then (0, { b with sess := sess })
  else if sess.lengthDecoded then benchEmit env { b with sess := sess }
  else
    let n := readLe32 sess.sourceLenBuf
    if n > BENCH_SOURCE_MAX then (-1003, { b with sess := sess })
    else
      let sess := { sess with sourceRemaining := n, lengthDecoded := true }
      if n = 0 then (BENCH_RC_SOURCE_DONE, { b with sess := sess })
      else benchEmit env { b with sess := sess }

/-- The cases of `bench_handler_recv`. -/
def benchMode (b : Bench W) (p : Bytes) : ℤ × Bench W :=
  if b.sess.mode = BENCH_MODE_SINK then
    (p.length, { b with
      stats := { b.stats with sinkBytes := addU64 b.stats.sinkBytes p.length }
      sess := { b.sess with bytesProcessed := addU64 b.sess.bytesProcessed p.length } })
  else if b.sess.mode = BENCH_MODE_ECHO then
    let (outBuf, written) := outPush b.sess.outBuf p
    (written, { b with
      stats := { b.stats with echoBytes := addU64 b.stats.echoBytes written }
      sess := { b.sess with
        outBuf := outBuf
        bytesProcessed := addU64 b.sess.bytesProcessed written } })
  else if b.sess.mode = BENCH_MODE_SOURCE then benchSource env b p
  else (-1003, b)

/-- A source that has bytes left to emit. -/
def BenchConn.Emits (s : BenchConn) : Prop :=
  s.modeByteSeen = true ∧ s.mode = BENCH_MODE_SOURCE ∧ s.sourceLenPending = 0 ∧
    s.sourceRemaining > 0

instance (s : BenchConn) : Decidable s.Emits := inferInstanceAs (Decidable (_ ∧ _ ∧ _ ∧ _))

/-- `bench_handler_recv`. -/
def benchHandlerRecv (b : Bench W) (data : Bytes) : ℤ × Bench W :=
  if b.sess.initialised = false then (-1, b)
  else if b.enabled = false then (-1, b)
  else if data = [] ∧ ¬ b.sess.Emits then (0, b)
  else if b.sess.modeByteSeen then benchMode env b data
  else
    let m := data.getD 0 0
    if m ≠ BENCH_MODE_SINK ∧ m ≠ BENCH_MODE_ECHO ∧ m ≠ BENCH_MODE_SOURCE then (-1003, b)
    else
      benchMode env { b with sess := { b.sess with
        mode := m
        modeByteSeen := true
        sourceLenPending := if m = BENCH_MODE_SOURCE then 4 else 0 } } (data.drop 1)

/-! ### The connection -/

/-- The output buffer goes into a frame. -/
def benchFrameOut (b : Bench W) : Bench W :=
  if b.sess.outBuf.length > 0 then
    { b with
      conn := b.conn.putOut (wsWriteFrameHeader b.sess.outBuf.length ++ b.sess.outBuf)
      sess := { b.sess with outBuf := [] } }
  else b

/-- `bench_emit_ws_close`. -/
def benchEmitWsClose (b : Bench W) (statusCode : ℕ) : Bench W :=
  { b with conn := b.conn.putOut ([0x88, 0x02] ++ beBytes 2 statusCode) }

/-- `bench_flush_out_to_socket`. -/
def benchFlushOutToSocket (b : Bench W) : Bench W :=
  if b.conn.out = [] then b
  else
    match env.flush b.conn.world b.conn.out with
    | (none, world) => { b with conn := { b.conn with world := world } }
    | (some n, world) =>
      { b with
        conn := { b.conn with world := world, out := [] }
        sent := b.sent ++ b.conn.out.take n }

/-- How a loop of `bench_drain_connection` ends. -/
inductive BenchExit (W : Type*)
  | leave (b : Bench W)
  /-- the session is destroyed, and the caller closes the connection -/
  | close (b : Bench W)

/-- What the end of a source has in its wake. -/
def benchSourceDone (b : Bench W) : BenchExit W :=
  .close (benchFlushOutToSocket env (benchEmitWsClose (benchFrameOut b) 1000))

/-- How many bytes are fetched, unless the output buffer is full. -/
def benchFetch (sess : BenchConn) (totalBytes : ℕ) : Option ℕ :=
  let n := min totalBytes 8192
  if sess.modeByteSeen = true ∧ sess.mode = BENCH_MODE_ECHO then
    let availOut := BENCH_OUT_CAP - sess.outBuf.length
    if availOut = 0 then none else some (min n availOut)
  else some n

/-- What is done with the answer of the handler to a fetch. -/
def benchAnswer (r : ℤ × Bench W) : Turn (Bench W) (BenchExit W) :=
  if r.1 = BENCH_RC_SOURCE_DONE then .done (benchSourceDone env r.2)
  else if r.1 = -1003 then .done (.close (benchEmitWsClose r.2 1003))
  else if r.1 < 0 then .done (.close r.2)
  else .again (benchFrameOut r.2)

/-- One turn of the loop that pulls the bytes out of `c->in`. -/
def benchPullTurn (b : Bench W) : Turn (Bench W) (BenchExit W) :=
  if b.conn.inp = [] then .done (.leave b)
  else
    match benchFetch b.sess b.conn.inp.length with
    | none => .done (.leave b)
    | some n =>
      benchAnswer env (benchHandlerRecv env { b with conn := b.conn.skipData n }
        (b.conn.inp.take n))

/-- One turn of the loop that goes on with a source. -/
def benchContinueTurn (b : Bench W) : Turn (Bench W) (BenchExit W) :=
  if ¬ b.sess.Emits then .done (.leave b)
  else
    let r := benchHandlerRecv env b []
    if r.1 = BENCH_RC_SOURCE_DONE then .done (benchSourceDone env r.2)
    else if r.1 < 0 then .done (.close r.2)
    else .again (benchFrameOut r.2)

/-! ### The loops end -/

/-- Of a connection the handler changes the world only. -/
def WorldOnly (c c' : Conn W) : Prop := ∃ world, c' = { c with world := world }

theorem WorldOnly.refl (c : Conn W) : WorldOnly c c := ⟨c.world, rfl⟩

theorem benchEmit_conn (b : Bench W) : WorldOnly b.conn (benchEmit env b).2.conn := by
  unfold benchEmit
  dsimp only
  split
  · exact WorldOnly.refl _
  · split <;> exact ⟨_, rfl⟩

theorem benchSource_conn (b : Bench W) (p : Bytes) :
    WorldOnly b.conn (benchSource env b p).2.conn := by
  unfold benchSource
  dsimp only
  split
  · exact WorldOnly.refl _
  · split
    · exact benchEmit_conn env _
    · split
      · exact WorldOnly.refl _
      · split
        · exact WorldOnly.refl _
        · exact benchEmit_conn env _

theorem benchMode_conn (b : Bench W) (p : Bytes) :
    WorldOnly b.conn (benchMode env b p).2.conn := by
  unfold benchMode
  dsimp only
  split
  · exact WorldOnly.refl _
  · split
    · exact WorldOnly.refl _
    · split
      · exact benchSource_conn env b p
      · exact WorldOnly.refl _

theorem benchHandlerRecv_conn (b : Bench W) (data : Bytes) :
    WorldOnly b.conn (benchHandlerRecv env b data).2.conn := by
  unfold benchHandlerRecv
  dsimp only
  split
  · exact WorldOnly.refl _
  · split
    · exact WorldOnly.refl _
    · split
      · exact WorldOnly.refl _
      · split
        · exact benchMode_conn env b data
        · split
          · exact WorldOnly.refl _
          · exact benchMode_conn env _ _

/-- The handler takes nothing out of `c->in`. -/
theorem benchHandlerRecv_inp (b : Bench W) (data : Bytes) :
    (benchHandlerRecv env b data).2.conn.inp = b.conn.inp := by
  obtain ⟨world, hconn⟩ := benchHandlerRecv_conn env b data
  rw [hconn]

theorem benchFrameOut_inp (b : Bench W) : (benchFrameOut b).conn.inp = b.conn.inp := by
  unfold benchFrameOut
  split <;> rfl

theorem benchAnswer_again {r : ℤ × Bench W} {b : Bench W} (h : benchAnswer env r = .again b) :
    ¬ r.1 < 0 ∧ benchFrameOut r.2 = b := by
  unfold benchAnswer at h
  split at h
  · cases h
  · split at h
    · cases h
    · split at h
      · cases h
      next hret =>
        injection h with h
        exact ⟨hret, h⟩

theorem benchFetch_pos {sess : BenchConn} {total n : ℕ} (htotal : 0 < total)
    (h : benchFetch sess total = some n) : 0 < n := by
  unfold benchFetch at h
  dsimp only at h
  split at h
  · split at h
    · cases h
    · injection h with h
      omega
  · injection h with h
    omega

/-- Each turn takes some bytes. -/
theorem benchPullTurn_shrinks : Shrinks (benchPullTurn env) fun b => b.conn.inp.length := by
  intro b b' h
  unfold benchPullTurn at h
  split at h
  · cases h
  next hin =>
    split at h
    · cases h
    next n hfetch =>
      have hlength : 0 < b.conn.inp.length := List.length_pos_iff.mpr hin
      have hn := benchFetch_pos hlength hfetch
      obtain ⟨-, hb'⟩ := benchAnswer_again env h
      show b'.conn.inp.length < b.conn.inp.length
      rw [← hb', benchFrameOut_inp, benchHandlerRecv_inp, Conn.skipData_inp, List.length_drop]
      omega

/-- What the loop that goes on with a source has left. -/
def continueMeasure (s : BenchConn) : ℕ :=
  (if s.lengthDecoded then 0 else 2 * BENCH_SOURCE_MAX + 2) + 2 * s.sourceRemaining +
    if s.outBuf.length < BENCH_OUT_CAP then 0 else 1

theorem benchFrameOut_sess (b : Bench W) :
    (benchFrameOut b).sess = { b.sess with outBuf := [] } := by
  unfold benchFrameOut
  split
  · rfl
  next h =>
    have hout : b.sess.outBuf = [] := List.length_eq_zero_iff.mp (by omega)
    rw [← hout]

/-- An emission that does not fail makes the buffer full or has something behind it. -/
theorem benchEmit_measure {b : Bench W} (hret : ¬ (benchEmit env b).1 < 0)
    (hleft : 0 < b.sess.sourceRemaining) :
    2 * (benchEmit env b).2.sess.sourceRemaining <
        2 * b.sess.sourceRemaining + (if b.sess.outBuf.length < BENCH_OUT_CAP then 0 else 1) ∧
      (benchEmit env b).2.sess.lengthDecoded = b.sess.lengthDecoded := by
  unfold benchEmit at hret ⊢
  dsimp only at hret ⊢
  split at hret
  next h0 =>
    rw [if_pos h0]
    refine ⟨?_, rfl⟩
    have hfull : ¬ b.sess.outBuf.length < BENCH_OUT_CAP := by omega
    rw [if_neg hfull]
    exact Nat.lt_succ_self _
  next h0 =>
    rw [if_neg h0]
    split at hret
    · exact absurd (show (-2 : ℤ) < 0 by decide) hret
    · exact ⟨by dsimp only; omega, rfl⟩

/-- A source whose length has been read goes on with it. -/
theorem benchSource_nil {b : Bench W} (hpending : b.sess.sourceLenPending = 0) :
    benchSource env b [] =
      if b.sess.lengthDecoded then benchEmit env b
      else if readLe32 b.sess.sourceLenBuf > BENCH_SOURCE_MAX then (-1003, b)
      else
        let sess := { b.sess with
          sourceRemaining := readLe32 b.sess.sourceLenBuf, lengthDecoded := true }
        if readLe32 b.sess.sourceLenBuf = 0 then (BENCH_RC_SOURCE_DONE, { b with sess := sess })
        else benchEmit env { b with sess := sess } := by
  have hk : min b.sess.sourceLenPending ([] : Bytes).length = 0 := Nat.min_zero _
  unfold benchSource
  simp only [hk, List.take_zero, List.append_nil, Nat.sub_zero]
  rw [if_neg (by omega)]

/-- Going on with a source makes the measure smaller. -/
theorem benchSource_measure {b : Bench W} (hemits : b.sess.Emits)
    (hret : ¬ (benchSource env b []).1 < 0) :
    continueMeasure { (benchSource env b []).2.sess with outBuf := [] } <
      continueMeasure b.sess := by
  have hzero : continueMeasure { (benchSource env b []).2.sess with outBuf := [] } =
      (if (benchSource env b []).2.sess.lengthDecoded then 0 else 2 * BENCH_SOURCE_MAX + 2) +
        2 * (benchSource env b []).2.sess.sourceRemaining := by
    unfold continueMeasure
    rw [if_pos (show ([] : Bytes).length < BENCH_OUT_CAP by decide)]
    rfl
  rw [hzero]
  unfold continueMeasure
  rw [benchSource_nil env hemits.2.2.1] at hret ⊢
  split at hret
  next hdecoded =>
    rw [if_pos hdecoded]
    obtain ⟨hleft, hsame⟩ := benchEmit_measure env hret hemits.2.2.2
    rw [hsame]
    omega
  next hdecoded =>
    rw [if_neg hdecoded]
    split at hret
    · exact absurd (show (-1003 : ℤ) < 0 by decide) hret
    next hmax =>
      rw [if_neg hmax]
      dsimp only at hret ⊢
      split at hret
      · exact absurd (show BENCH_RC_SOURCE_DONE < 0 by decide) hret
      next hn =>
        rw [if_neg hn]
        obtain ⟨hleft, hsame⟩ := benchEmit_measure env hret (Nat.pos_of_ne_zero hn)
        rw [hsame, if_pos rfl, if_neg hdecoded]
        dsimp only at hleft
        omega

/-- A source with bytes to emit is asked for them. -/
theorem benchHandlerRecv_emits {b : Bench W} (hemits : b.sess.Emits)
    (hret : ¬ (benchHandlerRecv env b []).1 < 0) :
    benchHandlerRecv env b [] = benchSource env b [] := by
  unfold benchHandlerRecv at hret ⊢
  split at hret
  · exact absurd (show (-1 : ℤ) < 0 by decide) hret
  next hinit =>
    rw [if_neg hinit]
    split at hret
    · exact absurd (show (-1 : ℤ) < 0 by decide) hret
    next henabled =>
      have hgo : ¬ (([] : Bytes) = [] ∧ ¬ b.sess.Emits) := fun h => h.2 hemits
      rw [if_neg henabled, if_neg hgo, if_pos hemits.1]
      unfold benchMode
      rw [hemits.2.1]
      rfl

/-- Each turn that goes on with a source emits, or has the buffer made empty. -/
theorem benchContinueTurn_shrinks : Shrinks (benchContinueTurn env)
    fun b => continueMeasure b.sess := by
  intro b b' h
  unfold benchContinueTurn at h
  split at h
  · cases h
  next hnot =>
    have hemits : b.sess.Emits := not_not.mp hnot
    dsimp only at h
    split at h
    · cases h
    · split at h
      · cases h
      next hret =>
        injection h with h
        show continueMeasure b'.sess < continueMeasure b.sess
        have hrecv := benchHandlerRecv_emits env hemits hret
        rw [hrecv] at h hret
        rw [← h, benchFrameOut_sess]
        exact benchSource_measure env hemits hret

/-- The loop that pulls the bytes out of `c->in`. -/
def benchPull (b : Bench W) : BenchExit W :=
  loop (benchPullTurn env) _ (benchPullTurn_shrinks env) b

/-- The loop that goes on with a source. -/
def benchContinue (b : Bench W) : BenchExit W :=
  loop (benchContinueTurn env) _ (benchContinueTurn_shrinks env) b

/-- A connection of a bench client. -/
structure BenchClient (W : Type*) where
  enabled : Bool
  stats : BenchStats
  /-- what `bench_session_lookup` finds -/
  session : Option BenchConn
  conn : Conn W
  sent : Bytes

/-- What a drain leaves of its client. -/
def Bench.client (b : Bench W) (session : Option BenchConn) : BenchClient W :=
  ⟨b.enabled, b.stats, session, b.conn, b.sent⟩

/-- `bench_drain_connection`. -/
def benchDrainConnection (k : BenchClient W) : ℤ × BenchClient W :=
  match k.session with
  | none => (-1, k)
  | some sess =>
    match benchPull env ⟨k.enabled, k.stats, sess, k.conn, k.sent⟩ with
    | .close b => (-1, b.client none)
    | .leave b =>
      match benchContinue env b with
      | .close b => (-1, b.client none)
      | .leave b => (0, b.client (some b.sess))

/-! ### The echo -/

/-- A session in the mode of an echo, whose output is in frames. -/
structure Echoing (s : BenchConn) : Prop where
  initialised : s.initialised = true
  modeByteSeen : s.modeByteSeen = true
  mode : s.mode = BENCH_MODE_ECHO
  outBuf : s.outBuf = []

/-- What has gone out behind `before` is frames that carry `payload`. -/
def FramedBack (before : Bytes) (sent out payload : Bytes) : Prop :=
  ∃ ps : List Bytes, sent ++ out = before ++ ps.flatMap (Framing.frame .ws) ∧
    (∀ p ∈ ps, p.length ≤ Framing.maxPiece) ∧ ps.flatten = payload

/-- One frame more. -/
theorem FramedBack.push {before sent out payload p : Bytes} (h : FramedBack before sent out payload)
    (hp : p.length ≤ Framing.maxPiece) :
    FramedBack before sent (out ++ Framing.frame .ws p) (payload ++ p) := by
  obtain ⟨ps, hout, hps, hflat⟩ := h
  refine ⟨ps ++ [p], ?_, ?_, ?_⟩
  · rw [← List.append_assoc, hout, List.flatMap_append, List.flatMap_singleton,
      List.append_assoc]
  · intro q hq
    rw [List.mem_append, List.mem_singleton] at hq
    rcases hq with hq | rfl
    · exact hps q hq
    · exact hp
  · rw [List.flatten_append, hflat, List.flatten_singleton]

/-- The bytes of an echo that fit go into a frame. -/
theorem framedBack_frameOut {before : Bytes} {b : Bench W} {payload : Bytes}
    (h : FramedBack before b.sent b.conn.out payload)
    (hout : b.sess.outBuf.length ≤ BENCH_OUT_CAP) :
    FramedBack before (benchFrameOut b).sent (benchFrameOut b).conn.out
      (payload ++ b.sess.outBuf) := by
  unfold benchFrameOut
  split
  · exact h.push (hout.trans (by decide))
  next hempty =>
    have hnil : b.sess.outBuf = [] := List.length_eq_zero_iff.mp (by omega)
    rw [hnil, List.append_nil]
    exact h


/-- What the case of an echo leaves. -/
def Bench.echoed (b : Bench W) (p : Bytes) : Bench W :=
  let written := (outPush b.sess.outBuf p).2
  { b with
    stats := { b.stats with echoBytes := addU64 b.stats.echoBytes written }
    sess := { b.sess with
      outBuf := (outPush b.sess.outBuf p).1
      bytesProcessed := addU64 b.sess.bytesProcessed written } }

theorem benchMode_echo {b : Bench W} (hmode : b.sess.mode = BENCH_MODE_ECHO) (p : Bytes) :
    benchMode env b p = (((outPush b.sess.outBuf p).2 : ℤ), b.echoed p) := by
  have hsink : ¬ b.sess.mode = BENCH_MODE_SINK := by
    rw [hmode]
    decide
  unfold benchMode
  rw [if_neg hsink, if_pos hmode]
  rfl

theorem benchAnswer_ofNat (n : ℕ) (b : Bench W) :
    benchAnswer env (n, b) = .again (benchFrameOut b) := by
  have hdone : ¬ (n : ℤ) = BENCH_RC_SOURCE_DONE := by
    unfold BENCH_RC_SOURCE_DONE
    omega
  have hmode : ¬ (n : ℤ) = -1003 := by omega
  have hneg : ¬ (n : ℤ) < 0 := by omega
  unfold benchAnswer
  rw [if_neg hdone, if_neg hmode, if_neg hneg]

/-- What is pushed into an empty buffer. -/
theorem outPush_nil (p : Bytes) : (outPush [] p).1 = p.take BENCH_OUT_CAP := by
  show p.take (min p.length BENCH_OUT_CAP) = _
  rw [List.take_eq_take_iff]
  omega

/-- A bench client in the mode of an echo: what has gone out is what has been taken in. -/
structure EchoSoFar (before total : Bytes) (b : Bench W) : Prop where
  enabled : b.enabled = true
  echoing : Echoing b.sess
  framed : ∃ done, FramedBack before b.sent b.conn.out done ∧ done ++ b.conn.inp = total

/-- The echo of `p`, in a frame, with what is behind it still to come. -/
theorem EchoSoFar.frameOut {before done p rest : Bytes} {b : Bench W} (henabled : b.enabled = true)
    (hinit : b.sess.initialised = true) (hseen : b.sess.modeByteSeen = true)
    (hmode : b.sess.mode = BENCH_MODE_ECHO) (hempty : b.sess.outBuf = [])
    (hout : FramedBack before b.sent b.conn.out done) (hin : b.conn.inp = rest) :
    EchoSoFar before (done ++ p.take BENCH_OUT_CAP ++ rest) (benchFrameOut (b.echoed p)) where
  enabled := by
    unfold benchFrameOut
    split <;> exact henabled
  echoing := by
    rw [benchFrameOut_sess]
    exact ⟨hinit, hseen, hmode, rfl⟩
  framed := by
    have hbuf : (b.echoed p).sess.outBuf = p.take BENCH_OUT_CAP := by
      rw [← outPush_nil p, ← hempty]
      rfl
    refine ⟨done ++ p.take BENCH_OUT_CAP, ?_, ?_⟩
    · rw [← hbuf]
      refine framedBack_frameOut hout ?_
      rw [hbuf]
      exact List.length_take_le _ _
    · rw [benchFrameOut_inp, ← hin]
      rfl

/-- In the mode of an echo no more is fetched than there is room for. -/
theorem benchFetch_echoing {sess : BenchConn} (h : Echoing sess) (total : ℕ) :
    benchFetch sess total = some (min (min total 8192) BENCH_OUT_CAP) := by
  unfold benchFetch
  dsimp only
  rw [if_pos ⟨h.modeByteSeen, h.mode⟩, h.outBuf, if_neg (by decide)]
  rfl

/-- Behind the mode byte the handler is its cases. -/
theorem benchHandlerRecv_seen {b : Bench W} (henabled : b.enabled = true)
    (hinit : b.sess.initialised = true) (hseen : b.sess.modeByteSeen = true) {data : Bytes}
    (hdata : data ≠ []) : benchHandlerRecv env b data = benchMode env b data := by
  have hsome : ¬ (data = [] ∧ ¬ b.sess.Emits) := fun h => hdata h.1
  unfold benchHandlerRecv
  rw [hinit, henabled, if_neg (by decide), if_neg (by decide), if_neg hsome, if_pos hseen]

/-- A turn in the mode of an echo. -/
theorem EchoSoFar.turn {before total : Bytes} {b : Bench W} (h : EchoSoFar before total b) :
    (b.conn.inp = [] ∧ benchPullTurn env b = .done (.leave b)) ∨
      ∃ b', benchPullTurn env b = .again b' ∧ EchoSoFar before total b' := by
  obtain ⟨done, hout, htotal⟩ := h.framed
  unfold benchPullTurn
  by_cases hin : b.conn.inp = []
  · rw [if_pos hin]
    exact .inl ⟨hin, rfl⟩
  right
  rw [if_neg hin]
  have hlength : 0 < b.conn.inp.length := List.length_pos_iff.mpr hin
  have hn : 0 < min (min b.conn.inp.length 8192) BENCH_OUT_CAP := by
    unfold BENCH_OUT_CAP
    omega
  rw [benchFetch_echoing h.echoing]
  dsimp only
  generalize hmin : min (min b.conn.inp.length 8192) BENCH_OUT_CAP = n at hn
  have hcap : n ≤ BENCH_OUT_CAP := hmin ▸ Nat.min_le_right _ _
  have hdata : b.conn.inp.take n ≠ [] := by
    intro hnil
    rcases List.take_eq_nil_iff.mp hnil with h0 | h0
    · omega
    · exact hin h0
  have hrecv := benchHandlerRecv_seen env (b := { b with conn := b.conn.skipData n }) h.enabled
    h.echoing.initialised h.echoing.modeByteSeen hdata
  have htake : (b.conn.inp.take n).take BENCH_OUT_CAP = b.conn.inp.take n := by
    rw [List.take_take, Nat.min_eq_right hcap]
  rw [hrecv, benchMode_echo env (b := { b with conn := b.conn.skipData n }) h.echoing.mode,
    benchAnswer_ofNat]
  refine ⟨_, rfl, ?_⟩
  have hnext := EchoSoFar.frameOut (b := { b with conn := b.conn.skipData n })
    (p := b.conn.inp.take n) h.enabled h.echoing.initialised h.echoing.modeByteSeen
    h.echoing.mode h.echoing.outBuf hout rfl
  rw [htake, List.append_assoc, Conn.skipData_inp, List.take_append_drop, htotal] at hnext
  exact hnext

/-- The loop takes everything in, in the mode of an echo. -/
theorem EchoSoFar.pull {before total : Bytes} {b : Bench W} (h : EchoSoFar before total b) :
    ∃ b', benchPull env b = .leave b' ∧ EchoSoFar before total b' ∧ b'.conn.inp = [] := by
  refine loop_inv (I := EchoSoFar before total)
    (Q := fun r => ∃ b', r = .leave b' ∧ EchoSoFar before total b' ∧ b'.conn.inp = [])
    (benchPullTurn_shrinks env) ?_ ?_ h
  · intro b b' h hb
    rcases h.turn env with ⟨-, hdone⟩ | ⟨b'', hagain, h'⟩
    · rw [hdone] at hb
      cases hb
    · rw [hagain] at hb
      injection hb with hb
      exact hb ▸ h'
  · intro b r h hb
    rcases h.turn env with ⟨hin, hdone⟩ | ⟨b'', hagain, h'⟩
    · rw [hdone] at hb
      injection hb with hb
      exact ⟨b, hb.symm, h, hin⟩
    · rw [hagain] at hb
      cases hb

/-- A session of which the mode byte has been read, and nothing else. -/
def BenchConn.echo : BenchConn :=
  { BenchConn.init with mode := BENCH_MODE_ECHO, modeByteSeen := true }

/-- The handler reads the mode byte of an echo. -/
theorem benchHandlerRecv_modeByte {b : Bench W} (henabled : b.enabled = true)
    (hsess : b.sess = BenchConn.init) (p : Bytes) :
    benchHandlerRecv env b (BENCH_MODE_ECHO :: p) =
      benchMode env { b with sess := BenchConn.echo } p := by
  have hsome : ¬ (BENCH_MODE_ECHO :: p = [] ∧ ¬ BenchConn.init.Emits) :=
    fun h => List.cons_ne_nil _ _ h.1
  unfold benchHandlerRecv
  rw [hsess, henabled, if_neg (by decide), if_neg (by decide), if_neg hsome, if_neg (by decide)]
  rfl

/-- **The first turn.**  Of what is fetched behind the mode byte as much is echoed as the output
buffer takes, and the rest is lost. -/
theorem benchPullTurn_first {before done rest : Bytes} {b : Bench W} (henabled : b.enabled = true)
    (hsess : b.sess = BenchConn.init) (hin : b.conn.inp = BENCH_MODE_ECHO :: rest)
    (hout : FramedBack before b.sent b.conn.out done) :
    ∃ b', benchPullTurn env b = .again b' ∧
      EchoSoFar before (done ++ rest.take BENCH_OUT_CAP ++ rest.drop 8191) b' := by
  have hne : ¬ b.conn.inp = [] := by
    rw [hin]
    exact List.cons_ne_nil _ _
  have hfetch : benchFetch b.sess b.conn.inp.length = some (min rest.length 8191 + 1) := by
    have hn : min (rest.length + 1) 8192 = min rest.length 8191 + 1 := by omega
    unfold benchFetch
    rw [hsess, hin, if_neg (by decide), List.length_cons, hn]
  have hdrop : b.conn.inp.drop (min rest.length 8191 + 1) = rest.drop 8191 := by
    rw [hin, List.drop_succ_cons]
    rcases le_total rest.length 8191 with hle | hle
    · rw [Nat.min_eq_left hle, List.drop_length, List.drop_of_length_le hle]
    · rw [Nat.min_eq_right hle]
  have htake : b.conn.inp.take (min rest.length 8191 + 1) = BENCH_MODE_ECHO :: rest.take 8191 := by
    have hmin : rest.take (min rest.length 8191) = rest.take 8191 := by
      rw [List.take_eq_take_iff]
      omega
    rw [hin, List.take_succ_cons, hmin]
  unfold benchPullTurn
  rw [if_neg hne, hfetch]
  dsimp only
  rw [htake]
  have hrecv := benchHandlerRecv_modeByte env
    (b := { b with conn := b.conn.skipData (min rest.length 8191 + 1) }) henabled hsess
    (rest.take 8191)
  rw [hrecv, benchMode_echo env (b := { b with
    conn := b.conn.skipData (min rest.length 8191 + 1), sess := BenchConn.echo }) rfl,
    benchAnswer_ofNat]
  refine ⟨_, rfl, ?_⟩
  have hcap : (rest.take 8191).take BENCH_OUT_CAP = rest.take BENCH_OUT_CAP := by
    rw [List.take_take]
    rfl
  have hnext := EchoSoFar.frameOut (b := { b with
    conn := b.conn.skipData (min rest.length 8191 + 1), sess := BenchConn.echo })
    (p := rest.take 8191) henabled rfl rfl rfl rfl hout hdrop
  rw [hcap] at hnext
  exact hnext

/-- A client in the mode of an echo between two reads. -/
structure BetweenReads (before payload : Bytes) (k : BenchClient W) : Prop where
  enabled : k.enabled = true
  session : ∃ sess, k.session = some sess ∧ Echoing sess
  framed : FramedBack before k.sent k.conn.out payload
  taken : k.conn.inp = []

/-- A drain in the mode of an echo, from any turn on. -/
theorem EchoSoFar.drain {before total : Bytes} {k : BenchClient W} {sess : BenchConn}
    {b : Bench W} (hsession : k.session = some sess)
    (hpull : benchPull env ⟨k.enabled, k.stats, sess, k.conn, k.sent⟩ = benchPull env b)
    (h : EchoSoFar before total b) :
    ∃ k', benchDrainConnection env k = (0, k') ∧ BetweenReads before total k' := by
  obtain ⟨b', hleave, h', hin⟩ := h.pull env
  have hemits : ¬ b'.sess.Emits := by
    intro hemits
    have hmode := h'.echoing.mode.symm.trans hemits.2.1
    exact absurd hmode (by decide)
  have hcontinue : benchContinue env b' = .leave b' := by
    refine loop_of_done (benchContinueTurn_shrinks env) ?_
    unfold benchContinueTurn
    rw [if_pos hemits]
  obtain ⟨done, hout, htotal⟩ := h'.framed
  have hdone : done = total := by
    rw [← htotal, hin, List.append_nil]
  unfold benchDrainConnection
  rw [hsession]
  dsimp only
  rw [hpull, hleave]
  dsimp only
  rw [hcontinue]
  exact ⟨_, rfl, h'.enabled, ⟨_, rfl, h'.echoing⟩, hdone ▸ hout, hin⟩

/-- What happens to a bench client's connection. -/
inductive BenchEvent
  /-- a read, and the drain that follows it -/
  | receive (segment : Bytes)
  /-- the socket takes some of `c->out` -/
  | written (n : ℕ)

/-- What a read brings. -/
def BenchEvent.segment : BenchEvent → Bytes
  | .receive segment => segment
  | .written _ => []

/-- A read.  Where the drain returns -1 the connection is failed and what is left in `c->in` is
skipped. -/
def benchReceive (k : BenchClient W) (segment : Bytes) : BenchClient W :=
  let r := benchDrainConnection env
    { k with conn := { k.conn with inp := k.conn.inp ++ segment } }
  if r.1 < 0 then { r.2 with conn := { failConnection r.2.conn (-1) with inp := [] } }
  else r.2

/-- One event. -/
def benchStep (k : BenchClient W) : BenchEvent → BenchClient W
  | .receive segment => benchReceive env k segment
  | .written n =>
    { k with
      conn := { k.conn with out := k.conn.out.drop n }
      sent := k.sent ++ k.conn.out.take n }

/-- What a client sends. -/
def received (es : List BenchEvent) : Bytes := es.flatMap BenchEvent.segment

/-- The first read that brings something. -/
def firstRead (es : List BenchEvent) : Bytes :=
  ((es.map BenchEvent.segment).find? fun seg => seg ≠ []).getD []

/-- A client as `bench_session_install` leaves it: the header has been taken out of `c->in`, and
what was behind it counts as the first read. -/
def BenchClient.installed (c : Conn W) (stats : BenchStats) (sent : Bytes) : BenchClient W :=
  ⟨true, stats, some BenchConn.init, { c with inp := [] }, sent⟩

/-- **The payload is framed back**: behind what had gone out before there are frames, and they carry
the payload, in order and nothing else. -/
def EchoedBack (before : Bytes) (k : BenchClient W) (payload : Bytes) : Prop :=
  ∃ framed ps, k.sent ++ k.conn.out = before ++ framed ∧
    Deframes (Framing.parse .ws) framed ps ∧ ps.flatten = payload

/-- Frames that carry one payload carry no other. -/
theorem FramedBack.echoedBack_iff {before payload : Bytes} {k : BenchClient W}
    (h : FramedBack before k.sent k.conn.out payload) (payload' : Bytes) :
    EchoedBack before k payload' ↔ payload' = payload := by
  obtain ⟨ps, hout, hps, hflat⟩ := h
  have hdeframes : Deframes (Framing.parse .ws) (ps.flatMap (Framing.frame .ws)) ps :=
    deframes_flatMap fun p hp => Framing.reads .ws (hps p hp)
  constructor
  · rintro ⟨framed, qs, hout', hqs, hflat'⟩
    have hsame : framed = ps.flatMap (Framing.frame .ws) :=
      List.append_cancel_left (hout'.symm.trans hout)
    rw [hsame] at hqs
    rw [← hflat', ← hflat, hqs.unique (Framing.parse_nil .ws) hdeframes]
  · rintro rfl
    exact ⟨_, ps, hout, hdeframes, hflat⟩

/-- A read in the mode of an echo. -/
theorem BetweenReads.receive {before payload : Bytes} {k : BenchClient W}
    (h : BetweenReads before payload k) (segment : Bytes) :
    BetweenReads before (payload ++ segment) (benchReceive env k segment) := by
  obtain ⟨sess, hsession, hecho⟩ := h.session
  have hstart : EchoSoFar before (payload ++ segment)
      (⟨k.enabled, k.stats, sess, { k.conn with inp := k.conn.inp ++ segment },
        k.sent⟩ : Bench W) :=
    ⟨h.enabled, hecho, payload, h.framed, by rw [h.taken, List.nil_append]⟩
  obtain ⟨k', hdrain, hk'⟩ := hstart.drain env
    (k := { k with conn := { k.conn with inp := k.conn.inp ++ segment } }) hsession rfl
  unfold benchReceive
  rw [hdrain, if_neg (lt_irrefl (0 : ℤ))]
  exact hk'

/-- The socket takes some of what has gone out. -/
theorem BetweenReads.written {before payload : Bytes} {k : BenchClient W}
    (h : BetweenReads before payload k) (n : ℕ) :
    BetweenReads before payload (benchStep env k (.written n)) where
  enabled := h.enabled
  session := h.session
  framed := by
    obtain ⟨ps, hout, hps⟩ := h.framed
    refine ⟨ps, ?_, hps⟩
    rw [← hout, benchStep, List.append_assoc, List.take_append_drop]
  taken := h.taken

/-- **In the mode of an echo every read is echoed.** -/
theorem BetweenReads.run {before payload : Bytes} {k : BenchClient W}
    (h : BetweenReads before payload k) (es : List BenchEvent) :
    BetweenReads before (payload ++ received es) (finish (benchStep env) k es) := by
  induction es generalizing payload k with
  | nil =>
    show BetweenReads before (payload ++ []) k
    rw [List.append_nil]
    exact h
  | cons e es ih =>
    rw [finish_cons, received, List.flatMap_cons, ← List.append_assoc]
    cases e with
    | receive segment => exact ih (h.receive env segment)
    | written n =>
      show BetweenReads before (payload ++ [] ++ received es) _
      rw [List.append_nil]
      exact ih (h.written env n)

/-- A client whose mode byte has not come. -/
structure AwaitsMode (before : Bytes) (k : BenchClient W) : Prop where
  enabled : k.enabled = true
  session : k.session = some BenchConn.init
  out : k.sent ++ k.conn.out = before
  taken : k.conn.inp = []

/-- A read that brings nothing. -/
theorem AwaitsMode.nothing {before : Bytes} {k : BenchClient W} (h : AwaitsMode before k) :
    benchReceive env k [] = k := by
  have hin : ({ k with conn := { k.conn with inp := k.conn.inp ++ [] } } : BenchClient W) = k := by
    rw [List.append_nil]
  have hpull (b : Bench W) (hb : b.conn.inp = []) : benchPull env b = .leave b := by
    refine loop_of_done (benchPullTurn_shrinks env) ?_
    unfold benchPullTurn
    rw [if_pos hb]
  have hcontinue (b : Bench W) (hb : b.sess = BenchConn.init) :
      benchContinue env b = .leave b := by
    refine loop_of_done (benchContinueTurn_shrinks env) ?_
    unfold benchContinueTurn
    rw [hb, if_pos (by decide)]
  have hdrain : benchDrainConnection env k = (0, k) := by
    unfold benchDrainConnection
    rw [h.session]
    dsimp only
    rw [hpull _ h.taken]
    dsimp only
    rw [hcontinue _ rfl]
    have hsame :
        (⟨k.enabled, k.stats, some BenchConn.init, k.conn, k.sent⟩ : BenchClient W) = k := by
      rw [← h.session]
    exact congrArg (Prod.mk (0 : ℤ)) hsame
  unfold benchReceive
  rw [hin, hdrain, if_neg (lt_irrefl (0 : ℤ))]

/-- The read that brings the mode byte. -/
theorem AwaitsMode.receive {before : Bytes} {k : BenchClient W} (h : AwaitsMode before k)
    (rest : Bytes) :
    BetweenReads before (rest.take BENCH_OUT_CAP ++ rest.drop 8191)
      (benchReceive env k (BENCH_MODE_ECHO :: rest)) := by
  have hnothing : FramedBack before k.sent k.conn.out [] := by
    refine ⟨[], ?_, by simp, rfl⟩
    rw [h.out, List.flatMap_nil, List.append_nil]
  obtain ⟨b', hagain, hb'⟩ := benchPullTurn_first env
    (b := ⟨k.enabled, k.stats, BenchConn.init,
      { k.conn with inp := k.conn.inp ++ BENCH_MODE_ECHO :: rest }, k.sent⟩)
    h.enabled rfl (by rw [h.taken, List.nil_append]) hnothing
  obtain ⟨k', hdrain, hk'⟩ := hb'.drain env
    (k := { k with conn := { k.conn with inp := k.conn.inp ++ BENCH_MODE_ECHO :: rest } })
    h.session (loop_of_again (benchPullTurn_shrinks env) hagain)
  unfold benchReceive
  rw [hdrain, if_neg (lt_irrefl (0 : ℤ))]
  exact hk'

/-- **What is framed back in a run**: the payload, but for what the first read brings beyond the
output buffer. -/
theorem AwaitsMode.run {before payload : Bytes} {k : BenchClient W} (h : AwaitsMode before k)
    (es : List BenchEvent) (hecho : received es = BENCH_MODE_ECHO :: payload) :
    ∃ rest later, firstRead es = BENCH_MODE_ECHO :: rest ∧ payload = rest ++ later ∧
      BetweenReads before (rest.take BENCH_OUT_CAP ++ rest.drop 8191 ++ later)
        (finish (benchStep env) k es) := by
  induction es generalizing k with
  | nil => exact absurd hecho (List.cons_ne_nil _ _).symm
  | cons e es ih =>
    cases e with
    | receive segment =>
      cases segment with
      | nil =>
        obtain ⟨rest, later, hfirst, hrest⟩ := ih (k := benchReceive env k [])
          (by rw [h.nothing env]; exact h) hecho
        exact ⟨rest, later, hfirst, hrest⟩
      | cons m rest =>
        have hm : m :: (rest ++ received es) = BENCH_MODE_ECHO :: payload := hecho
        injection hm with hm hpayload
        subst hm
        exact ⟨rest, received es, rfl, hpayload.symm, (h.receive env rest).run env es⟩
    | written n =>
      have hwritten : AwaitsMode before (benchStep env k (.written n)) :=
        ⟨h.enabled, h.session, by
          rw [← h.out, benchStep, List.append_assoc, List.take_append_drop], h.taken⟩
      exact ih hwritten hecho

/-- **When the echo is the payload.**  Whatever a client in the mode of an echo sends, in whatever
reads, the bytes behind the mode byte are framed back exactly if the first read that brings
something has at most 4097 of them, the mode byte included. -/
theorem benchEcho_iff (c : Conn W) (stats : BenchStats) (sent : Bytes) (es : List BenchEvent)
    (payload : Bytes) (hecho : received es = BENCH_MODE_ECHO :: payload) :
    EchoedBack (sent ++ c.out) (finish (benchStep env) (.installed c stats sent) es) payload ↔
      (firstRead es).length ≤ BENCH_OUT_CAP + 1 := by
  have hstart : AwaitsMode (sent ++ c.out) (.installed c stats sent) := ⟨rfl, rfl, rfl, rfl⟩
  obtain ⟨rest, later, hfirst, hpayload, hrun⟩ := hstart.run env es hecho
  rw [hrun.framed.echoedBack_iff, hfirst, hpayload, List.length_cons, Nat.add_le_add_iff_right]
  constructor
  · intro h
    have hsame : rest = rest.take BENCH_OUT_CAP ++ rest.drop 8191 := List.append_cancel_right h
    have hlength := congrArg List.length hsame
    rw [List.length_append, List.length_take, List.length_drop] at hlength
    unfold BENCH_OUT_CAP at hlength ⊢
    omega
  · intro hle
    have hdrop : rest.length ≤ 8191 := hle.trans (by decide)
    rw [List.take_of_length_le hle, List.drop_of_length_le hdrop, List.append_nil]

end Handler

/-- A generator of zeros, and a socket that takes what it is given. -/
def sampleBench : BenchEnv Unit where
  csprng := fun w n => (some (List.replicate n 0), w)
  flush := fun w out => (some out.length, w)

/-- The mode byte in a read of its own, and then three bytes. -/
def sampleEcho : List BenchEvent := [.receive [BENCH_MODE_ECHO], .written 3, .receive [7, 8, 9]]

theorem benchEcho_iff_sample :
    received sampleEcho = BENCH_MODE_ECHO :: [7, 8, 9] ∧
      EchoedBack ([] ++ sampleUnanswered.out)
        (finish (benchStep sampleBench) (.installed sampleUnanswered ⟨0, 0, 0⟩ []) sampleEcho)
        [7, 8, 9] :=
  ⟨rfl, (benchEcho_iff sampleBench sampleUnanswered ⟨0, 0, 0⟩ [] sampleEcho [7, 8, 9] rfl).mpr
    (by decide)⟩

/-- A first read of the mode byte and 4097 bytes, of which the last is lost. -/
theorem benchEcho_lost :
    ¬ EchoedBack [] (finish (benchStep sampleBench)
      (.installed sampleUnanswered ⟨0, 0, 0⟩ [])
      [.receive (BENCH_MODE_ECHO :: List.replicate 4097 0)]) (List.replicate 4097 0) := by
  have hstart : AwaitsMode [] (.installed sampleUnanswered ⟨0, 0, 0⟩ [] : BenchClient Unit) :=
    ⟨rfl, rfl, rfl, rfl⟩
  have hread := hstart.receive sampleBench (List.replicate 4097 0)
  intro hechoed
  have hsame := congrArg List.length ((hread.framed.echoedBack_iff _).mp hechoed)
  rw [List.length_append, List.length_take, List.length_drop, List.length_replicate] at hsame
  unfold BENCH_OUT_CAP at hsame
  omega

end Server
end Teleproto3
