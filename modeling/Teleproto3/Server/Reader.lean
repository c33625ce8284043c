/-
# The reader of a connection

`cpu_tcp_server_reader` of `server/src/net/net-tcp-connections.c`: what has arrived goes
into `in` or `in_u`, is decrypted or freed of its chunk framing, and is shown to
`parse_execute`, unless bytes are still to be skipped or waited for.

`skip_bytes` is one `int` for both: a negative value counts bytes to skip, a positive
one is the number of bytes `in` must hold.  All arithmetic on it wraps around.  The
reader works for every `parse_execute`, so the methods of `c->type` are a parameter; a
`parse_execute` that returns 0 for ever would keep the loop going, so the number of
turns the loop is given is one as well.
-/

import Teleproto3.Lib.Stage
import Teleproto3.Lib.Word32
import Teleproto3.Server.ChunkUnwrap

namespace Teleproto3
namespace Server

open Lib

variable {W : Type*}

/-- The methods of `c->type` that the reader calls.  An `Abort` is an assertion that
fails inside the method.  No method writes the `skip_bytes` of its own connection. -/
structure ReaderMethods (W : Type*) where
  parseExecute : Conn W → Except Abort (Conn W × ℤ)
  cryptoDecryptInput : Conn W → Except Abort (Conn W × ℤ)
  parseExecute_skipBytes : ∀ c c' res, parseExecute c = .ok (c', res) → c'.skipBytes = c.skipBytes
  cryptoDecryptInput_skipBytes :
    ∀ c c' res, cryptoDecryptInput c = .ok (c', res) → c'.skipBytes = c.skipBytes

/-- Why a call of the reader ends the process: its own call of `rwm_skip_data` fails the
assertion `bytes >= 0` of `rwm_process_ex`, or a method fails one. -/
inductive ReaderFault
  | rwmProcessEx (bytes : ℤ)
  | method (a : Abort)
  deriving DecidableEq, Repr

/-- The connection after a call of the reader, what the reader returned, and what
`parse_execute` returned each time it was called, in order. -/
structure ReaderResult (W : Type*) where
  conn : Conn W
  ret : ℤ
  results : List ℤ

/-- How a call of the reader ends. -/
abbrev ReaderExit (W : Type*) := Except ReaderFault (ReaderResult W)

/-- `raw->total_bytes`, an `int`. -/
def totalBytes (raw : Bytes) : ℤ := wrap32 raw.length

/-- The first loop: the messages of `in_queue` are appended to `in_u` or to `in`. -/
def readerFill (c : Conn W) (queue : List Bytes) : Conn W :=
  if c.crypto.isSome ∨ c.transportMode = .httpStream then { c with inU := c.inU ++ queue.flatten }
  else { c with inp := c.inp ++ queue.flatten }

/-- Decryption, or the removal of the chunk framing. -/
def readerDecode (m : ReaderMethods W) (c : Conn W) : Except (ReaderExit W) (Conn W) :=
  if c.crypto.isSome then
    match m.cryptoDecryptInput c with
    | .error a => .error (.error (.method a))
    | .ok (c, r) => if r < 0 then .error (.ok ⟨c, -1, []⟩) else .ok c
  else if c.transportMode = .httpStream then
    match httpStreamUnwrapPrecrypto c with
    | (c, r) => if r < 0 then .error (.ok ⟨c, -1, []⟩) else .ok c
  else .ok c

/-- The tests of the flags in front of the skipping. -/
def readerFlags (c : Conn W) : Except (ReaderExit W) (Conn W) :=
  if c.cFailed ∨ c.cError ∨ c.cNetFailed then .error (.ok ⟨c, -1, []⟩)
  else if c.cStopRead then .error (.ok ⟨c, 0, []⟩)
  else .ok c

/-- `r1`: how many of the `r` bytes in `in` are skipped where `s` is negative. -/
def skipNow (s r : ℤ) : ℤ := if r > wrap32 (-s) then wrap32 (-s) else r

/-- Skipping and waiting. -/
def readerSkip (c : Conn W) : Except (ReaderExit W) (Conn W) :=
  let r := totalBytes c.inp
  let s := c.skipBytes
  if s < 0 then
    let r1 := skipNow s r
    if r1 < 0 then .error (.error (.rwmProcessEx r1))
    else
      let c := { c with inp := c.inp.drop r1.toNat, skipBytes := wrap32 (s + r1) }
      if c.skipBytes ≠ 0 then .error (.ok ⟨c, 0, []⟩) else .ok c
  else if s > 0 then
    if r ≥ s then .ok { c with skipBytes := 0 } else .error (.ok ⟨c, 0, []⟩)
  else .ok c

/-- What the reader makes of a result of `parse_execute` that is neither 0 nor
`NEED_MORE_BYTES`: the value it stores in `skip_bytes`. -/
def skipAfter (c : Conn W) (res : ℤ) : ℤ :=
  let bytes := if c.crypto.isSome then totalBytes c.inp else totalBytes c.inU
  if res < 0 then wrap32 (res - bytes) else wrap32 (res + bytes)

/-- The conditions that end the last loop before `parse_execute` is called. -/
def ReaderStops (c : Conn W) : Prop :=
  c.skipBytes ≠ 0 ∨ c.cError ∨ c.cFailed ∨ c.cNetFailed ∨ c.cStopRead ∨ c.status = .error ∨
    totalBytes c.inp = 0

instance (c : Conn W) : Decidable (ReaderStops c) := by
  unfold ReaderStops
  infer_instance

/-- One turn of the last loop, with the results so far. -/
def readerTurn (m : ReaderMethods W) (s : Conn W × List ℤ) :
    Turn (Conn W × List ℤ) (ReaderExit W) :=
  let (c, results) := s
  if ReaderStops c then .done (.ok ⟨c, 0, results⟩)
  else
    match m.parseExecute c with
    | .error a => .done (.error (.method a))
    | .ok (c, res) =>
      if res = 0 then .again (c, results ++ [res])
      else if res ≠ NEED_MORE_BYTES then
        .done (.ok ⟨{ c with skipBytes := skipAfter c res }, 0, results ++ [res]⟩)
      else .done (.ok ⟨c, 0, results ++ [res]⟩)

/-- The reader up to its last loop. -/
def readerFront (m : ReaderMethods W) (c : Conn W) (queue : List Bytes) :
    Except (ReaderExit W) (Conn W) :=
  (readerDecode m (readerFill c queue)).bind fun c => (readerFlags c).bind readerSkip

/-- `cpu_tcp_server_reader` on the messages of `in_queue`, with at most `turns` turns of its
last loop. -/
def cpuTcpServerReader (m : ReaderMethods W) (c : Conn W) (queue : List Bytes) (turns : ℕ) :
    ReaderExit W :=
  match readerFront m c queue with
  | .error exit => exit
  | .ok c =>
    match loopFor (readerTurn m) turns (c, []) with
    | .done exit => exit
    | .again (c, results) => .ok ⟨c, 0, results⟩

section Turn

variable {m : ReaderMethods W} {c c' : Conn W} {results : List ℤ} {res : ℤ}

theorem readerTurn_of_stops (h : ReaderStops c) :
    readerTurn m (c, results) = .done (.ok ⟨c, 0, results⟩) := by
  simp only [readerTurn, if_pos h]

theorem readerTurn_of_abort {a : Abort} (h : ¬ ReaderStops c) (hp : m.parseExecute c = .error a) :
    readerTurn m (c, results) = .done (.error (.method a)) := by
  simp only [readerTurn, if_neg h, hp]

theorem readerTurn_of_zero (h : ¬ ReaderStops c) (hp : m.parseExecute c = .ok (c', 0)) :
    readerTurn m (c, results) = .again (c', results ++ [0]) := by
  simp only [readerTurn, if_neg h, hp, if_true]

theorem readerTurn_of_needMore (h : ¬ ReaderStops c)
    (hp : m.parseExecute c = .ok (c', NEED_MORE_BYTES)) :
    readerTurn m (c, results) = .done (.ok ⟨c', 0, results ++ [NEED_MORE_BYTES]⟩) := by
  have h0 : NEED_MORE_BYTES ≠ 0 := by decide
  simp only [readerTurn, if_neg h, hp, if_neg h0, ne_eq, not_true_eq_false, if_false]

theorem readerTurn_of_skip (h : ¬ ReaderStops c) (hp : m.parseExecute c = .ok (c', res))
    (h0 : res ≠ 0) (h1 : res ≠ NEED_MORE_BYTES) :
    readerTurn m (c, results) =
      .done (.ok ⟨{ c' with skipBytes := skipAfter c' res }, 0, results ++ [res]⟩) := by
  simp only [readerTurn, if_neg h, hp, if_neg h0, if_pos h1]

/-- A reader whose last loop ends in its first turn. -/
theorem cpuTcpServerReader_of_done {d : Conn W} {queue : List Bytes} {exit : ReaderExit W}
    (hfront : readerFront m c queue = .ok d) (hturn : readerTurn m (d, []) = .done exit) (n : ℕ) :
    cpuTcpServerReader m c queue (n + 1) = exit := by
  simp only [cpuTcpServerReader, hfront, loopFor_of_done hturn]

end Turn

/-- `do_connection_job` on `JS_RUN`, the reader's part: nothing happens to a connection that
has failed, and what waits in `in_queue` stays there. -/
def jobRun (m : ReaderMethods W) (c : Conn W) (queue : List Bytes) (turns : ℕ) : ReaderExit W :=
  if c.cError then .ok ⟨c, 0, []⟩ else cpuTcpServerReader m c queue turns

theorem jobRun_of_live {m : ReaderMethods W} {c : Conn W} (h : c.cError = false)
    (queue : List Bytes) (turns : ℕ) :
    jobRun m c queue turns = cpuTcpServerReader m c queue turns := by
  rw [jobRun, h, if_neg Bool.false_ne_true]

/-! ### The invariant rule -/

/-- The connection with a result of `parse_execute` stored in `skip_bytes`. -/
def storeResult (c : Conn W) (res : ℤ) : Conn W :=
  if res = 0 ∨ res = NEED_MORE_BYTES then c else { c with skipBytes := skipAfter c res }

/-- Every call of `parse_execute` that a call of the reader makes is made on a connection
that meets `P`. -/
def ParsesOn (m : ReaderMethods W) (P : Conn W → Prop) (c : Conn W) (queue : List Bytes)
    (turns : ℕ) : Prop :=
  ∀ d, readerFront m c queue = .ok d →
    EachTurnFor (readerTurn m) (fun s => ¬ ReaderStops s.1 → P s.1) turns (d, [])

/-- A call of the reader leaves a connection with `I`, or ends in a fault with `F`. -/
def Leaves (I : Conn W → Prop) (F : ReaderFault → Prop) : ReaderExit W → Prop
  | .ok r => I r.conn
  | .error f => F f

section Invariant

variable {m : ReaderMethods W} {I P : Conn W → Prop} {F : ReaderFault → Prop}

/-- The connection with bytes dropped from the front of `in`, and another `skip_bytes`. -/
def Conn.afterSkip (c : Conn W) (n : ℕ) (skip : ℤ) : Conn W :=
  { c with inp := c.inp.drop n, skipBytes := skip }

/-- What skipping comes to. -/
theorem readerSkip_cases (c : Conn W) :
    (∃ bytes, readerSkip c = .error (.error (.rwmProcessEx bytes))) ∨
      (∃ n skip, readerSkip c = .error (.ok ⟨c.afterSkip n skip, 0, []⟩) ∨
        readerSkip c = .ok (c.afterSkip n skip)) ∨
      readerSkip c = .error (.ok ⟨c, 0, []⟩) ∨ readerSkip c = .ok c := by
  unfold readerSkip
  by_cases hneg : c.skipBytes < 0
  · simp only [if_pos hneg]
    split_ifs
    · exact Or.inl ⟨_, rfl⟩
    · exact Or.inr (Or.inl ⟨_, _, Or.inl rfl⟩)
    · exact Or.inr (Or.inl ⟨_, _, Or.inr rfl⟩)
  · simp only [if_neg hneg]
    split_ifs
    · exact Or.inr (Or.inl ⟨0, 0, Or.inr rfl⟩)
    · exact Or.inr (Or.inr (Or.inl rfl))
    · exact Or.inr (Or.inr (Or.inr rfl))

/-- Skipping drops bytes from the front of `in` and sets `skip_bytes`. -/
theorem readerSkip_leaves {c : Conn W} (hc : I c) (hI : ∀ n skip, I (c.afterSkip n skip))
    (hF : ∀ bytes, F (.rwmProcessEx bytes)) : Ends I (Leaves I F) (readerSkip c) := by
  rcases readerSkip_cases c with ⟨bytes, h⟩ | ⟨n, skip, h | h⟩ | h | h
  · rw [h]
    exact hF bytes
  · rw [h]
    exact hI n skip
  · rw [h]
    exact hI n skip
  · rw [h]
    exact hc
  · rw [h]
    exact hc

/-- A turn of the last loop, from what its call of `parse_execute` comes to. -/
theorem readerTurn_leaves_of_parse {c : Conn W} (results : List ℤ) (hstop : ¬ ReaderStops c)
    (hends : Ends (fun p => I (storeResult p.1 p.2)) (fun a => F (.method a))
      (m.parseExecute c)) :
    (∀ s', readerTurn m (c, results) = .again s' → I s'.1) ∧
      ∀ exit, readerTurn m (c, results) = .done exit → Leaves I F exit := by
  cases hres : m.parseExecute c with
  | error a =>
    rw [readerTurn_of_abort hstop hres]
    exact ⟨fun s' h => (nomatch h), fun exit h => Turn.done.inj h ▸ hends.error hres⟩
  | ok p =>
    obtain ⟨c', res⟩ := p
    have hI : I (storeResult c' res) := hends.ok hres
    by_cases h0 : res = 0
    · subst h0
      rw [readerTurn_of_zero hstop hres]
      rw [storeResult, if_pos (Or.inl rfl)] at hI
      refine ⟨fun s' h => ?_, fun exit h => (nomatch h)⟩
      rw [← Turn.again.inj h]
      exact hI
    · by_cases h1 : res = NEED_MORE_BYTES
      · subst h1
        rw [readerTurn_of_needMore hstop hres]
        rw [storeResult, if_pos (Or.inr rfl)] at hI
        exact ⟨fun s' h => (nomatch h), fun exit h => Turn.done.inj h ▸ hI⟩
      · rw [readerTurn_of_skip hstop hres h0 h1]
        rw [storeResult, if_neg (not_or.mpr ⟨h0, h1⟩)] at hI
        exact ⟨fun s' h => (nomatch h), fun exit h => Turn.done.inj h ▸ hI⟩

/-- A turn of the last loop. -/
theorem readerTurn_leaves
    (hparse : ∀ c, I c → P c → ¬ ReaderStops c →
      Ends (fun p => I (storeResult p.1 p.2)) (fun a => F (.method a)) (m.parseExecute c))
    {s : Conn W × List ℤ} (hs : I s.1) (hP : ¬ ReaderStops s.1 → P s.1) :
    (∀ s', readerTurn m s = .again s' → I s'.1) ∧
      ∀ exit, readerTurn m s = .done exit → Leaves I F exit := by
  obtain ⟨c, results⟩ := s
  by_cases hstop : ReaderStops c
  · rw [readerTurn_of_stops hstop]
    exact ⟨fun s' h => (nomatch h), fun exit h => Turn.done.inj h ▸ hs⟩
  · exact readerTurn_leaves_of_parse results hstop (hparse c hs (hP hstop) hstop)

/-- The invariant rule of the reader, from what it is given on. -/
theorem jobRun_leaves_of_filled {c : Conn W} {q : List Bytes} {n : ℕ}
    (hfilled : I (readerFill c q)) (hfailed : c.cError → I c)
    (hdecode : ∀ c, I c → Ends I (Leaves I F) (readerDecode m c))
    (hskip : ∀ c, I c → Ends I (Leaves I F) (readerSkip c))
    (hparse : ∀ c, I c → P c → ¬ ReaderStops c →
      Ends (fun p => I (storeResult p.1 p.2)) (fun a => F (.method a)) (m.parseExecute c))
    (hP : ¬ c.cError → ParsesOn m P c q n) : Leaves I F (jobRun m c q n) := by
  unfold jobRun
  by_cases herr : c.cError = true
  · rw [if_pos herr]
    exact hfailed herr
  · rw [if_neg herr]
    have hflags (d : Conn W) (hd : I d) : Ends I (Leaves I F) (readerFlags d) := by
      unfold readerFlags
      split_ifs <;> exact hd
    have hfront : Ends I (Leaves I F) (readerFront m c q) :=
      Ends.bind (hdecode _ hfilled) fun d hd =>
        Ends.bind (hflags d hd) fun e he => hskip e he
    unfold cpuTcpServerReader
    cases hres : readerFront m c q with
    | error exit => exact hfront.error hres
    | ok d =>
      have hloop := loopFor_inv_of_eachTurnFor (I := fun s => I s.1) (Q := Leaves I F)
        (fun s s' hI hs h => (readerTurn_leaves hparse hI hs).1 s' h)
        (fun s exit hI hs h => (readerTurn_leaves hparse hI hs).2 exit h)
        (s := (d, [])) (hfront.ok hres) (hP herr d hres)
      dsimp only
      cases hrun : loopFor (readerTurn m) n (d, []) with
      | done exit => exact hloop.2 exit hrun
      | again s => exact hloop.1 s hrun

/-- **The invariant rule of the reader.**  What every part of it preserves holds of the
connection that a `JS_RUN` leaves, if `parse_execute` is called on connections with `P`
only. -/
theorem jobRun_leaves
    (hfill : ∀ c queue, I c → I (readerFill c queue))
    (hdecode : ∀ c, I c → Ends I (Leaves I F) (readerDecode m c))
    (hskip : ∀ c, I c → Ends I (Leaves I F) (readerSkip c))
    (hparse : ∀ c, I c → P c → ¬ ReaderStops c →
      Ends (fun p => I (storeResult p.1 p.2)) (fun a => F (.method a)) (m.parseExecute c))
    {c : Conn W} {q : List Bytes} {n : ℕ} (hc : I c)
    (hP : ¬ c.cError → ParsesOn m P c q n) : Leaves I F (jobRun m c q n) :=
  jobRun_leaves_of_filled (hfill c q hc) (fun _ => hc) hdecode hskip hparse hP

end Invariant

end Server
end Teleproto3
