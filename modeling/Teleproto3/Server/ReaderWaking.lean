/-
# When the parser is called again

`parse_execute` returns the number of bytes `in` still lacks, and the reader leaves it alone until
they are there.  What it compares with is the whole of `in`, so it has to add what `in` held: with a
cipher it does, without one it adds what is in `in_u`.

Where `in_u` is the longer of the two the reader is late, and `reader_wakes` says that it is late
nowhere else.  Before the cipher there is worse: the unwrapping stops at 68 bytes, and what it
leaves in `in_u` of a chunk header can lift what the reader waits for above that.  Then the
connection is never parsed again (`precrypto_stalls`).
-/

import Teleproto3.Lib.Runs
import Teleproto3.Server.CipherStart
import Teleproto3.Server.ProbeWait
import Teleproto3.Server.ReaderRuns
import Teleproto3.Server.SilentClose

namespace Teleproto3
namespace Server

open Lib

variable {W : Type*}

/-- A result that asks for that many more bytes in `in`. -/
def AsksMore (res : ℤ) : Prop := 0 < res ∧ res ≠ NEED_MORE_BYTES

instance (res : ℤ) : Decidable (AsksMore res) := by
  unfold AsksMore
  infer_instance

/-- The number of bytes of `in` that the last of these results asks for, `c` being the connection
it left.  Where there is none it is what was asked for before. -/
def dueAfter (c : Conn W) (results : List ℤ) (due : Option ℤ) : Option ℤ :=
  match results.getLast? with
  | none => due
  | some res => if AsksMore res then some (totalBytes c.inp + res) else none

theorem dueAfter_nil (c : Conn W) (due : Option ℤ) : dueAfter c [] due = due := rfl

theorem dueAfter_concat (c : Conn W) (results : List ℤ) (res : ℤ) (due : Option ℤ) :
    dueAfter c (results ++ [res]) due =
      if AsksMore res then some (totalBytes c.inp + res) else none := by
  rw [dueAfter, List.getLast?_concat]

/-- A connection with the number of bytes `in` is to hold, where `parse_execute` has asked for more
and has not been called since. -/
structure Waking (W : Type*) where
  conn : Conn W
  due : Option ℤ

/-- A run, which a failed assertion ends. -/
abbrev WakingRun (W : Type*) := Except ReaderFault (Waking W)

/-- One event. -/
def wakingStep (m : ReaderMethods W) (s : WakingRun W) (e : ReaderEvent W) : WakingRun W :=
  s.bind fun x =>
    match e with
    | .run queue turns =>
      (jobRun m x.conn queue turns).map fun r => ⟨r.conn, dueAfter r.conn r.results x.due⟩
    | .other change => .ok ⟨change.apply x.conn, x.due⟩

theorem wakingStep_run (m : ReaderMethods W) (x : Waking W) (queue : List Bytes) (turns : ℕ) :
    wakingStep m (.ok x) (.run queue turns) =
      (jobRun m x.conn queue turns).map fun r => ⟨r.conn, dueAfter r.conn r.results x.due⟩ := rfl

/-- Neither the flags nor the status keep the reader from calling `parse_execute`. -/
structure Conn.Reads (c : Conn W) : Prop where
  cError : c.cError = false
  cFailed : c.cFailed = false
  cNetFailed : c.cNetFailed = false
  cStopRead : c.cStopRead = false
  status : c.status ≠ .error

/-- The reader calls `parse_execute` on all the bytes that decoding has left in `in`. -/
def Shows (m : ReaderMethods W) (c : Conn W) (queue : List Bytes) (inp : Bytes) : Prop :=
  ∃ d, readerFront m c queue = .ok d ∧ ¬ ReaderStops d ∧ d.inp = inp

/-- **The reader is not late.**  Where `in` has gained what `parse_execute` asked for, it is
called. -/
def OnTime (m : ReaderMethods W) (s : WakingRun W) (e : ReaderEvent W) : Prop :=
  ∀ x queue turns due d, s = .ok x → e = .run queue turns → x.conn.cError = false →
    x.due = some due → readerDecode m (readerFill x.conn queue) = .ok d → d.Reads →
    due ≤ totalBytes d.inp → Shows m x.conn queue d.inp

/-! ### The condition -/

/-- What the reader adds is no more than what `in` holds. -/
def AskedInTime (c : Conn W) : Prop :=
  c.inp.length < 2 ^ 31 ∧ (c.crypto.isSome = true ∨ c.inU.length ≤ c.inp.length)

/-- A turn of the last loop in which `parse_execute` asks for no bytes, or asks in time. -/
def AsksInTurn (m : ReaderMethods W) (s : Conn W × List ℤ) : Prop :=
  ∀ c' res, ¬ ReaderStops s.1 → m.parseExecute s.1 = .ok (c', res) → AsksMore res → AskedInTime c'

/-- **The condition on a step.**  Whenever `parse_execute` asks for more, the connection has a
cipher or `in_u` is no longer than `in`. -/
def AsksInTime (m : ReaderMethods W) (s : WakingRun W) (e : ReaderEvent W) : Prop :=
  ∀ x queue turns c, s = .ok x → e = .run queue turns → ¬ x.conn.cError →
    readerFront m x.conn queue = .ok c → EachTurnFor (readerTurn m) (AsksInTurn m) turns (c, [])

/-- **The invariant.**  What the reader waits for is no more than what `parse_execute` asked for;
or that is more than an `int` can say. -/
def Waking.InTime (x : Waking W) : Prop :=
  ∀ due, x.due = some due →
    0 < due ∧ (2 ^ 31 ≤ due ∨ 0 ≤ x.conn.skipBytes ∧ x.conn.skipBytes ≤ due)

theorem Waking.inTime_of_none {x : Waking W} (h : x.due = none) : x.InTime :=
  fun _ hdue => nomatch h.symm.trans hdue

/-- With the same due number of bytes and the same `skip_bytes`, or none. -/
theorem Waking.InTime.of_skipBytes {x y : Waking W} (h : x.InTime) (hdue : y.due = x.due)
    (hskip : y.conn.skipBytes = x.conn.skipBytes ∨ y.conn.skipBytes = 0) : y.InTime := by
  intro due hy
  obtain ⟨hpos, hbound⟩ := h due (hdue.symm.trans hy)
  refine ⟨hpos, hbound.imp_right ?_⟩
  omega

/-! ### One call of the reader -/

section Reader

variable {m : ReaderMethods W} {c c' d : Conn W} {res : ℤ}

/-- What is stored where `parse_execute` asks for more. -/
theorem skipAfter_of_asks (h : AsksMore res) :
    skipAfter c res =
      wrap32 (res + if c.crypto.isSome then totalBytes c.inp else totalBytes c.inU) := by
  unfold skipAfter
  exact if_neg (not_lt.mpr h.1.le)

/-- Without a cipher the length of `in_u` is added. -/
theorem skipAfter_of_plain (hcrypto : c.crypto = none) (hres : AsksMore res)
    (hsmall : res + c.inU.length < 2 ^ 31) : skipAfter c res = res + c.inU.length := by
  have hpos := hres.1
  have hinU : totalBytes c.inU = c.inU.length := totalBytes_of_lt (by omega)
  have hnone : ¬ c.crypto.isSome = true := by
    rw [hcrypto]
    exact Bool.false_ne_true
  rw [skipAfter_of_asks hres, if_neg hnone, hinU]
  exact wrap32_of_fits (by omega) (by omega)

/-- **A request made in time.**  The reader waits for no more than was asked for. -/
theorem AskedInTime.inTime (h : AskedInTime c) (hres : AsksMore res) :
    Waking.InTime ⟨{ c with skipBytes := skipAfter c res }, some (totalBytes c.inp + res)⟩ := by
  obtain ⟨hlen, hless⟩ := h
  have hin : totalBytes c.inp = c.inp.length := totalBytes_of_lt hlen
  have hpos := hres.1
  intro due hdue
  obtain rfl := Option.some.inj hdue
  refine ⟨by omega, or_iff_not_imp_left.mpr fun hsmall => ?_⟩
  show 0 ≤ skipAfter c res ∧ skipAfter c res ≤ _
  rw [skipAfter_of_asks hres]
  rcases hless with hcrypto | hle
  · rw [if_pos hcrypto, wrap32_of_fits (by omega) (by omega)]
    omega
  · split_ifs
    · rw [wrap32_of_fits (by omega) (by omega)]
      omega
    · have hinU : totalBytes c.inU = c.inU.length := totalBytes_of_lt (by omega)
      rw [wrap32_of_fits (by omega) (by omega)]
      omega

/-- A turn of the last loop. -/
theorem readerTurn_inTime {due : Option ℤ} (s : Conn W × List ℤ)
    (hs : Waking.InTime ⟨s.1, dueAfter s.1 s.2 due⟩) (hturn : AsksInTurn m s) :
    (∀ s', readerTurn m s = .again s' → Waking.InTime ⟨s'.1, dueAfter s'.1 s'.2 due⟩) ∧
      ∀ exit, readerTurn m s = .done exit → ∀ r, exit = .ok r →
        Waking.InTime ⟨r.conn, dueAfter r.conn r.results due⟩ := by
  obtain ⟨c, results⟩ := s
  by_cases hstop : ReaderStops c
  · rw [readerTurn_of_stops hstop]
    refine ⟨fun s' h => (nomatch h), fun exit h r hr => ?_⟩
    obtain rfl := Turn.done.inj h
    obtain rfl := Except.ok.inj hr
    exact hs
  cases hparse : m.parseExecute c with
  | error a =>
    rw [readerTurn_of_abort hstop hparse]
    refine ⟨fun s' h => (nomatch h), fun exit h r hr => ?_⟩
    obtain rfl := Turn.done.inj h
    exact nomatch hr
  | ok p =>
    obtain ⟨c', res⟩ := p
    by_cases hzero : res = 0
    · subst hzero
      rw [readerTurn_of_zero hstop hparse]
      refine ⟨fun s' h => ?_, fun exit h => (nomatch h)⟩
      obtain rfl := Turn.again.inj h
      refine Waking.inTime_of_none ?_
      exact (dueAfter_concat _ _ _ _).trans (if_neg fun h => absurd h.1 (lt_irrefl 0))
    by_cases hmore : res = NEED_MORE_BYTES
    · subst hmore
      rw [readerTurn_of_needMore hstop hparse]
      refine ⟨fun s' h => (nomatch h), fun exit h r hr => ?_⟩
      obtain rfl := Turn.done.inj h
      obtain rfl := Except.ok.inj hr
      refine Waking.inTime_of_none ?_
      exact (dueAfter_concat _ _ _ _).trans (if_neg fun h => h.2 rfl)
    · rw [readerTurn_of_skip hstop hparse hzero hmore]
      refine ⟨fun s' h => (nomatch h), fun exit h r hr => ?_⟩
      obtain rfl := Turn.done.inj h
      obtain rfl := Except.ok.inj hr
      rw [dueAfter_concat]
      split_ifs with hasks
      · exact (hturn c' res hstop hparse hasks).inTime hasks
      · exact Waking.inTime_of_none rfl

/-- What the reader leaves with while it skips or waits shows no call of `parse_execute`. -/
theorem readerSkip_results {r : ReaderResult W} (h : readerSkip c = .error (.ok r)) :
    r.results = [] := by
  rcases readerSkip_cases c with ⟨bytes, hc⟩ | ⟨n, skip, hc | hc⟩ | hc | hc <;> rw [hc] at h
  · exact nomatch Except.error.inj h
  · obtain rfl := Except.ok.inj (Except.error.inj h)
    rfl
  · exact nomatch h
  · obtain rfl := Except.ok.inj (Except.error.inj h)
    rfl
  · exact nomatch h

/-- With nothing to skip the reader waits, or does not. -/
theorem readerSkip_waits (h : 0 ≤ c.skipBytes) :
    readerSkip c = .ok { c with skipBytes := 0 } ∨
      totalBytes c.inp < c.skipBytes ∧ readerSkip c = .error (.ok ⟨c, 0, []⟩) := by
  rcases h.eq_or_lt with hzero | hpos
  · left
    rw [readerSkip_of_zero hzero.symm, hzero]
  · rw [readerSkip_of_pos hpos]
    by_cases hle : c.skipBytes ≤ totalBytes c.inp
    · exact Or.inl (if_pos hle)
    · exact Or.inr ⟨not_le.mp hle, if_neg hle⟩

/-- Skipping and waiting leave what was asked for in time. -/
theorem readerSkip_inTime {due : Option ℤ} (h : Waking.InTime ⟨c, due⟩) :
    (∀ d, readerSkip c = .ok d → Waking.InTime ⟨d, due⟩) ∧
      ∀ r, readerSkip c = .error (.ok r) → Waking.InTime ⟨r.conn, due⟩ := by
  by_cases hsmall : ∃ k, due = some k ∧ k < 2 ^ 31
  · obtain ⟨k, rfl, hk⟩ := hsmall
    obtain ⟨-, hskip⟩ := h k rfl
    rcases readerSkip_waits (hskip.resolve_left (not_le.mpr hk)).1 with hc | ⟨-, hc⟩ <;> rw [hc]
    · refine ⟨fun d hd => ?_, fun r hr => (nomatch hr)⟩
      obtain rfl := Except.ok.inj hd
      exact h.of_skipBytes rfl (Or.inr rfl)
    · refine ⟨fun d hd => (nomatch hd), fun r hr => ?_⟩
      obtain rfl := Except.ok.inj (Except.error.inj hr)
      exact h
  · -- What is due is out of reach, or there is nothing due.
    have hany (y : Conn W) : Waking.InTime ⟨y, due⟩ := fun k hdue =>
      ⟨(h k hdue).1, Or.inl (not_lt.mp fun hk => hsmall ⟨k, hdue, hk⟩)⟩
    exact ⟨fun d _ => hany d, fun r _ => hany r.conn⟩

/-- **One call of the reader** on a connection of which what is due is waited for in time. -/
theorem cpuTcpServerReader_inTime {due : Option ℤ} (h : Waking.InTime ⟨c, due⟩)
    {queue : List Bytes} {turns : ℕ} {r : ReaderResult W}
    (hturns : ∀ d, readerFront m c queue = .ok d →
      EachTurnFor (readerTurn m) (AsksInTurn m) turns (d, []))
    (hr : cpuTcpServerReader m c queue turns = .ok r) :
    Waking.InTime ⟨r.conn, dueAfter r.conn r.results due⟩ := by
  obtain ⟨hdecOk, hdecExit⟩ := readerDecode_spec m (readerFill c queue)
  rw [readerFill_skipBytes] at hdecOk hdecExit
  have hsame {d : Conn W} (hd : d.skipBytes = c.skipBytes) : Waking.InTime ⟨d, due⟩ :=
    h.of_skipBytes rfl (Or.inl hd)
  unfold cpuTcpServerReader at hr
  cases hfront : readerFront m c queue with
  | error exit =>
    rw [hfront] at hr
    dsimp only at hr
    subst hr
    rcases bind_error_iff.mp hfront with hdec | ⟨d, hdec, hrest⟩
    · rcases hdecExit _ hdec with ⟨a, ha⟩ | ⟨d, hd, hskip⟩
      · exact nomatch ha
      · obtain rfl := Except.ok.inj hd
        exact hsame hskip
    rcases bind_error_iff.mp hrest with hflags | ⟨e, hflags, hskip⟩
    · obtain ⟨ret, hret⟩ := (readerFlags_spec d).2 _ hflags
      obtain rfl := Except.ok.inj hret
      exact hsame (hdecOk d hdec)
    · obtain ⟨rfl, -⟩ := (readerFlags_spec d).1 e hflags
      rw [readerSkip_results hskip, dueAfter_nil]
      exact (readerSkip_inTime (hsame (hdecOk e hdec))).2 r hskip
  | ok d =>
    rw [hfront] at hr
    obtain ⟨e, hdec, hrest⟩ := bind_ok_iff.mp hfront
    obtain ⟨e', hflags, hskip⟩ := bind_ok_iff.mp hrest
    obtain ⟨rfl, -⟩ := (readerFlags_spec e).1 e' hflags
    have hd : Waking.InTime ⟨d, due⟩ := (readerSkip_inTime (hsame (hdecOk e' hdec))).1 d hskip
    have hloop := loopFor_inv_of_eachTurnFor (f := readerTurn m) (P := AsksInTurn m)
      (I := fun s => Waking.InTime ⟨s.1, dueAfter s.1 s.2 due⟩)
      (Q := fun exit => ∀ r, exit = .ok r → Waking.InTime ⟨r.conn, dueAfter r.conn r.results due⟩)
      (fun s s' hI hP hb => (readerTurn_inTime s hI hP).1 s' hb)
      (fun s exit hI hP hb => (readerTurn_inTime s hI hP).2 exit hb) hd (hturns d hfront)
    dsimp only at hr
    cases hrun : loopFor (readerTurn m) turns (d, []) with
    | done exit =>
      rw [hrun] at hr
      exact hloop.2 exit hrun r hr
    | again s =>
      rw [hrun] at hr
      obtain rfl := Except.ok.inj hr
      exact hloop.1 s hrun

/-- The last loop begins with a call of `parse_execute`. -/
theorem Conn.Reads.goes (h : d.Reads) (hskip : d.skipBytes = 0) (hin : 0 < totalBytes d.inp) :
    ¬ ReaderStops d := by
  rintro (hstop | hstop | hstop | hstop | hstop | hstop | hstop)
  · exact hstop hskip
  · exact nomatch h.cError.symm.trans hstop
  · exact nomatch h.cFailed.symm.trans hstop
  · exact nomatch h.cNetFailed.symm.trans hstop
  · exact nomatch h.cStopRead.symm.trans hstop
  · exact h.status hstop
  · omega

/-- **What is due in time is called in time.** -/
theorem shows_of_inTime {due : ℤ} (h : Waking.InTime ⟨c, some due⟩) {queue : List Bytes}
    (hdec : readerDecode m (readerFill c queue) = .ok d) (hreads : d.Reads)
    (hdue : due ≤ totalBytes d.inp) : Shows m c queue d.inp := by
  obtain ⟨hpos, hskip⟩ := h due rfl
  have hlt : totalBytes d.inp < 2 ^ 31 := wrap32_lt _
  have hsame := (readerDecode_spec m (readerFill c queue)).1 d hdec
  rw [readerFill_skipBytes] at hsame
  obtain ⟨h0, hle⟩ : 0 ≤ c.skipBytes ∧ c.skipBytes ≤ due := hskip.resolve_left (by omega)
  have hflags : readerFlags d = .ok d := by
    unfold readerFlags
    rw [hreads.cError, hreads.cFailed, hreads.cNetFailed, hreads.cStopRead]
    rfl
  rcases readerSkip_waits (c := d) (by omega) with hc | ⟨hshort, -⟩
  · have hreads' : Conn.Reads { d with skipBytes := 0 } :=
      ⟨hreads.cError, hreads.cFailed, hreads.cNetFailed, hreads.cStopRead, hreads.status⟩
    refine ⟨{ d with skipBytes := 0 }, ?_, hreads'.goes rfl (lt_of_lt_of_le hpos hdue), rfl⟩
    rw [readerFront, hdec]
    show (readerFlags d).bind readerSkip = _
    rw [hflags]
    exact hc
  · omega

/-- Where the reader waits for more than `in` holds, `parse_execute` is not called. -/
theorem not_shows_of_waits {queue : List Bytes} (hdec : readerDecode m (readerFill c queue) = .ok d)
    (hwaits : 0 < d.skipBytes ∧ totalBytes d.inp < d.skipBytes) {inp : Bytes} :
    ¬ Shows m c queue inp := by
  rintro ⟨e, hfront, -, -⟩
  rw [readerFront, hdec] at hfront
  obtain ⟨d', hflags, hskip⟩ :=
    bind_ok_iff.mp (show (readerFlags d).bind readerSkip = .ok e from hfront)
  obtain ⟨rfl, -⟩ := (readerFlags_spec d).1 d' hflags
  rw [readerSkip_of_pos hwaits.1, if_neg (not_le.mpr hwaits.2)] at hskip
  cases hskip

/-- **A request that is not made in time** is met late: every run that ends with fewer bytes in `in`
than the length of `in_u` on top of the number asked for leaves the parser alone, those included
in which `in` has gained what was asked for. -/
theorem not_shows_of_longer (hcrypto : c.crypto = none) (hres : AsksMore res)
    (hsmall : res + c.inU.length < 2 ^ 31) {queue : List Bytes}
    (hdec : readerDecode m (readerFill { c with skipBytes := skipAfter c res } queue) = .ok d)
    (hfew : totalBytes d.inp < res + c.inU.length) {inp : Bytes} :
    ¬ Shows m { c with skipBytes := skipAfter c res } queue inp := by
  have hpos := hres.1
  have hskip : d.skipBytes = res + c.inU.length := by
    have hsame := (readerDecode_spec m _).1 d hdec
    rw [readerFill_skipBytes] at hsame
    exact hsame.trans (skipAfter_of_plain hcrypto hres hsmall)
  exact not_shows_of_waits hdec (by omega)

end Reader

/-! ### Runs -/

/-- The invariant of a run. -/
def WakingRun.InTime (s : WakingRun W) : Prop := ∀ x, s = .ok x → x.InTime

/-- **One event.** -/
theorem WakingRun.InTime.step {m : ReaderMethods W} {s : WakingRun W} {e : ReaderEvent W}
    (hs : s.InTime) (he : AsksInTime m s e) : WakingRun.InTime (wakingStep m s e) := by
  intro y hy
  cases s with
  | error f => cases hy
  | ok x =>
    have hx := hs x rfl
    cases e with
    | other change =>
      obtain rfl := Except.ok.inj hy
      exact hx.of_skipBytes rfl (change.keeps_skipBytes x.conn)
    | run queue turns =>
      rw [wakingStep_run] at hy
      by_cases herror : x.conn.cError = true
      · rw [jobRun, if_pos herror] at hy
        obtain rfl := Except.ok.inj hy
        exact hx
      · rw [jobRun, if_neg herror] at hy
        cases hread : cpuTcpServerReader m x.conn queue turns with
        | error f =>
          rw [hread] at hy
          cases hy
        | ok r =>
          rw [hread] at hy
          obtain rfl := Except.ok.inj hy
          exact cpuTcpServerReader_inTime hx (fun d => he x queue turns d rfl rfl herror) hread

/-- **The parser is called in time**, in every run in which it never asks for more of a connection
without a cipher whose `in_u` is longer than its `in`. -/
theorem reader_wakes (m : ReaderMethods W) (c : Conn W) (es : List (ReaderEvent W))
    (hrun : Along (wakingStep m) (AsksInTime m) (.ok ⟨c, none⟩) es) :
    Along (wakingStep m) (OnTime m) (.ok ⟨c, none⟩) es := by
  refine along_of_inv (I := WakingRun.InTime) (fun s e hs he => hs.step he) ?_ ?_ hrun
  · rintro s e hs - x queue turns due d rfl - - hdue hdec hreads hle
    have hx : Waking.InTime ⟨x.conn, some due⟩ := by
      rw [← hdue]
      exact hs x rfl
    exact shows_of_inTime hx hdec hreads hle
  · intro x hx
    obtain rfl := Except.ok.inj hx
    exact Waking.inTime_of_none rfl

/-! ### Before the cipher -/

/-- A chunked stream without a cipher, whose reader waits for more than the unwrapping stops at. -/
structure Stalled (c : Conn W) : Prop where
  crypto : c.crypto = none
  awaits : AwaitsMore c
  skipBytes : c.skipBytes < 2 ^ 31

/-- What unwrapping before the cipher makes of it. -/
theorem Stalled.unwrap {c : Conn W} (h : Stalled c) : Stalled (httpStreamUnwrapPrecrypto c).1 := by
  have hdst := unwrapLoop_dst_le httpStreamChunkHeaderParse ⟨c.inU, c.inp,
    T3_PRECRYPTO_BYTES - c.inp.length, c.httpChunkRemaining, c.httpChunkHeaderState⟩
  obtain ⟨hcrypto, ⟨hmode, hskip⟩, hlt⟩ := h
  unfold httpStreamUnwrapPrecrypto
  dsimp only
  generalize unwrapLoop httpStreamChunkHeaderParse ⟨c.inU, c.inp,
    T3_PRECRYPTO_BYTES - c.inp.length, c.httpChunkRemaining, c.httpChunkHeaderState⟩ = e at hdst
  obtain ⟨u, failure⟩ := e
  dsimp only at hdst
  have hlen : max u.dst.length T3_PRECRYPTO_BYTES ≤ max c.inp.length T3_PRECRYPTO_BYTES := by
    omega
  have hwaits := lt_of_le_of_lt (Int.ofNat_le.mpr hlen) hskip
  cases failure with
  | none => exact ⟨hcrypto, ⟨hmode, hwaits⟩, hlt⟩
  | some err => exact ⟨hcrypto, ⟨hmode, hwaits⟩, hlt⟩

/-- **One read** of a stalled connection does not call `parse_execute`, and leaves it stalled. -/
theorem Stalled.jobRun {m : ReaderMethods W} {c : Conn W} (h : Stalled c) (queue : List Bytes)
    (turns : ℕ) : ∃ d ret, jobRun m c queue turns = .ok ⟨d, ret, []⟩ ∧ Stalled d := by
  unfold Server.jobRun
  by_cases herror : c.cError = true
  · exact ⟨c, 0, if_pos herror, h⟩
  rw [if_neg herror]
  suffices hfront : ∃ d ret, readerFront m c queue = .error (.ok ⟨d, ret, []⟩) ∧ Stalled d by
    obtain ⟨d, ret, hfront, hd⟩ := hfront
    refine ⟨d, ret, ?_, hd⟩
    simp only [cpuTcpServerReader, hfront]
  obtain ⟨hcrypto, ⟨hmode, hskip⟩, hlt⟩ := h
  have hfill : readerFill c queue = { c with inU := c.inU ++ queue.flatten } :=
    if_pos (Or.inr hmode)
  have hfilled : Stalled (readerFill c queue) := by
    rw [hfill]
    exact ⟨hcrypto, ⟨hmode, hskip⟩, hlt⟩
  have hunwrap := hfilled.unwrap
  have hnone : ¬ (readerFill c queue).crypto.isSome = true := by
    rw [hfilled.crypto]
    exact Bool.false_ne_true
  unfold readerFront readerDecode
  rw [if_neg hnone, if_pos hfilled.awaits.1]
  generalize httpStreamUnwrapPrecrypto (readerFill c queue) = r at hunwrap
  obtain ⟨d, res⟩ := r
  dsimp only at hunwrap ⊢
  split_ifs
  · exact ⟨d, -1, rfl, hunwrap⟩
  show ∃ e ret, (readerFlags d).bind readerSkip = _ ∧ _
  unfold readerFlags
  split_ifs
  · exact ⟨d, -1, rfl, hunwrap⟩
  · exact ⟨d, 0, rfl, hunwrap⟩
  · have hwaits := hunwrap.awaits.2
    have hskipLt := hunwrap.skipBytes
    have hshort : ¬ d.skipBytes ≤ totalBytes d.inp := by
      rw [totalBytes_of_lt (by omega)]
      omega
    refine ⟨d, 0, ?_, hunwrap⟩
    exact (readerSkip_of_pos (by omega)).trans (if_neg hshort)

/-- **A stalled connection is never parsed again**, however much of the stream is read. -/
theorem precrypto_stalls (m : ReaderMethods W) {x : Waking W} (h : Stalled x.conn)
    (reads : List (List Bytes × ℕ)) :
    Throughout (wakingStep m) (fun s => ∃ y, s = .ok y ∧ y.due = x.due ∧ Stalled y.conn) (.ok x)
      (reads.map fun r => .run r.1 r.2) := by
  induction reads generalizing x with
  | nil => exact ⟨x, rfl, rfl, h⟩
  | cons r reads ih =>
    refine ⟨⟨x, rfl, rfl, h⟩, ?_⟩
    obtain ⟨d, ret, hrun, hd⟩ := h.jobRun (m := m) r.1 r.2
    show Throughout _ _ (wakingStep m (.ok x) (.run r.1 r.2)) _
    rw [wakingStep_run, hrun]
    exact ih (x := ⟨d, x.due⟩) hd

/-! ### A chunk header in two parts -/

/-- A client that has sent the headers of a chunked request. -/
def sampleChunked : Conn Unit :=
  { sampleAccepted with wsState := .none, transportMode := .httpStream }

/-- A chunk with the Session Header and nine bytes of the obfuscated2 header. -/
def sampleOpening : Bytes := ascii "d\r\n" ++ [1, 1, 0, 0] ++ List.replicate 9 7 ++ crlf

/-- The other 55 bytes, behind what is left of their chunk header. -/
def sampleRest (header : Bytes) : Bytes := header ++ crlf ++ List.replicate 55 7 ++ crlf

/-- The client when `parse_execute` sees the chunk, with a part of the next chunk's header. -/
def sampleShown (part : Bytes) : Conn Unit :=
  { sampleChunked with inp := [1, 1, 0, 0] ++ List.replicate 9 7, inU := part }

/-- The client when it has asked for 55 bytes more. -/
def sampleAsked (part : Bytes) : Conn Unit :=
  ((sampleShown part).record (.sessionHeader [1, 1, 0, 0])).skipData 4

/-- Decoding before the cipher, where the unwrapping ends without a failure. -/
theorem readerDecode_of_unwrap {m : ReaderMethods W} {c : Conn W} {u : Unwrap} (queue : List Bytes)
    (hcrypto : c.crypto = none) (hmode : c.transportMode = .httpStream)
    (h : unwrapLoop httpStreamChunkHeaderParse
        ⟨c.inU ++ queue.flatten, c.inp, T3_PRECRYPTO_BYTES - c.inp.length, c.httpChunkRemaining,
          c.httpChunkHeaderState⟩ = (u, none)) :
    readerDecode m (readerFill c queue) =
      .ok { c with
        inU := u.src
        inp := u.dst
        httpChunkRemaining := u.remaining
        httpChunkHeaderState := u.state } := by
  have hnone : ¬ c.crypto.isSome = true := by
    rw [hcrypto]
    exact Bool.false_ne_true
  rw [readerFill, if_pos (Or.inr hmode), readerDecode, if_neg hnone, if_pos hmode]
  simp only [httpStreamUnwrapPrecrypto, h]
  rfl

/-- The chunk is read. -/
theorem sampleOpening_decoded {part : Bytes} (hpart : httpStreamChunkHeaderParse part = .more) :
    readerDecode (clientMethods sampleServer) (readerFill sampleChunked [sampleOpening ++ part]) =
      .ok (sampleShown part) := by
  let u : Unwrap := ⟨sampleOpening ++ part, [], 68, 0, .needHeader⟩
  let v : Unwrap := ⟨crlf ++ part, [1, 1, 0, 0] ++ List.replicate 9 7, 55, 0, .needCrlf⟩
  let w : Unwrap := ⟨part, [1, 1, 0, 0] ++ List.replicate 9 7, 55, 0, .needHeader⟩
  have hturn : unwrapTurn httpStreamChunkHeaderParse u = .again v := rfl
  have hadvance : v.advance httpStreamChunkHeaderParse = .error (w, none) := by
    show w.header httpStreamChunkHeaderParse = _
    exact Unwrap.header_of_more rfl hpart
  have hneeded : v.needed ≠ 0 := show 55 ≠ 0 by decide
  have hlast := unwrapTurn_of_error hneeded (nofun) hadvance
  refine readerDecode_of_unwrap (u := w) _ rfl rfl ?_
  rw [List.flatten_singleton]
  exact (loop_of_again (unwrapTurn_shrinks _) hturn).trans
    (loop_of_done (unwrapTurn_shrinks _) hlast)

/-- So is the rest. -/
theorem sampleRest_decoded (part header : Bytes) (skip : ℤ)
    (hturn : unwrapTurn httpStreamChunkHeaderParse
        ⟨part ++ sampleRest header, List.replicate 9 7, 59, 0, .needHeader⟩ =
      .again ⟨crlf, List.replicate 64 7, 4, 0, .needCrlf⟩) :
    readerDecode (clientMethods sampleServer)
        (readerFill { sampleAsked part with skipBytes := skip } [sampleRest header]) =
      .ok { sampleAsked [] with inp := List.replicate 64 7, skipBytes := skip } := by
  have hlast : unwrapTurn httpStreamChunkHeaderParse ⟨crlf, List.replicate 64 7, 4, 0, .needCrlf⟩ =
      .done (⟨[], List.replicate 64 7, 4, 0, .needHeader⟩, none) := rfl
  refine readerDecode_of_unwrap (u := ⟨[], List.replicate 64 7, 4, 0, .needHeader⟩) _ rfl rfl ?_
  rw [List.flatten_singleton]
  exact (loop_of_again (unwrapTurn_shrinks _) hturn).trans
    (loop_of_done (unwrapTurn_shrinks _) hlast)

/-- With the first chunk the client asks for 55 bytes more. -/
theorem sampleShown_asks (part : Bytes) :
    (clientMethods sampleServer).parseExecute (sampleShown part) = .ok (sampleAsked part, 55) := by
  have hstages : parseStages sampleServer (sampleShown part) =
      .error (.ret (sampleAsked part) 55) := rfl
  exact tcpRpcsCompactParseExecute_of_error sampleServer hstages

theorem sampleShown_goes (part : Bytes) : ¬ ReaderStops (sampleShown part) := by
  have hreads : (sampleShown part).Reads := ⟨rfl, rfl, rfl, rfl, nofun⟩
  refine hreads.goes rfl ?_
  show 0 < totalBytes ([1, 1, 0, 0] ++ List.replicate 9 7)
  decide

theorem sampleOpening_front {part : Bytes} (hpart : httpStreamChunkHeaderParse part = .more) :
    readerFront (clientMethods sampleServer) sampleChunked [sampleOpening ++ part] =
      .ok (sampleShown part) := by
  rw [readerFront, sampleOpening_decoded hpart]
  rfl

/-- With the first chunk 64 bytes are due. -/
theorem sampleOpening_step {part : Bytes} (hpart : httpStreamChunkHeaderParse part = .more) :
    wakingStep (clientMethods sampleServer) (.ok ⟨sampleChunked, none⟩)
        (.run [sampleOpening ++ part] 1) =
      .ok ⟨{ sampleAsked part with skipBytes := skipAfter (sampleAsked part) 55 }, some 64⟩ := by
  have hturn : readerTurn (clientMethods sampleServer) (sampleShown part, []) = _ :=
    readerTurn_of_skip (sampleShown_goes part) (sampleShown_asks part) (by decide) (by decide)
  have hreader := cpuTcpServerReader_of_done (sampleOpening_front hpart) hturn 0
  have hdue : totalBytes (sampleAsked part).inp + 55 = 64 := by
    show totalBytes (List.replicate 9 7) + 55 = 64
    decide
  have hlast : dueAfter { sampleAsked part with skipBytes := skipAfter (sampleAsked part) 55 }
      ([] ++ [55]) none = some 64 := by
    rw [dueAfter_concat, if_pos (show AsksMore 55 by decide), hdue]
  rw [wakingStep_run, jobRun_of_live rfl, hreader]
  exact congrArg (fun due => Except.ok (⟨_, due⟩ : Waking Unit)) hlast

/-- The hypothesis of `reader_wakes` holds of a client whose chunks are read whole. -/
theorem reader_wakes_sample :
    Along (wakingStep (clientMethods sampleServer)) (OnTime (clientMethods sampleServer))
      (.ok ⟨sampleChunked, none⟩)
      [.run [sampleOpening] 1, .run [sampleRest (ascii "37")] 1] := by
  have hpart : httpStreamChunkHeaderParse [] = .more := rfl
  have hopening : sampleOpening = sampleOpening ++ [] := (List.append_nil _).symm
  refine reader_wakes _ _ _ ⟨?_, ?_, trivial⟩
  · rintro x queue turns c hx he - hfront
    obtain rfl := Except.ok.inj hx
    obtain ⟨rfl, rfl⟩ := ReaderEvent.run.inj he
    rw [hopening, sampleOpening_front hpart] at hfront
    obtain rfl := Except.ok.inj hfront
    refine ⟨?_, fun _ _ => trivial⟩
    rintro c' res - hres -
    obtain ⟨rfl, rfl⟩ := Prod.mk.inj (Except.ok.inj ((sampleShown_asks []).symm.trans hres))
    exact ⟨show 9 < 2 ^ 31 by decide, Or.inr (Nat.zero_le _)⟩
  · rw [hopening, sampleOpening_step hpart]
    rintro x queue turns c hx he - hfront
    obtain rfl := Except.ok.inj hx
    obtain ⟨rfl, rfl⟩ := ReaderEvent.run.inj he
    have hdec := sampleRest_decoded [] (ascii "37") (skipAfter (sampleAsked []) 55) rfl
    have hrest : readerFront (clientMethods sampleServer)
        { sampleAsked [] with skipBytes := skipAfter (sampleAsked []) 55 }
        [sampleRest (ascii "37")] = .ok { sampleAsked [] with inp := List.replicate 64 7 } := by
      rw [readerFront, hdec]
      rfl
    obtain rfl := Except.ok.inj (hrest.symm.trans hfront)
    refine ⟨?_, fun _ _ => trivial⟩
    rintro c' res - hres hasks
    obtain ⟨c'', hstages⟩ : ∃ c'', parseStages sampleServer
        { sampleAsked [] with inp := List.replicate 64 7 } = .error (.ret c'' SKIP_ALL_BYTES) :=
      ⟨_, rfl⟩
    have hdropped := tcpRpcsCompactParseExecute_of_error sampleServer hstages
    obtain ⟨rfl, rfl⟩ := Prod.mk.inj (Except.ok.inj (hdropped.symm.trans hres))
    exact absurd hasks.1 (by decide)

/-- **The parser is not called in time.**  A read that ends inside the header of the second chunk
leaves 14 bytes in `in_u`, and the reader waits for 69 bytes where 64 are all it takes. -/
theorem reader_not_wakes :
    ¬ Along (wakingStep (clientMethods sampleServer)) (OnTime (clientMethods sampleServer))
      (.ok ⟨sampleChunked, none⟩)
      [.run [sampleOpening ++ ascii "00000000000037"] 1, .run [sampleRest []] 1] := by
  intro h
  have hsecond := h.2.1
  rw [sampleOpening_step rfl] at hsecond
  have hdec := sampleRest_decoded (ascii "00000000000037") []
    (skipAfter (sampleAsked (ascii "00000000000037")) 55) rfl
  have hshows := hsecond _ _ _ 64 _ rfl rfl rfl rfl hdec ⟨rfl, rfl, rfl, rfl, nofun⟩
    (show (64 : ℤ) ≤ totalBytes (List.replicate 64 7) by decide)
  refine not_shows_of_longer rfl ⟨by decide, by decide⟩ (show _ < (2 : ℤ) ^ 31 by decide) hdec ?_
    hshows
  show totalBytes (List.replicate 64 7) < _
  decide

/-- The client has come to stand still. -/
theorem precrypto_stalls_sample :
    Throughout (wakingStep (clientMethods sampleServer))
      (fun s => ∃ y, s = .ok y ∧ y.due = none ∧ Stalled y.conn)
      (.ok ⟨{ sampleAsked [] with skipBytes := 69 }, none⟩) [.run [sampleRest []] 1] :=
  precrypto_stalls _ (x := ⟨{ sampleAsked [] with skipBytes := 69 }, none⟩)
    ⟨rfl, ⟨rfl, by decide⟩, by decide⟩
    [([sampleRest []], 1)]

end Server
end Teleproto3
