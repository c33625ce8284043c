/-
# What the reader skips, over whole runs

A connection is read again and again, in pieces as they arrive; between two reads
other code may fail it, pause it, or reset its `skip_bytes` to 0.  Two things should
hold of every such run: the reader never asks `rwm_skip_data` for a negative number of
bytes, and after a `SKIP_ALL_BYTES` it keeps no byte and does not call `parse_execute`
again.

Neither does.  `SKIP_ALL_BYTES` is the smallest `int`, whose negation is itself: stored
as it is, the next call of the reader skips that many bytes.  And with bytes left in
`in_u` it is not stored as it is; the difference wraps around to a positive number, and
the connection is parsed again when that much has arrived.  `readerRun_sound` is the
promise for the runs in which no live connection is told to skip all, nor stores the
smallest `int` by another way.
-/

import Teleproto3.Lib.Runs
import Teleproto3.Server.ParseLoop

namespace Teleproto3
namespace Server

open Lib

variable {W : Type*}

/-- What may happen to a connection between two calls of its reader: anything that does
not revive it, gives it no input, and leaves `skip_bytes` alone or resets it. -/
structure Between (W : Type*) where
  apply : Conn W → Conn W
  keeps_cError : ∀ c, c.cError → (apply c).cError
  keeps_input : ∀ c, held (apply c) ≤ held c
  keeps_skipBytes : ∀ c, (apply c).skipBytes = c.skipBytes ∨ (apply c).skipBytes = 0

/-- What happens to a connection: a `JS_RUN` with the messages in `in_queue` and the number of
turns its loop is given, or something else. -/
inductive ReaderEvent (W : Type*)
  | run (queue : List Bytes) (turns : ℕ)
  | other (change : Between W)

/-- A connection with everything its `parse_execute` has returned so far. -/
structure Reading (W : Type*) where
  conn : Conn W
  results : List ℤ

/-- A run, which a failed assertion ends. -/
abbrev ReadingRun (W : Type*) := Except ReaderFault (Reading W)

/-- One event. -/
def readingStep (m : ReaderMethods W) (s : ReadingRun W) (e : ReaderEvent W) : ReadingRun W :=
  s.bind fun x =>
    match e with
    | .run queue turns =>
      (jobRun m x.conn queue turns).map fun r => ⟨r.conn, x.results ++ r.results⟩
    | .other change => .ok ⟨change.apply x.conn, x.results⟩

theorem readingStep_run (m : ReaderMethods W) (x : Reading W) (queue : List Bytes) (turns : ℕ) :
    readingStep m (.ok x) (.run queue turns) =
      (jobRun m x.conn queue turns).map fun r => ⟨r.conn, x.results ++ r.results⟩ := rfl

/-- The assertion `bytes >= 0` has not failed. -/
def NeverNegative (s : ReadingRun W) : Prop := ∀ bytes, s ≠ .error (.rwmProcessEx bytes)

/-- After a `SKIP_ALL_BYTES` the event adds no byte to what the connection holds and brings no
call of `parse_execute`. -/
def Discards (m : ReaderMethods W) (s : ReadingRun W) (e : ReaderEvent W) : Prop :=
  ∀ x x', s = .ok x → SKIP_ALL_BYTES ∈ x.results → readingStep m s e = .ok x' →
    x'.results = x.results ∧ held x'.conn ≤ held x.conn

/-- **What is promised of a run.** -/
def ReaderSound (m : ReaderMethods W) (c : Conn W) (es : List (ReaderEvent W)) : Prop :=
  Throughout (readingStep m) NeverNegative (.ok ⟨c, []⟩) es ∧
    Along (readingStep m) (Discards m) (.ok ⟨c, []⟩) es

/-! ### The condition -/

/-- A result that does no harm: the connection has failed, or the result is not
`SKIP_ALL_BYTES` and does not become the smallest `int` when it is stored. -/
def Harmless (c : Conn W) (res : ℤ) : Prop :=
  c.cError ∨ res ≠ SKIP_ALL_BYTES ∧ (res = 0 ∨ res = NEED_MORE_BYTES ∨ skipAfter c res ≠ -2 ^ 31)

/-- A turn of the last loop in which `parse_execute` is not called or returns what does no
harm. -/
def HarmlessTurn (m : ReaderMethods W) (s : Conn W × List ℤ) : Prop :=
  ∀ c' res, ¬ ReaderStops s.1 → m.parseExecute s.1 = .ok (c', res) → Harmless c' res

/-- **The condition on a step.**  Where the reader runs, `in` stays below the largest
`int`, and what `parse_execute` returns does no harm. -/
def ReadsTamely (m : ReaderMethods W) (s : ReadingRun W) (e : ReaderEvent W) : Prop :=
  ∀ x queue turns, s = .ok x → e = .run queue turns → ¬ x.conn.cError →
    (∀ c, readerDecode m (readerFill x.conn queue) = .ok c → c.inp.length < 2 ^ 31) ∧
      ∀ c, readerFront m x.conn queue = .ok c →
        EachTurnFor (readerTurn m) (HarmlessTurn m) turns (c, [])

/-- **The invariant.**  A connection that has not failed has never been told to skip all,
and its `skip_bytes` is an `int` other than the smallest. -/
def Reading.Tame (x : Reading W) : Prop :=
  x.conn.cError ∨
    SKIP_ALL_BYTES ∉ x.results ∧ -2 ^ 31 < x.conn.skipBytes ∧ x.conn.skipBytes < 2 ^ 31

/-- With nothing to skip the books are all that counts. -/
theorem Reading.tame_of_zero {x : Reading W} (h : x.conn.cError ∨ SKIP_ALL_BYTES ∉ x.results)
    (h0 : x.conn.skipBytes = 0) : x.Tame := by
  refine h.imp_right fun hnone => ⟨hnone, ?_, ?_⟩
  · rw [h0]
    decide
  · rw [h0]
    decide

/-! ### The reader -/

section Reader

variable (m : ReaderMethods W)

/-- The bytes skipped at once are never a negative number, as long as neither
`skip_bytes` nor the number of bytes in `in` is out of range. -/
theorem skipNow_nonneg {s r : ℤ} (hs : -2 ^ 31 < s) (hs0 : s < 0) (hr : 0 ≤ r) :
    0 ≤ skipNow s r ∧ skipNow s r ≤ -s := by
  unfold skipNow
  rw [wrap32_of_fits (by omega) (by omega)]
  split_ifs <;> omega

theorem totalBytes_of_lt {raw : Bytes} (h : raw.length < 2 ^ 31) : totalBytes raw = raw.length :=
  wrap32_of_fits (by omega) (by omega)

theorem readerFill_skipBytes (c : Conn W) (queue : List Bytes) :
    (readerFill c queue).skipBytes = c.skipBytes := by
  unfold readerFill
  split_ifs <;> rfl

theorem httpStreamUnwrapPrecrypto_skipBytes (c : Conn W) :
    (httpStreamUnwrapPrecrypto c).1.skipBytes = c.skipBytes := by
  unfold httpStreamUnwrapPrecrypto
  dsimp only
  split <;> rfl

/-- Decryption and unwrapping end without a fault of the reader, and `skip_bytes` is
what it was. -/
theorem readerDecode_spec (c : Conn W) :
    (∀ c', readerDecode m c = .ok c' → c'.skipBytes = c.skipBytes) ∧
      ∀ exit, readerDecode m c = .error exit →
        (∃ a, exit = .error (.method a)) ∨
          ∃ c', exit = .ok ⟨c', -1, []⟩ ∧ c'.skipBytes = c.skipBytes := by
  unfold readerDecode
  by_cases hcrypto : c.crypto.isSome = true
  · rw [if_pos hcrypto]
    cases hdec : m.cryptoDecryptInput c with
    | error a => exact ⟨fun c' h => (nomatch h), fun exit h => Or.inl ⟨a, (Except.error.inj h).symm⟩⟩
    | ok p =>
      obtain ⟨c1, r⟩ := p
      have hskip := m.cryptoDecryptInput_skipBytes c c1 r hdec
      simp only
      split_ifs
      · exact ⟨fun c' h => (nomatch h),
          fun exit h => Or.inr ⟨c1, (Except.error.inj h).symm, hskip⟩⟩
      · exact ⟨fun c' h => Except.ok.inj h ▸ hskip, fun exit h => (nomatch h)⟩
  · rw [if_neg hcrypto]
    by_cases hmode : c.transportMode = .httpStream
    · rw [if_pos hmode]
      have hskip := httpStreamUnwrapPrecrypto_skipBytes c
      cases hun : httpStreamUnwrapPrecrypto c with
      | mk c1 r =>
        rw [hun] at hskip
        simp only
        split_ifs
        · exact ⟨fun c' h => (nomatch h),
            fun exit h => Or.inr ⟨c1, (Except.error.inj h).symm, hskip⟩⟩
        · exact ⟨fun c' h => Except.ok.inj h ▸ hskip, fun exit h => (nomatch h)⟩
    · rw [if_neg hmode]
      exact ⟨fun c' h => Except.ok.inj h ▸ rfl, fun exit h => (nomatch h)⟩

/-- The tests of the flags pass the connection on as it is, or leave with it. -/
theorem readerFlags_spec (c : Conn W) :
    (∀ c', readerFlags c = .ok c' → c' = c ∧ ¬ c.cError) ∧
      ∀ exit, readerFlags c = .error exit → ∃ ret, exit = .ok ⟨c, ret, []⟩ := by
  unfold readerFlags
  by_cases h1 : c.cFailed ∨ c.cError ∨ c.cNetFailed
  · rw [if_pos h1]
    exact ⟨fun c' h => (nomatch h), fun exit h => ⟨-1, (Except.error.inj h).symm⟩⟩
  · rw [if_neg h1]
    by_cases h2 : c.cStopRead = true
    · rw [if_pos h2]
      exact ⟨fun c' h => (nomatch h), fun exit h => ⟨0, (Except.error.inj h).symm⟩⟩
    · rw [if_neg h2]
      refine ⟨fun c' h => ⟨(Except.ok.inj h).symm, fun hc => h1 (Or.inr (Or.inl hc))⟩,
        fun exit h => (nomatch h)⟩

/-- **Skipping in range.**  With `skip_bytes` and the number of bytes in range the
assertion holds; what is passed on has nothing more to skip, and what is left with has a
`skip_bytes` in range. -/
theorem readerSkip_spec (c : Conn W) (h1 : -2 ^ 31 < c.skipBytes) (h2 : c.skipBytes < 2 ^ 31)
    (hlen : c.inp.length < 2 ^ 31) :
    (∀ c', readerSkip c = .ok c' → c'.skipBytes = 0) ∧
      ∀ exit, readerSkip c = .error exit →
        ∃ c', exit = .ok ⟨c', 0, []⟩ ∧ -2 ^ 31 < c'.skipBytes ∧ c'.skipBytes < 2 ^ 31 := by
  unfold readerSkip
  rw [totalBytes_of_lt hlen]
  by_cases hneg : c.skipBytes < 0
  · have hskip := skipNow_nonneg h1 hneg (Int.natCast_nonneg c.inp.length)
    have hwrap : wrap32 (c.skipBytes + skipNow c.skipBytes c.inp.length) =
        c.skipBytes + skipNow c.skipBytes c.inp.length := wrap32_of_fits (by omega) (by omega)
    simp only [if_pos hneg, if_neg (not_lt.mpr hskip.1), hwrap]
    split_ifs with hs
    · refine ⟨fun c' h => (nomatch h), fun exit h => ⟨_, (Except.error.inj h).symm, ?_⟩⟩
      constructor <;> (dsimp only; omega)
    · refine ⟨fun c' h => ?_, fun exit h => (nomatch h)⟩
      cases h
      exact not_not.mp hs
  · simp only [if_neg hneg]
    split_ifs with hpos hge
    · refine ⟨fun c' h => ?_, fun exit h => (nomatch h)⟩
      cases h
      rfl
    · exact ⟨fun c' h => (nomatch h), fun exit h => ⟨c, (Except.error.inj h).symm, h1, h2⟩⟩
    · refine ⟨fun c' h => ?_, fun exit h => (nomatch h)⟩
      cases h
      omega

/-- **The smallest `int` is no number of bytes.**  The reader of a connection that has it in
`skip_bytes` ends the process. -/
theorem cpuTcpServerReader_of_intMin {c d : Conn W} {queue : List Bytes}
    (hdec : readerDecode m (readerFill c queue) = .ok d) (hflags : readerFlags d = .ok d)
    (hs : d.skipBytes = -2 ^ 31) (hlen : d.inp.length < 2 ^ 31) (turns : ℕ) :
    cpuTcpServerReader m c queue turns = .error (.rwmProcessEx (-2 ^ 31)) := by
  have hnow : skipNow (-2 ^ 31) (totalBytes d.inp) = -2 ^ 31 := by
    have hwrap : wrap32 (-(-2 ^ 31)) = -2 ^ 31 := by decide
    rw [skipNow, hwrap, totalBytes_of_lt hlen, if_pos (by omega)]
  have hskip : readerSkip d = .error (.error (.rwmProcessEx (-2 ^ 31))) := by
    simp only [readerSkip, hs, hnow]
    rfl
  have hfront : readerFront m c queue = .error (.error (.rwmProcessEx (-2 ^ 31))) := by
    rw [readerFront, hdec]
    show (readerFlags d).bind readerSkip = _
    rw [hflags]
    exact hskip
  simp only [cpuTcpServerReader, hfront]

/-- What is stored after a harmless result is an `int` other than the smallest. -/
theorem skipAfter_lt (c : Conn W) (res : ℤ) : skipAfter c res < 2 ^ 31 := by
  unfold skipAfter
  split_ifs <;> exact wrap32_lt _

theorem le_skipAfter (c : Conn W) (res : ℤ) : -2 ^ 31 ≤ skipAfter c res := by
  unfold skipAfter
  split_ifs <;> exact le_wrap32 _

/-- The end of a call of the reader that leaves the connection as the invariant wants
it, and adds no `SKIP_ALL_BYTES` to the results of a connection that has not failed. -/
def ExitTame (exit : ReaderExit W) : Prop :=
  (∃ a, exit = .error (.method a)) ∨ ∃ r, exit = .ok r ∧ Reading.Tame ⟨r.conn, r.results⟩

/-- The last loop, turn by turn: nothing is to be skipped where a turn begins. -/
theorem readerTurn_tame (s : Conn W × List ℤ) (h : s.1.cError ∨ SKIP_ALL_BYTES ∉ s.2)
    (hskip : s.1.skipBytes = 0) (hturn : HarmlessTurn m s) :
    (∀ s', readerTurn m s = .again s' →
        (s'.1.cError ∨ SKIP_ALL_BYTES ∉ s'.2) ∧ s'.1.skipBytes = 0) ∧
      ∀ exit, readerTurn m s = .done exit → ExitTame exit := by
  obtain ⟨c, results⟩ := s
  have htame : Reading.Tame ⟨c, results⟩ := Reading.tame_of_zero h hskip
  unfold readerTurn
  simp only
  by_cases hstop : ReaderStops c
  · rw [if_pos hstop]
    exact ⟨fun s' h => (nomatch h),
      fun exit h => Or.inr ⟨_, (Turn.done.inj h).symm, htame⟩⟩
  · rw [if_neg hstop]
    have hlive : ¬ c.cError := fun hc => hstop (Or.inr (Or.inl hc))
    have hnone : SKIP_ALL_BYTES ∉ results := h.resolve_left hlive
    cases hparse : m.parseExecute c with
    | error a => exact ⟨fun s' h => (nomatch h), fun exit h => Or.inl ⟨a, (Turn.done.inj h).symm⟩⟩
    | ok p =>
      obtain ⟨c1, res⟩ := p
      have hskip1 : c1.skipBytes = 0 := (m.parseExecute_skipBytes c c1 res hparse).trans hskip
      have hharm := hturn c1 res hstop hparse
      -- The result just returned keeps the list free of `SKIP_ALL_BYTES`, or the
      -- connection has failed.
      have hresults : c1.cError ∨ SKIP_ALL_BYTES ∉ results ++ [res] := by
        refine hharm.imp_right fun hres hmem => ?_
        rcases List.mem_append.mp hmem with h' | h'
        · exact hnone h'
        · exact hres.1 (List.mem_singleton.mp h').symm
      simp only
      split_ifs with h0 h1
      · refine ⟨fun s' h => ?_, fun exit h => (nomatch h)⟩
        cases h
        exact ⟨hresults, hskip1⟩
      · refine ⟨fun s' h => (nomatch h), fun exit h => Or.inr ⟨_, (Turn.done.inj h).symm, ?_⟩⟩
        rcases hharm with hc | ⟨hall, hres | hres | hres⟩
        · exact Or.inl hc
        · exact absurd hres h0
        · exact absurd hres h1
        · refine Or.inr ⟨?_, lt_of_le_of_ne (le_skipAfter c1 res) (Ne.symm hres),
            skipAfter_lt c1 res⟩
          intro hmem
          rcases List.mem_append.mp hmem with h' | h'
          · exact hnone h'
          · exact hall (List.mem_singleton.mp h').symm
      · refine ⟨fun s' h => (nomatch h), fun exit h => Or.inr ⟨_, (Turn.done.inj h).symm, ?_⟩⟩
        exact Reading.tame_of_zero hresults hskip1

/-- **One call of the reader.**  On a connection whose `skip_bytes` is in range, with `in`
in range and every result harmless, it ends as the invariant wants it. -/
theorem cpuTcpServerReader_tame (c : Conn W) (queue : List Bytes) (turns : ℕ)
    (h1 : -2 ^ 31 < c.skipBytes) (h2 : c.skipBytes < 2 ^ 31)
    (hlen : ∀ c', readerDecode m (readerFill c queue) = .ok c' → c'.inp.length < 2 ^ 31)
    (hturns : ∀ c', readerFront m c queue = .ok c' →
      EachTurnFor (readerTurn m) (HarmlessTurn m) turns (c', [])) :
    ExitTame (cpuTcpServerReader m c queue turns) := by
  obtain ⟨hdecOk, hdecExit⟩ := readerDecode_spec m (readerFill c queue)
  rw [readerFill_skipBytes] at hdecOk hdecExit
  have hnil (c' : Conn W) : c'.cError ∨ SKIP_ALL_BYTES ∉ ([] : List ℤ) := Or.inr (List.not_mem_nil)
  unfold cpuTcpServerReader
  cases hfront : readerFront m c queue with
  | error exit =>
    simp only
    rcases bind_error_iff.mp hfront with hdec | ⟨c1, hdec, hrest⟩
    · refine (hdecExit exit hdec).imp_right ?_
      rintro ⟨c', rfl, hskip⟩
      exact ⟨_, rfl, Or.inr ⟨List.not_mem_nil, hskip ▸ h1, hskip ▸ h2⟩⟩
    · have hskip1 := hdecOk c1 hdec
      rcases bind_error_iff.mp hrest with hflags | ⟨c2, hflags, hskip⟩
      · obtain ⟨ret, rfl⟩ := (readerFlags_spec c1).2 exit hflags
        exact Or.inr ⟨_, rfl, Or.inr ⟨List.not_mem_nil, hskip1 ▸ h1, hskip1 ▸ h2⟩⟩
      · obtain ⟨rfl, -⟩ := (readerFlags_spec c1).1 c2 hflags
        obtain ⟨c', rfl, h3, h4⟩ :=
          (readerSkip_spec c2 (hskip1 ▸ h1) (hskip1 ▸ h2) (hlen c2 hdec)).2 exit hskip
        exact Or.inr ⟨_, rfl, Or.inr ⟨List.not_mem_nil, h3, h4⟩⟩
  | ok c3 =>
    obtain ⟨c1, hdec, hrest⟩ := bind_ok_iff.mp hfront
    obtain ⟨c2, hflags, hskip⟩ := bind_ok_iff.mp hrest
    obtain ⟨rfl, -⟩ := (readerFlags_spec c1).1 c2 hflags
    have hskip1 := hdecOk c2 hdec
    have hzero := (readerSkip_spec c2 (hskip1 ▸ h1) (hskip1 ▸ h2) (hlen c2 hdec)).1 c3 hskip
    have hloop := loopFor_inv_of_eachTurnFor (f := readerTurn m) (P := HarmlessTurn m)
      (I := fun s => (s.1.cError ∨ SKIP_ALL_BYTES ∉ s.2) ∧ s.1.skipBytes = 0) (Q := ExitTame)
      (fun s s' hI hP hb => (readerTurn_tame m s hI.1 hI.2 hP).1 s' hb)
      (fun s exit hI hP hb => (readerTurn_tame m s hI.1 hI.2 hP).2 exit hb)
      ⟨hnil c3, hzero⟩ (hturns c3 hfront)
    simp only
    cases hrun : loopFor (readerTurn m) turns (c3, []) with
    | done exit => exact hloop.2 exit hrun
    | again s =>
      obtain ⟨hres, hs0⟩ := hloop.1 s hrun
      exact Or.inr ⟨_, rfl, Reading.tame_of_zero hres hs0⟩

/-- **One event** keeps the invariant or ends in a failed assertion that is not the
reader's. -/
theorem readingStep_tame (x : Reading W) (e : ReaderEvent W) (hx : x.Tame)
    (hcond : ReadsTamely m (.ok x) e) :
    (∃ a, readingStep m (.ok x) e = .error (.method a)) ∨
      ∃ x', readingStep m (.ok x) e = .ok x' ∧ x'.Tame := by
  cases e with
  | other change =>
    refine Or.inr ⟨_, rfl, ?_⟩
    rcases hx with herr | ⟨hnone, h1, h2⟩
    · exact Or.inl (change.keeps_cError _ herr)
    · rcases change.keeps_skipBytes x.conn with hs | hs
      · exact Or.inr ⟨hnone, by rw [hs]; exact h1, by rw [hs]; exact h2⟩
      · exact Reading.tame_of_zero (Or.inr hnone) hs
  | run queue turns =>
    by_cases herr : x.conn.cError = true
    · refine Or.inr ⟨⟨x.conn, x.results ++ []⟩, ?_, Or.inl herr⟩
      rw [readingStep_run, jobRun, if_pos herr]
      rfl
    · obtain ⟨hnone, h1, h2⟩ := hx.resolve_left herr
      obtain ⟨hlen, hturns⟩ := hcond x queue turns rfl rfl herr
      rcases cpuTcpServerReader_tame m x.conn queue turns h1 h2 hlen hturns with
        ⟨a, ha⟩ | ⟨r, hr, htame⟩
      · refine Or.inl ⟨a, ?_⟩
        rw [readingStep_run, jobRun, if_neg herr, ha]
        rfl
      · refine Or.inr ⟨⟨r.conn, x.results ++ r.results⟩, ?_, ?_⟩
        · rw [readingStep_run, jobRun, if_neg herr, hr]
          rfl
        · exact htame.imp_right fun h =>
            ⟨fun hmem => (List.mem_append.mp hmem).elim hnone h.1, h.2⟩

/-- What a failed connection holds and what it was told do not change with a `JS_RUN`. -/
theorem discards_of_cError (x : Reading W) (e : ReaderEvent W)
    (h : SKIP_ALL_BYTES ∈ x.results → x.conn.cError) : Discards m (.ok x) e := by
  rintro y x' hy hmem hstep
  cases hy
  have herr := h hmem
  cases e with
  | other change =>
    cases hstep
    exact ⟨rfl, change.keeps_input x.conn⟩
  | run queue turns =>
    simp only [readingStep, Except.bind, jobRun, if_pos herr] at hstep
    cases hstep
    exact ⟨List.append_nil _, le_refl _⟩

end Reader

/-- The invariant of a run: tame, or ended by an assertion that is not the reader's. -/
def RunTame (s : ReadingRun W) : Prop :=
  (∃ a, s = .error (.method a)) ∨ ∃ x, s = .ok x ∧ x.Tame

theorem RunTame.step {m : ReaderMethods W} {s : ReadingRun W} {e : ReaderEvent W} (h : RunTame s)
    (hcond : ReadsTamely m s e) : RunTame (readingStep m s e) := by
  rcases h with ⟨a, rfl⟩ | ⟨x, rfl, hx⟩
  · exact Or.inl ⟨a, rfl⟩
  · exact readingStep_tame m x e hx hcond

theorem RunTame.neverNegative {s : ReadingRun W} (h : RunTame s) : NeverNegative s := by
  rcases h with ⟨a, rfl⟩ | ⟨x, rfl, -⟩
  · exact fun bytes h => nomatch h
  · exact fun bytes h => nomatch h

theorem RunTame.discards {m : ReaderMethods W} {s : ReadingRun W} {e : ReaderEvent W}
    (h : RunTame s) : Discards m s e := by
  rcases h with ⟨a, rfl⟩ | ⟨x, rfl, hx⟩
  · exact fun x x' hs => nomatch hs
  · exact discards_of_cError m x e fun hmem => hx.resolve_right fun hn => hn.1 hmem

/-- **The reader skips soundly while its steps are tame.**  In a run in which, whenever the
reader is called, `in` stays below the largest `int` and `parse_execute` returns nothing
harmful, no negative number of bytes is ever skipped, and after a `SKIP_ALL_BYTES` no byte
is kept and `parse_execute` is not called. -/
theorem readerRun_sound (m : ReaderMethods W) (c : Conn W) (es : List (ReaderEvent W))
    (hc : c.skipBytes = 0)
    (hrun : Along (readingStep m) (ReadsTamely m) (.ok ⟨c, []⟩) es) : ReaderSound m c es := by
  have h0 : RunTame (.ok ⟨c, []⟩ : ReadingRun W) :=
    Or.inr ⟨_, rfl, Reading.tame_of_zero (Or.inr List.not_mem_nil) hc⟩
  have hall : Throughout (readingStep m) RunTame (.ok ⟨c, []⟩) es :=
    throughout_of_along (fun s e => RunTame.step) h0 hrun
  exact ⟨hall.imp fun s => RunTame.neverNegative, along_of_throughout (fun s e => RunTame.discards) hall⟩

/-- The hypotheses of `readerRun_sound` hold of a run that brings the first two bytes of a
request. -/
theorem readerRun_sound_twoBytes :
    ReaderSound (clientMethods sampleServer) sampleAccepted [.run [ascii "PO"] 1] := by
  have hstages : parseStages sampleServer { sampleAccepted with inp := ascii "PO" } =
      .error (.ret { sampleAccepted with inp := ascii "PO" } NEED_MORE_BYTES) := rfl
  have hparse := tcpRpcsCompactParseExecute_of_error sampleServer hstages
  refine readerRun_sound _ _ _ rfl ⟨?_, trivial⟩
  rintro x queue turns hx he -
  cases hx
  cases he
  constructor
  · intro c hc
    cases hc
    decide
  · intro c hc
    cases hc
    refine ⟨?_, fun _ _ => trivial⟩
    intro c' res _ hres
    cases Except.ok.inj (hparse.symm.trans hres)
    exact Or.inr ⟨by decide, Or.inr (Or.inl rfl)⟩

/-- A `POST` request without a body, and four bytes that are no Session Header. -/
def sampleProbe : Bytes := ascii "POST / HTTP/1.1\r\n\r\n" ++ [0xFF, 0xFF, 0xFF, 0xFF]

/-- **The reader does not skip soundly.**  A request without `Transfer-Encoding` and a bad
Session Header are dropped with `SKIP_ALL_BYTES`, and the next `JS_RUN` skips `INT_MIN`
bytes. -/
theorem readerRun_not_sound :
    ¬ ReaderSound (clientMethods sampleServer) sampleAccepted
      [.run [sampleProbe] 1, .run [[0]] 1] := by
  rintro ⟨hnever, -⟩
  obtain ⟨c, hstages, hcrypto, hmode, hflags, hinp, hinU⟩ : ∃ c,
      parseStages sampleServer { sampleAccepted with inp := sampleProbe } =
        .error (.ret c SKIP_ALL_BYTES) ∧
      c.crypto = none ∧ c.transportMode = .httpStreamRaw ∧
      (c.cError = false ∧ c.cFailed = false ∧ c.cNetFailed = false ∧ c.cStopRead = false) ∧
      c.inp = [0xFF, 0xFF, 0xFF, 0xFF] ∧ c.inU = [] :=
    ⟨_, rfl, rfl, rfl, ⟨rfl, rfl, rfl, rfl⟩, rfl, rfl⟩
  have hparse : (clientMethods sampleServer).parseExecute
      { sampleAccepted with inp := sampleProbe } = .ok (c, SKIP_ALL_BYTES) :=
    tcpRpcsCompactParseExecute_of_error sampleServer hstages
  have hskip : skipAfter c SKIP_ALL_BYTES = -2 ^ 31 := by
    simp only [skipAfter, hcrypto, hinU]
    rfl
  -- The first read drops the session, with the smallest `int` in `skip_bytes`.
  have hturn : readerTurn (clientMethods sampleServer)
      ({ sampleAccepted with inp := sampleProbe }, []) = _ :=
    readerTurn_of_skip (by decide) hparse (by decide) (by decide)
  have hfront : readerFront (clientMethods sampleServer) sampleAccepted [sampleProbe] =
      .ok { sampleAccepted with inp := sampleProbe } := rfl
  have hreader := cpuTcpServerReader_of_done hfront hturn 0
  have hfirst : readingStep (clientMethods sampleServer) (.ok ⟨sampleAccepted, []⟩)
      (.run [sampleProbe] 1) = .ok ⟨{ c with skipBytes := -2 ^ 31 }, [SKIP_ALL_BYTES]⟩ := by
    rw [← hskip]
    exact congrArg (Except.map fun r => (⟨r.conn, [] ++ r.results⟩ : Reading Unit)) hreader
  -- The second read is of one byte.
  have hdec : readerDecode (clientMethods sampleServer)
      (readerFill { c with skipBytes := -2 ^ 31 } [[0]]) =
        .ok { c with skipBytes := -2 ^ 31, inp := c.inp ++ [0] } := by
    simp only [readerDecode, readerFill, hcrypto, hmode]
    rfl
  have hsecond := cpuTcpServerReader_of_intMin _ hdec
    (by simp only [readerFlags, hflags]; rfl) rfl (by simp only [hinp]; decide) 1
  have hlast := hnever.finish
  rw [finish_cons, hfirst, finish_cons, finish_nil] at hlast
  refine hlast (-2 ^ 31) ?_
  have hlive : ({ c with skipBytes := -2 ^ 31 } : Conn Unit).cError = false := hflags.1
  exact congrArg (Except.map _) ((jobRun_of_live hlive _ _).trans hsecond)

end Server
end Teleproto3
