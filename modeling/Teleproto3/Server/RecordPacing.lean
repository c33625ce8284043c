/-
# TLS records of changing sizes

`server/src/net/net-tcp-drs.c`: what a client of fake TLS is sent goes out in records that grow
with the connection, and the first of them may be followed by a delay, for which a timer is set
and `delay_pending`.  Until the timer has cleared that nothing more is encrypted.

A delay is drawn from a Weibull distribution in floating point.  Here it is whatever the
surroundings say.
-/

import Teleproto3.Server.Alarm
import Teleproto3.Server.Writer

namespace Teleproto3
namespace Server

open Lib

/-! ### Sizes -/

/-- `DRS_PHASE1_END`: slow start, records of the size of a segment. -/
def DRS_PHASE1_END : ℕ := 40

/-- `DRS_PHASE2_END`: intermediate records. -/
def DRS_PHASE2_END : ℕ := 60

/-- `DRS_SIZE_START`. -/
def DRS_SIZE_START : ℕ := 1450

/-- `DRS_SIZE_ACCEL`. -/
def DRS_SIZE_ACCEL : ℕ := 4096

/-- `DRS_SIZE_MAX`. -/
def DRS_SIZE_MAX : ℕ := 16144

/-- `DRS_RESET_AFTER`, in seconds. -/
def DRS_RESET_AFTER : ℚ := 1

/-- `DRS_DELAY_RESET_AFTER`, in seconds. -/
def DRS_DELAY_RESET_AFTER : ℚ := 30

/-- `DRS_NOISE_RANGE`. -/
def DRS_NOISE_RANGE : ℕ := 201

/-- `DRS_NOISE_OFFSET`. -/
def DRS_NOISE_OFFSET : ℕ := 100

/-- `DRS_BURST_THRESHOLD`: no delays where more than this is left. -/
def DRS_BURST_THRESHOLD : ℕ := DRS_SIZE_MAX

/-- `DRS_DELAY_RECORDS`. -/
def DRS_DELAY_RECORDS : ℕ := 1

/-- `struct drs_state`. -/
structure DrsState where
  recordIndex : ℕ
  totalRecords : ℕ
  lastRecordTime : ℚ
  delayPending : Bool
  deriving DecidableEq, Repr

/-- What the records take from around a connection. -/
structure DrsEnv (W : Type*) where
  server : ExtServerEnv W
  writer : WriterEnv W
  /-- `drs_delays_enabled` -/
  drsDelaysEnabled : Bool
  /-- `drs_sample_delay`, in seconds -/
  drsSampleDelay : W → ℚ × W

variable {W : Type*} (env : DrsEnv W)

/-- The size of a record but for the noise. -/
def drsBaseSize (recordIndex : ℕ) : ℕ :=
  if recordIndex < DRS_PHASE1_END then DRS_SIZE_START
  else if recordIndex < DRS_PHASE2_END then DRS_SIZE_ACCEL
  else DRS_SIZE_MAX

/-- `drs_record_size`. -/
def drsRecordSize (w : W) (recordIndex : ℕ) : ℕ × W :=
  let (x, w) := env.writer.lrand48 w
  let size := drsBaseSize recordIndex + x % DRS_NOISE_RANGE - DRS_NOISE_OFFSET
  (if size < 64 then 64 else size, w)

/-- A record is never empty. -/
theorem drsRecordSize_pos (w : W) (recordIndex : ℕ) : 0 < (drsRecordSize env w recordIndex).1 := by
  unfold drsRecordSize
  dsimp only
  split_ifs <;> omega

/-- What a second without a record resets, and what half a minute does. -/
def DrsState.idle (drs : DrsState) (preciseNow : ℚ) : DrsState :=
  let drs :=
    if preciseNow - drs.lastRecordTime > DRS_RESET_AFTER then
      { drs with recordIndex := 0, delayPending := false }
    else drs
  if preciseNow - drs.lastRecordTime > DRS_DELAY_RESET_AFTER then { drs with totalRecords := 0 }
  else drs

/-- A record has been sent. -/
def DrsState.sent (drs : DrsState) (preciseNow : ℚ) : DrsState :=
  { drs with
    recordIndex := drs.recordIndex + 1
    totalRecords := drs.totalRecords + 1
    lastRecordTime := preciseNow }

/-- Whether a record that leaves so many bytes is followed by the next one at once. -/
def DrsState.Bursts (drs : DrsState) (left : ℕ) : Prop :=
  left > DRS_BURST_THRESHOLD ∨ drs.totalRecords ≥ DRS_PHASE2_END ∨
    drs.recordIndex > DRS_DELAY_RECORDS

instance (drs : DrsState) (left : ℕ) : Decidable (drs.Bursts left) := by
  unfold DrsState.Bursts
  infer_instance

theorem DrsState.idle_delayPending {drs : DrsState} (h : drs.delayPending = false)
    (preciseNow : ℚ) : (drs.idle preciseNow).delayPending = false := by
  unfold DrsState.idle
  dsimp only
  split_ifs <;> first | rfl | exact h

/-! ### Records -/

/-- A connection with its `drs_state`. -/
structure DrsConn (W : Type*) where
  conn : Conn W
  drs : DrsState

/-- The next `len` bytes of `out`, encrypted behind a header. -/
def recordPiece (c : Conn W) (T : AesCrypto) (len : ℕ) (header : Bytes) : Conn W :=
  { c with
    crypto := some { T with write := ⟨T.write.ks, T.write.pos + len⟩ }
    out := c.out.drop len
    outP := c.outP ++ header ++ xorAt T.write.ks T.write.pos (c.out.take len) }

/-- What the record before a delay leaves. -/
def delayRecord (x : DrsConn W) : DrsConn W :=
  let (delay, world) := env.drsSampleDelay x.conn.world
  { conn := { x.conn with
      world := world
      timer := some (env.server.preciseNow x.conn.world + delay) }
    drs := { x.drs with delayPending := true } }

/-- A record of TLS: the next bytes of `out`, as many as the size that is drawn for it. -/
def tlsRecord (x : DrsConn W) (T : AesCrypto) : DrsConn W :=
  let now := env.server.preciseNow x.conn.world
  let drs := x.drs.idle now
  let (maxLen, world) := drsRecordSize env x.conn.world drs.recordIndex
  let len := min maxLen x.conn.out.length
  { conn := recordPiece { x.conn with world := world } T len
      [0x17, 0x03, 0x03, UInt8.ofNat (len / 256), UInt8.ofNat len]
    drs := drs.sent now }

/-- A turn of the loop. -/
def recordTurn (x : DrsConn W) : Turn (DrsConn W) (Except WriterAbort (DrsConn W)) :=
  match x.conn.crypto with
  | none => .done (.error .crypto)
  | some T =>
    if x.conn.out.length = 0 then .done (.ok x)
    else if x.conn.cIsTls = false then
      .again { x with conn := recordPiece x.conn T x.conn.out.length [] }
    else if x.conn.leftTlsPacketLength < 0 then .done (.error .leftTlsPacketLength)
    else
      let x := tlsRecord env x T
      if env.drsDelaysEnabled ∧ 0 < x.conn.out.length ∧ ¬ x.drs.Bursts x.conn.out.length then
        .done (.ok (delayRecord env x))
      else .again x

/-- What a turn comes to. -/
theorem recordTurn_cases (x : DrsConn W) :
    (∃ a, recordTurn env x = .done (.error a)) ∨ recordTurn env x = .done (.ok x) ∨
      (∃ T, recordTurn env x =
        .again { x with conn := recordPiece x.conn T x.conn.out.length [] }) ∨
      ∃ T, recordTurn env x = .again (tlsRecord env x T) ∨
        recordTurn env x = .done (.ok (delayRecord env (tlsRecord env x T))) ∧
          0 < (tlsRecord env x T).conn.out.length := by
  unfold recordTurn
  cases x.conn.crypto with
  | none => exact Or.inl ⟨_, rfl⟩
  | some T =>
    dsimp only
    split_ifs with hout htls hleft hdelay
    · exact Or.inr (Or.inl rfl)
    · exact Or.inr (Or.inr (Or.inl ⟨T, rfl⟩))
    · exact Or.inl ⟨_, rfl⟩
    · exact Or.inr (Or.inr (Or.inr ⟨T, Or.inr ⟨rfl, hdelay.2.1⟩⟩))
    · exact Or.inr (Or.inr (Or.inr ⟨T, Or.inl rfl⟩))

theorem tlsRecord_out (x : DrsConn W) (T : AesCrypto) (hout : x.conn.out.length ≠ 0) :
    (tlsRecord env x T).conn.out.length < x.conn.out.length := by
  have hpos := drsRecordSize_pos env x.conn.world
    (x.drs.idle (env.server.preciseNow x.conn.world)).recordIndex
  show (x.conn.out.drop (min (drsRecordSize env x.conn.world _).1 _)).length < x.conn.out.length
  rw [List.length_drop]
  exact Nat.sub_lt (Nat.pos_of_ne_zero hout) (lt_min hpos (Nat.pos_of_ne_zero hout))

theorem recordTurn_shrinks : Shrinks (recordTurn env) fun x => x.conn.out.length := by
  intro x x' h
  unfold recordTurn at h
  cases hT : x.conn.crypto with
  | none =>
    rw [hT] at h
    exact nomatch h
  | some T =>
    rw [hT] at h
    dsimp only at h
    split_ifs at h with hout htls hleft hdelay
    · obtain rfl := Turn.again.inj h
      show (x.conn.out.drop x.conn.out.length).length < x.conn.out.length
      rw [List.length_drop]
      omega
    · obtain rfl := Turn.again.inj h
      exact tlsRecord_out env x T hout

/-- `cpu_tcp_aes_crypto_ctr128_encrypt_output_drs`. -/
def cpuTcpAesCryptoCtr128EncryptOutputDrs (x : DrsConn W) : Except WriterAbort (DrsConn W) :=
  match x.conn.crypto with
  | none => .error .crypto
  | some _ =>
    if x.conn.cIsTls ∧ x.drs.delayPending then .ok x
    else loop (recordTurn env) (fun x => x.conn.out.length) (recordTurn_shrinks env) x

/-- What encryption touches: the output, the cipher, the world and the timer. -/
structure EncryptFrame (c c' : Conn W) : Prop where
  crypto : c.crypto.isSome = true → c'.crypto.isSome = true
  rest : c' = { c with
    crypto := c'.crypto
    out := c'.out
    outP := c'.outP
    world := c'.world
    timer := c'.timer }

theorem EncryptFrame.refl (c : Conn W) : EncryptFrame c c := ⟨id, rfl⟩

theorem EncryptFrame.trans {a b c : Conn W} (h : EncryptFrame a b) (h' : EncryptFrame b c) :
    EncryptFrame a c where
  crypto := h'.crypto ∘ h.crypto
  rest := h'.rest.trans (by rw [h.rest])

theorem tlsRecord_frame (x : DrsConn W) (T : AesCrypto) :
    EncryptFrame x.conn (tlsRecord env x T).conn ∧
      (tlsRecord env x T).conn.timer = x.conn.timer :=
  ⟨⟨fun _ => rfl, rfl⟩, rfl⟩

variable {env} {x y : DrsConn W}

/-- **Encryption.**  A delay that is pending stays, with its timer.  Otherwise either all is
encrypted, and the timer is as before, or a delay has begun: bytes are left, and the timer is set
for it. -/
theorem cpuTcpAesCryptoCtr128EncryptOutputDrs_spec
    (h : cpuTcpAesCryptoCtr128EncryptOutputDrs env x = .ok y) :
    EncryptFrame x.conn y.conn ∧
      ((x.conn.cIsTls = true ∧ x.drs.delayPending = true) ∧ y = x ∨
        (x.drs.delayPending = false → y.drs.delayPending = false ∧ y.conn.timer = x.conn.timer ∨
          y.drs.delayPending = true ∧ y.conn.timer.isSome = true ∧ y.conn.out ≠ [])) := by
  unfold cpuTcpAesCryptoCtr128EncryptOutputDrs at h
  cases hT : x.conn.crypto with
  | none =>
    rw [hT] at h
    exact nomatch h
  | some T =>
    rw [hT] at h
    dsimp only at h
    by_cases hpending : x.conn.cIsTls = true ∧ x.drs.delayPending = true
    · rw [if_pos hpending] at h
      obtain rfl := Except.ok.inj h
      exact ⟨.refl _, Or.inl ⟨hpending, rfl⟩⟩
    rw [if_neg hpending] at h
    have hrule := loop_inv (recordTurn_shrinks env) (s := x)
      (I := fun z => EncryptFrame x.conn z.conn ∧ (x.drs.delayPending = false →
        z.drs.delayPending = false ∧ z.conn.timer = x.conn.timer))
      (Q := fun r => ∀ y, r = .ok y → EncryptFrame x.conn y.conn ∧
        (x.drs.delayPending = false → y.drs.delayPending = false ∧ y.conn.timer = x.conn.timer ∨
          y.drs.delayPending = true ∧ y.conn.timer.isSome = true ∧ y.conn.out ≠ []))
      ?_ ?_ ⟨.refl _, fun h => ⟨h, rfl⟩⟩
    · obtain ⟨hframe, hends⟩ := hrule y h
      exact ⟨hframe, Or.inr hends⟩
    · rintro z z' ⟨hframe, hnone⟩ hturn
      rcases recordTurn_cases env z with ⟨a, heq⟩ | heq | ⟨T', heq⟩ | ⟨T', heq | ⟨heq, -⟩⟩
      · exact nomatch heq.symm.trans hturn
      · exact nomatch heq.symm.trans hturn
      · obtain rfl := Turn.again.inj (heq.symm.trans hturn)
        exact ⟨hframe.trans ⟨fun _ => rfl, rfl⟩, hnone⟩
      · obtain rfl := Turn.again.inj (heq.symm.trans hturn)
        obtain ⟨hrecord, hsame⟩ := tlsRecord_frame env z T'
        refine ⟨hframe.trans hrecord, fun hx => ?_⟩
        obtain ⟨hdelay, htimer⟩ := hnone hx
        exact ⟨DrsState.idle_delayPending hdelay _, hsame.trans htimer⟩
      · exact nomatch heq.symm.trans hturn
    · rintro z r ⟨hframe, hnone⟩ hturn y rfl
      rcases recordTurn_cases env z with ⟨a, heq⟩ | heq | ⟨T', heq⟩ | ⟨T', heq | ⟨heq, hleft⟩⟩
      · exact nomatch Turn.done.inj (heq.symm.trans hturn)
      · obtain rfl := Except.ok.inj (Turn.done.inj (heq.symm.trans hturn))
        exact ⟨hframe, fun hx => Or.inl (hnone hx)⟩
      · exact nomatch heq.symm.trans hturn
      · exact nomatch heq.symm.trans hturn
      · obtain rfl := Except.ok.inj (Turn.done.inj (heq.symm.trans hturn))
        refine ⟨(hframe.trans (tlsRecord_frame env z T').1).trans ⟨id, rfl⟩, fun _ =>
          Or.inr ⟨rfl, rfl, ?_⟩⟩
        exact List.length_pos_iff.mp hleft

/-- **A record that is followed by a delay.** -/
theorem cpuTcpAesCryptoCtr128EncryptOutputDrs_delays {T : AesCrypto}
    (hcrypto : x.conn.crypto = some T) (htls : x.conn.cIsTls = true)
    (hleft : 0 ≤ x.conn.leftTlsPacketLength) (hdelay : x.drs.delayPending = false)
    (henabled : env.drsDelaysEnabled = true) (hout : x.conn.out.length ≠ 0)
    (hmore : 0 < (tlsRecord env x T).conn.out.length)
    (hbursts : ¬ (tlsRecord env x T).drs.Bursts (tlsRecord env x T).conn.out.length) :
    cpuTcpAesCryptoCtr128EncryptOutputDrs env x = .ok (delayRecord env (tlsRecord env x T)) := by
  have hturn : recordTurn env x = .done (.ok (delayRecord env (tlsRecord env x T))) := by
    unfold recordTurn
    rw [hcrypto]
    dsimp only
    rw [if_neg hout, if_neg (by rw [htls]; decide), if_neg (by omega),
      if_pos ⟨henabled, hmore, hbursts⟩]
  unfold cpuTcpAesCryptoCtr128EncryptOutputDrs
  rw [hcrypto]
  dsimp only
  rw [if_neg (by rw [hdelay]; exact fun h => nomatch h.2)]
  exact loop_of_done _ hturn

end Server
end Teleproto3
