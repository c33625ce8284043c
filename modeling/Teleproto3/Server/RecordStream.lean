/-
# The stream of TLS records

What `cpu_tcp_aes_crypto_ctr128_encrypt_output_drs` puts into `out_p` over the life of a
connection, however long its records are, and wherever a delay interrupts it.

`drsOutput_records` is about the function, for whatever happens between its calls: data is written,
time passes, a delay is over.  What it has put out is records of application data, and their
payloads are the encryption of what has been written, but for what is still in `out`, which is
nothing when it returns without a delay.  `drsRun_records` says that the reader, the writer and the
alarms of a connection are such a run, and `firstTlsPacket_left` that the assertion of the function
holds from the handshake on.
-/

import Teleproto3.Lib.Framing
import Teleproto3.Server.OutputFraming
import Teleproto3.Server.WakeUps

namespace Teleproto3
namespace Server

open Lib

/-! ### Records -/

/-- The longest payload of a TLS record. -/
def TLS_MAX_PAYLOAD : ℕ := 16384

/-- A record of application data. -/
def tlsDataRecord (p : Bytes) : Bytes :=
  [0x17, 0x03, 0x03, UInt8.ofNat (p.length / 256), UInt8.ofNat p.length] ++ p

/-- The receiver of such records: the first payload, where all of it is there. -/
def readTlsRecord (bs : Bytes) : Option (Bytes × ℕ) :=
  match bs with
  | 0x17 :: 0x03 :: 0x03 :: hi :: lo :: rest =>
    let n := beValue [hi, lo]
    if n ≤ rest.length then some (rest.take n, 5 + n) else none
  | _ => none

theorem readTlsRecord_reads {p : Bytes} (h : p.length < 65536) :
    Reads readTlsRecord (tlsDataRecord p) p := by
  intro rest
  have hsize : beValue [UInt8.ofNat (p.length / 256), UInt8.ofNat p.length] = p.length :=
    beValue_beBytes 2 p.length h
  have hle : p.length ≤ (p ++ rest).length := by simp
  have hlen : (tlsDataRecord p).length = 5 + p.length := by
    rw [tlsDataRecord, List.length_append]
    rfl
  rw [hlen]
  simp only [tlsDataRecord, List.cons_append, List.nil_append, readTlsRecord, hsize, if_pos hle]
  rw [List.take_left]

/-- The sizes of records are within what TLS allows. -/
theorem drsRecordSize_le {W : Type*} (env : DrsEnv W) (w : W) (recordIndex : ℕ) :
    (drsRecordSize env w recordIndex).1 ≤ TLS_MAX_PAYLOAD := by
  have hbase : drsBaseSize recordIndex ≤ 16144 := by
    unfold drsBaseSize
    split_ifs <;> decide
  unfold drsRecordSize
  generalize env.writer.lrand48 w = r
  have hnoise : r.1 % DRS_NOISE_RANGE < 201 := Nat.mod_lt _ (by decide)
  have hsize : drsBaseSize recordIndex + r.1 % DRS_NOISE_RANGE - DRS_NOISE_OFFSET ≤ 16244 := by
    have hoffset : DRS_NOISE_OFFSET = 100 := rfl
    omega
  have hmax : TLS_MAX_PAYLOAD = 16384 := rfl
  dsimp only
  split_ifs <;> omega

/-! ### One call -/

section Call

variable {W : Type*} (env : DrsEnv W)

/-- What a call has done with `data`, the front of `out`: it has gone out in records that carry
`ps`. -/
structure SealsData (T : AesCrypto) (x y : DrsConn W) (data : Bytes) (ps : List Bytes) : Prop where
  crypto : y.conn.crypto = some { T with write := ⟨T.write.ks, T.write.pos + data.length⟩ }
  out : x.conn.out = data ++ y.conn.out
  outP : y.conn.outP = x.conn.outP ++ ps.flatMap tlsDataRecord
  pieces : Pieces T.write.ks T.write.pos data ps
  cIsTls : y.conn.cIsTls = x.conn.cIsTls
  leftTlsPacketLength : y.conn.leftTlsPacketLength = x.conn.leftTlsPacketLength

/-- A call that encrypts nothing. -/
theorem SealsData.refl {T : AesCrypto} {x : DrsConn W} (hT : x.conn.crypto = some T) :
    SealsData T x x [] [] :=
  ⟨hT, rfl, (List.append_nil _).symm, ⟨rfl, fun _ hp => nomatch hp⟩, rfl, rfl⟩

/-- The bytes of the first record. -/
theorem tlsRecord_seals {T : AesCrypto} {x : DrsConn W} (hout : x.conn.out ≠ []) :
    ∃ len, 0 < len ∧ len ≤ x.conn.out.length ∧
      SealsData T x (tlsRecord env x T) (x.conn.out.take len)
        [xorAt T.write.ks T.write.pos (x.conn.out.take len)] := by
  have hpos : 0 < x.conn.out.length := List.length_pos_iff.mpr hout
  generalize hsize : (drsRecordSize env x.conn.world
    (x.drs.idle (env.server.preciseNow x.conn.world)).recordIndex).1 = maxLen
  have hmin : 0 < maxLen := hsize ▸ drsRecordSize_pos env _ _
  have hmax : maxLen ≤ TLS_MAX_PAYLOAD := hsize ▸ drsRecordSize_le env _ _
  have hlen : (x.conn.out.take (min maxLen x.conn.out.length)).length =
      min maxLen x.conn.out.length := by
    rw [List.length_take]
    omega
  refine ⟨min maxLen x.conn.out.length, lt_min hmin hpos, min_le_right _ _, ?_⟩
  obtain ⟨world, drs, hrecord⟩ : ∃ world drs, tlsRecord env x T =
      ⟨recordPiece { x.conn with world := world } T (min maxLen x.conn.out.length)
        [0x17, 0x03, 0x03, UInt8.ofNat (min maxLen x.conn.out.length / 256),
          UInt8.ofNat (min maxLen x.conn.out.length)], drs⟩ := by
    rw [← hsize]
    exact ⟨_, _, rfl⟩
  rw [hrecord]
  refine ⟨?_, (List.take_append_drop _ _).symm, ?_, ⟨?_, ?_⟩, rfl, rfl⟩
  · rw [hlen]
    rfl
  · rw [List.flatMap_cons, List.flatMap_nil, List.append_nil, tlsDataRecord, xorAt_length, hlen,
      ← List.append_assoc]
    rfl
  · exact List.append_nil _
  · intro p hp
    obtain rfl := List.mem_singleton.mp hp
    constructor
    · intro hnil
      have hzero := congrArg List.length hnil
      rw [xorAt_length, hlen, List.length_nil] at hzero
      omega
    · rw [xorAt_length, hlen]
      exact (min_le_left _ _).trans hmax

/-- Records behind others. -/
theorem SealsData.trans {T : AesCrypto} {x y z : DrsConn W} {data more : Bytes}
    {ps qs : List Bytes} (h : SealsData T x y data ps)
    (h' : SealsData { T with write := ⟨T.write.ks, T.write.pos + data.length⟩ } y z more qs) :
    SealsData T x z (data ++ more) (ps ++ qs) where
  crypto := by
    rw [h'.crypto, List.length_append, ← Nat.add_assoc]
  out := by
    rw [h.out, h'.out, List.append_assoc]
  outP := by
    rw [h'.outP, h.outP, List.flatMap_append, List.append_assoc]
  pieces := h.pieces.append h'.pieces
  cIsTls := h'.cIsTls.trans h.cIsTls
  leftTlsPacketLength := h'.leftTlsPacketLength.trans h.leftTlsPacketLength

/-- The loop, from where no delay is pending. -/
theorem recordLoop_seals {T : AesCrypto} {x : DrsConn W} (hT : x.conn.crypto = some T)
    (htls : x.conn.cIsTls = true) (hleft : 0 ≤ x.conn.leftTlsPacketLength) :
    ∃ y data ps,
      loop (recordTurn env) (fun x => x.conn.out.length) (recordTurn_shrinks env) x = .ok y ∧
        SealsData T x y data ps ∧ (y.drs.delayPending = false → y.conn.out = []) := by
  induction hn : x.conn.out.length using Nat.strongRecOn generalizing x T with
  | ind n ih =>
    by_cases hout : x.conn.out = []
    · have hturn : recordTurn env x = .done (.ok x) := by
        simp [recordTurn, hT, hout]
      exact ⟨x, [], [], loop_of_done _ hturn, .refl hT, fun _ => hout⟩
    · obtain ⟨len, hpos, hle, hseals⟩ := tlsRecord_seals env (T := T) hout
      have hsome : x.conn.out.length ≠ 0 := by omega
      have hturn : recordTurn env x =
          if env.drsDelaysEnabled ∧ 0 < (tlsRecord env x T).conn.out.length ∧
              ¬ (tlsRecord env x T).drs.Bursts (tlsRecord env x T).conn.out.length then
            .done (.ok (delayRecord env (tlsRecord env x T)))
          else .again (tlsRecord env x T) := by
        simp only [recordTurn, hT, if_neg hsome, htls, Bool.true_eq_false, if_false,
          if_neg (not_lt.mpr hleft)]
      split_ifs at hturn with hdelay
      · refine ⟨_, _, _, loop_of_done _ hturn, ⟨hseals.crypto, hseals.out, hseals.outP,
          hseals.pieces, hseals.cIsTls, hseals.leftTlsPacketLength⟩, fun hnone => ?_⟩
        exact nomatch (show true = false from hnone)
      · have hless : (tlsRecord env x T).conn.out.length < n :=
          hn ▸ tlsRecord_out env x T hsome
        obtain ⟨y, data, ps, hloop, hrest, hends⟩ := ih _ hless hseals.crypto
          (hseals.cIsTls.trans htls) (hseals.leftTlsPacketLength ▸ hleft) rfl
        exact ⟨y, _, _, (loop_of_again _ hturn).trans hloop, hseals.trans hrest, hends⟩

/-- **A call** puts the front of `out` into records, and all of it unless a delay is pending
behind it. -/
theorem cpuTcpAesCryptoCtr128EncryptOutputDrs_seals {T : AesCrypto} {x : DrsConn W}
    (hT : x.conn.crypto = some T) (htls : x.conn.cIsTls = true)
    (hleft : 0 ≤ x.conn.leftTlsPacketLength) :
    ∃ y data ps, cpuTcpAesCryptoCtr128EncryptOutputDrs env x = .ok y ∧
      SealsData T x y data ps ∧ (y.drs.delayPending = false → y.conn.out = []) := by
  unfold cpuTcpAesCryptoCtr128EncryptOutputDrs
  rw [hT]
  dsimp only
  by_cases hdelay : x.conn.cIsTls = true ∧ x.drs.delayPending = true
  · refine ⟨x, [], [], if_pos hdelay, .refl hT, fun hnone => ?_⟩
    exact nomatch hdelay.2.symm.trans hnone
  · rw [if_neg hdelay]
    exact recordLoop_seals env hT htls hleft

end Call

/-! ### Runs -/

section Runs

variable {W : Type*}

/-- A connection with what has been written to `c->out`, and what encryption has put into
`out_p`. -/
structure RecordRun (W : Type*) extends DrsConn W where
  written : Bytes
  sealed : Bytes

/-- The run starts with what `out` holds. -/
def RecordRun.start (x : DrsConn W) : RecordRun W := ⟨x, x.conn.out, []⟩

/-- What happens to the output of a connection with records. -/
inductive RecordEvent (W : Type*)
  /-- data is written to `c->out` -/
  | put (data : Bytes)
  /-- `cpu_tcp_aes_crypto_ctr128_encrypt_output_drs` is called -/
  | encrypt
  /-- the timer of a delay has fired, and `tcp_rpcs_ext_drs_alarm` clears `delay_pending` -/
  | delayOver
  /-- the rest of the connection changes: time passes, what `out_p` holds is taken -/
  | elsewhere (d : Conn W)

/-- One event. -/
def recordStep (env : DrsEnv W) (s : Except WriterAbort (RecordRun W)) (e : RecordEvent W) :
    Except WriterAbort (RecordRun W) :=
  s.bind fun r =>
    match e with
    | .put data => .ok ⟨{ r.toDrsConn with conn := r.conn.putOut data }, r.written ++ data, r.sealed⟩
    | .encrypt =>
      (cpuTcpAesCryptoCtr128EncryptOutputDrs env r.toDrsConn).map fun y =>
        ⟨y, r.written, r.sealed ++ y.conn.outP.drop r.conn.outP.length⟩
    | .delayOver =>
      .ok { r with toDrsConn := { r.toDrsConn with drs := { r.drs with delayPending := false } } }
    | .elsewhere d => .ok { r with toDrsConn := { r.toDrsConn with conn := d } }

/-- What the rest of the server does to a connection leaves what is to be encrypted, and the
cipher for it. -/
structure SameRecords (c d : Conn W) : Prop where
  out : d.out = c.out
  write : d.crypto.map AesCrypto.write = c.crypto.map AesCrypto.write
  cIsTls : d.cIsTls = c.cIsTls
  leftTlsPacketLength : 0 ≤ c.leftTlsPacketLength → 0 ≤ d.leftTlsPacketLength

/-- The changes a connection may meet. -/
def RecordLegal (r : RecordRun W) : RecordEvent W → Prop
  | .elsewhere d => SameRecords r.conn d
  | _ => True

/-- **The stream of records.**  What has been put out is records of application data of 1 to
16384 bytes, and they carry the encryption of what has been written, but for what is still in
`out`. -/
def RecordStream (ks : Keystream) (pos : ℕ) (r : RecordRun W) : Prop :=
  ∃ ps data, Deframes readTlsRecord r.sealed ps ∧
    (∀ p ∈ ps, 1 ≤ p.length ∧ p.length ≤ TLS_MAX_PAYLOAD) ∧
      ps.flatten = xorAt ks pos data ∧ data ++ r.conn.out = r.written

/-- A call of the function returns, and has encrypted all there is unless a delay is pending. -/
def EncryptsAll (env : DrsEnv W) (r : RecordRun W) : Prop :=
  ∃ r', recordStep env (.ok r) .encrypt = .ok r' ∧
    (r'.drs.delayPending = false → r'.conn.out = [])

/-- The invariant of a run: `data` has been put into records that carry `ps`. -/
structure RecordSound (ks : Keystream) (pos : ℕ) (r : RecordRun W) : Prop where
  cIsTls : r.conn.cIsTls = true
  leftTlsPacketLength : 0 ≤ r.conn.leftTlsPacketLength
  records : ∃ ps data, r.conn.crypto.map AesCrypto.write = some ⟨ks, pos + data.length⟩ ∧
    r.sealed = ps.flatMap tlsDataRecord ∧ Pieces ks pos data ps ∧ data ++ r.conn.out = r.written

namespace RecordSound

variable (env : DrsEnv W) {ks : Keystream} {pos : ℕ} {r : RecordRun W}

theorem start {x : DrsConn W} {T : AesCrypto} (hT : x.conn.crypto = some T)
    (htls : x.conn.cIsTls = true) (hleft : 0 ≤ x.conn.leftTlsPacketLength) :
    RecordSound T.write.ks T.write.pos (.start x) :=
  ⟨htls, hleft, [], [], by rw [RecordRun.start, hT]; rfl, rfl, ⟨rfl, fun _ hp => nomatch hp⟩, rfl⟩

theorem stream (h : RecordSound ks pos r) : RecordStream ks pos r := by
  obtain ⟨ps, data, -, hsealed, hps, hwritten⟩ := h.records
  refine ⟨ps, data, ?_, fun p hp => ?_, hps.flatten, hwritten⟩
  · rw [hsealed]
    refine deframes_flatMap fun p hp => readTlsRecord_reads ?_
    exact (hps.bounds p hp).2.trans_lt (by decide)
  · exact ⟨List.length_pos_iff.mpr (hps.bounds p hp).1, (hps.bounds p hp).2⟩

/-- **A call.** -/
theorem encrypt (h : RecordSound ks pos r) : ∃ r', recordStep env (.ok r) .encrypt = .ok r' ∧
    RecordSound ks pos r' ∧ (r'.drs.delayPending = false → r'.conn.out = []) := by
  obtain ⟨ps, data, hwrite, hsealed, hps, hwritten⟩ := h.records
  obtain ⟨T, hT, hTwrite⟩ := Option.map_eq_some_iff.mp hwrite
  obtain ⟨y, more, qs, hcall, hseals, hends⟩ :=
    cpuTcpAesCryptoCtr128EncryptOutputDrs_seals env hT h.cIsTls h.leftTlsPacketLength
  have hpieces := hseals.pieces
  rw [hTwrite] at hpieces
  refine ⟨⟨y, r.written, r.sealed ++ y.conn.outP.drop r.conn.outP.length⟩, ?_,
    ⟨hseals.cIsTls.trans h.cIsTls, ?_, ps ++ qs, data ++ more, ?_, ?_, hps.append hpieces, ?_⟩,
    hends⟩
  · show (cpuTcpAesCryptoCtr128EncryptOutputDrs env r.toDrsConn).map _ = _
    rw [hcall]
    rfl
  · exact hseals.leftTlsPacketLength ▸ h.leftTlsPacketLength
  · show y.conn.crypto.map AesCrypto.write = _
    rw [hseals.crypto, hTwrite, Option.map_some, List.length_append, Nat.add_assoc]
  · show r.sealed ++ y.conn.outP.drop r.conn.outP.length = _
    rw [hseals.outP, List.drop_left, hsealed, List.flatMap_append]
  · rw [List.append_assoc, ← hseals.out]
    exact hwritten

/-- **One event.** -/
theorem step (h : RecordSound ks pos r) {e : RecordEvent W} (he : RecordLegal r e) :
    ∃ r', recordStep env (.ok r) e = .ok r' ∧ RecordSound ks pos r' := by
  cases e with
  | put data =>
    obtain ⟨ps, old, hwrite, hsealed, hps, hwritten⟩ := h.records
    refine ⟨_, rfl, h.cIsTls, h.leftTlsPacketLength, ps, old, hwrite, hsealed, hps, ?_⟩
    show old ++ (r.conn.out ++ data) = r.written ++ data
    rw [← List.append_assoc, hwritten]
  | encrypt =>
    obtain ⟨r', hr', hsound, -⟩ := h.encrypt env
    exact ⟨r', hr', hsound⟩
  | delayOver => exact ⟨_, rfl, h.cIsTls, h.leftTlsPacketLength, h.records⟩
  | elsewhere d =>
    have hd : SameRecords r.conn d := he
    obtain ⟨ps, data, hwrite, hsealed, hps, hwritten⟩ := h.records
    refine ⟨_, rfl, hd.cIsTls.trans h.cIsTls, hd.leftTlsPacketLength h.leftTlsPacketLength, ps,
      data, hd.write.trans hwrite, hsealed, hps, ?_⟩
    show data ++ d.out = r.written
    rw [hd.out, hwritten]

end RecordSound

/-- **What goes out in records.**  From when a connection of fake TLS has its cipher, whatever is
written to `c->out`, however time passes and whenever the function is called: what it has put into
`out_p` is records of application data whose lengths are right, and they carry the encryption of
what has been written, but for what is still in `out`; and a call that leaves no delay pending
leaves nothing there. -/
theorem drsOutput_records (env : DrsEnv W) (x : DrsConn W) {T : AesCrypto}
    (hT : x.conn.crypto = some T) (htls : x.conn.cIsTls = true)
    (hleft : 0 ≤ x.conn.leftTlsPacketLength) {events : List (RecordEvent W)}
    (hlegal : Along (recordStep env) (fun s e => ∀ r, s = .ok r → RecordLegal r e)
      (.ok (.start x)) events) :
    Throughout (recordStep env)
      (fun s => ∃ r, s = .ok r ∧ RecordStream T.write.ks T.write.pos r ∧ EncryptsAll env r)
      (.ok (.start x)) events := by
  have hrun := throughout_of_along
    (I := fun s => ∃ r, s = .ok r ∧ RecordSound T.write.ks T.write.pos r) ?_
    ⟨_, rfl, .start hT htls hleft⟩ hlegal
  · refine hrun.imp ?_
    rintro s ⟨r, rfl, hsound⟩
    obtain ⟨r', hr', -, hends⟩ := hsound.encrypt env
    exact ⟨r, rfl, hsound.stream, r', hr', hends⟩
  · rintro s e ⟨r, rfl, hsound⟩ he
    exact hsound.step env (he r rfl)

/-- Two writes, with a delay over in between. -/
theorem drsOutput_records_sample :
    Throughout (recordStep sampleDrs)
      (fun s => ∃ r, s = .ok r ∧ RecordStream (fun _ => 0) 0 r ∧ EncryptsAll sampleDrs r)
      (.ok (.start (samplePaced []))) [.put [1, 2], .encrypt, .delayOver, .put [3], .encrypt] :=
  drsOutput_records sampleDrs (samplePaced []) (T := ⟨⟨fun _ => 0, 64⟩, ⟨fun _ => 0, 0⟩⟩) rfl rfl
    (show (0 : ℤ) ≤ 1 by decide)
    ⟨fun _ _ => trivial, fun _ _ => trivial, fun _ _ => trivial, fun _ _ => trivial,
      fun _ _ => trivial, trivial⟩

end Runs

/-! ### The reader, the writer and the alarms -/

section Machine

variable {W : Type*} {c d : Conn W}

namespace SameRecords

theorem of_eq (hout : d.out = c.out) (hcrypto : d.crypto = c.crypto) (htls : d.cIsTls = c.cIsTls)
    (hleft : d.leftTlsPacketLength = c.leftTlsPacketLength) : SameRecords c d :=
  ⟨hout, by rw [hcrypto], htls, fun h => hleft ▸ h⟩

theorem refl (c : Conn W) : SameRecords c c := .of_eq rfl rfl rfl rfl

theorem trans {e : Conn W} (h : SameRecords c d) (h' : SameRecords d e) : SameRecords c e :=
  ⟨h'.out.trans h.out, h'.write.trans h.write, h'.cIsTls.trans h.cIsTls,
    h'.leftTlsPacketLength ∘ h.leftTlsPacketLength⟩

end SameRecords

/-- A turn that decrypts leaves the output as it is. -/
def TurnSpares (c : Conn W) (turn : Turn (Conn W) (DecryptExit W)) : Prop :=
  (∀ d, turn = .again d → SameRecords c d) ∧ ∀ d n, turn = .done (.ok (d, n)) → SameRecords c d

theorem TurnSpares.of_again (h : SameRecords c d) : TurnSpares c (.again d) :=
  ⟨fun _ heq => Turn.again.inj heq ▸ h, fun _ _ heq => nomatch heq⟩

theorem TurnSpares.of_done (h : SameRecords c d) (n : ℤ) : TurnSpares c (.done (.ok (d, n))) :=
  ⟨fun _ heq => (nomatch heq),
    fun _ _ heq => (Prod.mk.inj (Except.ok.inj (Turn.done.inj heq))).1 ▸ h⟩

theorem TurnSpares.of_abort {a : Abort} : TurnSpares c (.done (.error a)) :=
  ⟨fun _ heq => (nomatch heq), fun _ _ heq => (nomatch heq)⟩

theorem decryptWsTurn_spares {T : AesCrypto} (hT : c.crypto = some T) :
    TurnSpares c (decryptWsTurn c T) := by
  have hpayload (e : Conn W) (he : SameRecords c e) : SameRecords c (decryptWsPayload e T) :=
    ⟨he.out, by rw [hT]; rfl, he.cIsTls, he.leftTlsPacketLength⟩
  unfold decryptWsTurn
  split_ifs
  · cases wsParseFrameHeader ⟨c.inU, 0, c.wsMask, c.wsMaskOffset⟩ with
    | error a => exact .of_abort
    | ok p =>
      dsimp only
      split_ifs
      · refine .of_done ?_ 0
        exact .of_eq rfl rfl rfl rfl
      · refine .of_done ?_ 0
        exact .of_eq rfl rfl rfl rfl
      · exact .of_again (hpayload _ (.of_eq rfl rfl rfl rfl))
  · exact .of_again (hpayload c (.refl c))

theorem decryptChunkTurn_spares {T : AesCrypto} (hT : c.crypto = some T) :
    TurnSpares c (decryptChunkTurn c T) := by
  unfold decryptChunkTurn
  dsimp only
  split
  · refine .of_done ?_ 0
    exact .of_eq rfl rfl rfl rfl
  · refine .of_done ?_ 0
    exact .of_eq rfl rfl rfl rfl
  · exact .of_again ⟨rfl, by rw [hT]; rfl, rfl, id⟩

theorem decryptTlsTurn_spares {T : AesCrypto} (hT : c.crypto = some T) :
    TurnSpares c (decryptTlsTurn c T) := by
  have hpayload (e : Conn W) (he : SameRecords c e) (left : ℕ) :
      SameRecords c (decryptTlsPayload e T left) := by
    refine ⟨he.out, by rw [hT]; rfl, he.cIsTls, fun _ => ?_⟩
    show (0 : ℤ) ≤ (left : ℤ) - (min left e.inU.length : ℕ)
    omega
  unfold decryptTlsTurn
  split_ifs
  · exact .of_abort
  · exact .of_done (.refl c) _
  · refine .of_done ?_ 0
    exact .of_eq rfl rfl rfl rfl
  · refine .of_again (hpayload _ ?_ _)
    exact .of_eq rfl rfl rfl rfl
  · exact .of_again (hpayload c (.refl c) _)

theorem decryptTurn_spares (c : Conn W) : TurnSpares c (decryptTurn c) := by
  unfold decryptTurn
  cases hT : c.crypto with
  | none => exact .of_abort
  | some T =>
    dsimp only
    split_ifs
    · exact .of_done (.refl c) 0
    · exact decryptWsTurn_spares hT
    · exact decryptChunkTurn_spares hT
    · exact decryptTlsTurn_spares hT
    · exact .of_again ⟨rfl, by rw [hT]; rfl, rfl, id⟩

/-- **Decryption leaves the output as it is.** -/
theorem cpuTcpAesCryptoCtr128DecryptInput_spares {n : ℤ}
    (h : cpuTcpAesCryptoCtr128DecryptInput c = .ok (d, n)) : SameRecords c d := by
  have hloop := loop_inv (I := fun e => SameRecords c e)
    (Q := fun exit => ∀ d n, exit = .ok (d, n) → SameRecords c d) decryptTurn_shrinks
    (fun e e' he hturn => he.trans ((decryptTurn_spares e).1 e' hturn))
    (fun e exit he hturn d n hexit =>
      he.trans ((decryptTurn_spares e).2 d n (hturn.trans (congrArg Turn.done hexit))))
    (SameRecords.refl c)
  exact hloop d n h

/-- **So does a call of `parse_execute`** behind the header. -/
theorem clientParseExecute_spares {env : ExtServerEnv W} {res : ℤ} (hc : c.Serves)
    (h : clientParseExecute env c = .ok (d, res)) : SameRecords c d := by
  have hkeeps := (clientParseExecute_keeps env hc.past h).1
  refine .of_eq ?_ hkeeps.crypto hkeeps.cIsTls hkeeps.leftTlsPacketLength
  rcases hc.past with hauth | hdirect
  · rw [(hauth.parseExecute env h).1.rest]
  · have hcall : ClientCall env.toOutboundEnv c d res := by
      refine .of_parse ?_
      rw [← h]
      unfold clientParseExecute
      rcases hdirect with htype | htype <;> rw [htype]
    cases hcall with
    | @relayed _ _ _ _ _ _ delay _ _ => cases delay <;> rfl
    | _ => rfl

/-- The handshake of fake TLS leaves `left_tls_packet_length` as encryption asserts it. -/
theorem firstTlsPacket_left (h : firstTlsPacket c = .ok d) : 0 ≤ d.leftTlsPacketLength := by
  unfold firstTlsPacket at h
  dsimp only at h
  split_ifs at h with hshort hhead hrecord hsmall
  obtain rfl := Except.ok.inj h
  show (0 : ℤ) ≤ (beValue ((c.inp.drop 9).take 2) : ℤ) - 64
  omega

/-- **A call of the reader.** -/
theorem cpuTcpServerReader_spares {env : ExtServerEnv W} (hc : c.Serves)
    (hlive : c.cError = false) {queue : List Bytes} {turns : ℕ} {r : ReaderResult W}
    (h : cpuTcpServerReader (clientMethods env) c queue turns = .ok r) :
    r.conn.Serves ∧ r.conn.type = c.type ∧ SameRecords c r.conn := by
  have hfill : readerFill c queue = c.pend queue.flatten := readerFill_crypto hc.crypto queue
  have hrule := jobRun_leaves_of_filled (m := clientMethods env) (P := fun _ => True)
    (I := fun e => e.Serves ∧ e.type = c.type ∧ SameRecords c e) (F := fun _ => True)
    (c := c) (q := queue) (n := turns) ?_ (fun _ => ⟨hc, rfl, .refl c⟩) ?_ ?_ ?_
    (fun _ _ _ => eachTurnFor_of_forall (fun _ _ => trivial) _ _)
  · rw [jobRun_of_live hlive, h] at hrule
    exact hrule
  · rw [hfill]
    exact ⟨hc.of_same rfl hc.crypto rfl rfl rfl, rfl, .of_eq rfl rfl rfl rfl⟩
  · rintro e ⟨he, htype, hsame⟩
    unfold readerDecode
    rw [if_pos he.crypto]
    cases hdec : (clientMethods env).cryptoDecryptInput e with
    | error a => trivial
    | ok p =>
      obtain ⟨e', n⟩ := p
      have hframe : DecryptFrame e e' := cpuTcpAesCryptoCtr128DecryptInput_frame hdec
      have hsame' : SameRecords e e' := cpuTcpAesCryptoCtr128DecryptInput_spares hdec
      have htype' : e'.type = e.type := by rw [hframe.rest]
      have he' : e'.Serves := he.of_same htype' (hframe.crypto he.crypto) hframe.wsState
        (by rw [hframe.rpc]) hsame'.cIsTls
      dsimp only
      split_ifs <;> exact ⟨he', htype'.trans htype, hsame.trans hsame'⟩
  · rintro e ⟨he, htype, hsame⟩
    exact readerSkip_leaves (F := fun _ => True) ⟨he, htype, hsame⟩
      (fun _ _ => ⟨he.of_same rfl he.crypto rfl rfl rfl, htype,
        hsame.trans (.of_eq rfl rfl rfl rfl)⟩) fun _ => trivial
  · rintro e ⟨he, htype, hsame⟩ - -
    cases hres : (clientMethods env).parseExecute e with
    | error a => trivial
    | ok p =>
      obtain ⟨e', res⟩ := p
      obtain ⟨he', htype', -⟩ := clientParseExecute_pauses he hres
      have hsame' := clientParseExecute_spares he hres
      show (storeResult e' res).Serves ∧ (storeResult e' res).type = c.type ∧
        SameRecords c (storeResult e' res)
      unfold storeResult
      split_ifs
      · exact ⟨he', htype'.trans htype, hsame.trans hsame'⟩
      · exact ⟨he'.of_same rfl he'.crypto rfl rfl rfl, htype'.trans htype,
          (hsame.trans hsame').trans (.of_eq rfl rfl rfl rfl)⟩

variable {env : DrsEnv W} {x y z : DrsConn W}

/-- A run of such events leads from `x` to `y`. -/
def RecordRuns (env : DrsEnv W) (x y : DrsConn W) : Prop :=
  ∀ written sealed, ∃ events written' sealed',
    Along (recordStep env) (fun s e => ∀ r, s = .ok r → RecordLegal r e) (.ok ⟨x, written, sealed⟩)
        events ∧
      finish (recordStep env) (.ok ⟨x, written, sealed⟩) events = .ok ⟨y, written', sealed'⟩

namespace RecordRuns

theorem refl (x : DrsConn W) : RecordRuns env x x :=
  fun written sealed => ⟨[], written, sealed, trivial, rfl⟩

theorem trans (h : RecordRuns env x y) (h' : RecordRuns env y z) : RecordRuns env x z := by
  intro written sealed
  obtain ⟨es, written₁, sealed₁, hlegal, hfinish⟩ := h written sealed
  obtain ⟨fs, written₂, sealed₂, hlegal', hfinish'⟩ := h' written₁ sealed₁
  refine ⟨es ++ fs, written₂, sealed₂, along_append.mpr ⟨hlegal, ?_⟩, ?_⟩
  · rw [hfinish]
    exact hlegal'
  · rw [finish_append, hfinish, hfinish']

/-- One event. -/
theorem single {e : RecordEvent W}
    (hlegal : ∀ written sealed, RecordLegal (⟨x, written, sealed⟩ : RecordRun W) e)
    (hstep : ∀ written sealed, ∃ written' sealed',
      recordStep env (.ok ⟨x, written, sealed⟩) e = .ok ⟨y, written', sealed'⟩) :
    RecordRuns env x y := by
  intro written sealed
  obtain ⟨written', sealed', h⟩ := hstep written sealed
  refine ⟨[e], written', sealed', ⟨?_, trivial⟩, h⟩
  intro r hr
  obtain rfl := Except.ok.inj hr
  exact hlegal written sealed

theorem same (h : SameRecords x.conn d) : RecordRuns env x { x with conn := d } :=
  single (e := .elsewhere d) (fun _ _ => h) fun written sealed => ⟨written, sealed, rfl⟩

theorem put (x : DrsConn W) (data : Bytes) :
    RecordRuns env x { x with conn := x.conn.putOut data } :=
  single (e := .put data) (fun _ _ => trivial) fun written sealed =>
    ⟨written ++ data, sealed, rfl⟩

theorem delayOver (x : DrsConn W) :
    RecordRuns env x { x with drs := { x.drs with delayPending := false } } :=
  single (e := .delayOver) (fun _ _ => trivial) fun written sealed => ⟨written, sealed, rfl⟩

theorem encrypt (h : cpuTcpAesCryptoCtr128EncryptOutputDrs env x = .ok y) : RecordRuns env x y := by
  refine single (e := .encrypt) (fun _ _ => trivial) fun written sealed =>
    ⟨written, sealed ++ y.conn.outP.drop x.conn.outP.length, ?_⟩
  show (cpuTcpAesCryptoCtr128EncryptOutputDrs env x).map _ = _
  rw [h]
  rfl

end RecordRuns

/-- A connection of fake TLS that sends records. -/
def Conn.SendsRecords (c : Conn W) : Prop := c.Serves ∧ c.IsDrs

theorem Conn.SendsRecords.of_serves (hc : c.SendsRecords) (hd : d.Serves)
    (htype : d.type = c.type) : d.SendsRecords := by
  refine ⟨hd, ?_⟩
  unfold Conn.IsDrs
  rw [htype]
  exact hc.2

/-- **A call of the writer** puts what is queued into `out`, encrypts, and takes `out_p`. -/
theorem drsWriter_runs (hc : x.conn.SendsRecords) (h : drsWriter env x = .ok y) :
    y.conn.SendsRecords ∧ RecordRuns env x y := by
  obtain ⟨hserves, hdrs⟩ := hc
  obtain ⟨f, hfill, rfl⟩ : ∃ f, drsWriterFill env x = .ok f ∧
      { f with conn := (writerTake f.conn).1 } = y := by
    unfold drsWriter at h
    cases hres : drsWriterFill env x with
    | error a =>
      rw [hres] at h
      exact nomatch h
    | ok f =>
      rw [hres] at h
      exact ⟨f, rfl, Except.ok.inj h⟩
  obtain ⟨e, hdrain, -⟩ := bind_ok_iff.mp hfill
  obtain ⟨m, w, he⟩ := drainQueue_drained hdrain
  obtain ⟨outP, wantWr, hclosing⟩ := writerClosing_spares x.conn
  rw [hclosing] at he
  have heserves : e.Serves := by
    rw [he]
    exact hserves.of_same rfl hserves.crypto rfl rfl rfl
  have hetype : e.type = x.conn.type := by rw [he]; rfl
  have hedrs : e.IsDrs := (Conn.SendsRecords.of_serves ⟨hserves, hdrs⟩ heserves hetype).2
  have hencrypts : e.encrypts := by
    refine ⟨fun hproxy => ?_, heserves.crypto⟩
    rcases hedrs with htype | htype <;> exact nomatch htype.symm.trans hproxy
  rw [drsWriterFill_of_drs hdrain hencrypts hedrs] at hfill
  obtain ⟨hframe, -⟩ := cpuTcpAesCryptoCtr128EncryptOutputDrs_spec hfill
  obtain ⟨hfserves, hftype, -⟩ := hframe.serves heserves
  have htake : (writerTake f.conn).1 = { f.conn with outP := [] } := by
    have hftakes : f.conn.encrypts :=
      ⟨fun hproxy => hencrypts.1 (hftype.symm.trans hproxy), hfserves.crypto⟩
    rw [writerTake, if_pos hftakes]
  rw [htake]
  constructor
  · refine Conn.SendsRecords.of_serves ⟨hserves, hdrs⟩ ?_ (hftype.trans hetype)
    exact hfserves.of_same rfl hfserves.crypto rfl rfl rfl
  · have hput : RecordRuns env x { x with conn := x.conn.putOut m } := .put x m
    have hqueue : SameRecords (x.conn.putOut m) e := by
      rw [he]
      exact .of_eq rfl rfl rfl rfl
    have htaken : SameRecords f.conn { f.conn with outP := [] } := .of_eq rfl rfl rfl rfl
    exact ((hput.trans (.same hqueue)).trans (.encrypt hfill)).trans (.same htaken)

/-- **Reader and writer.** -/
theorem cpuServerReadWrite_runs (hc : x.conn.SendsRecords) (hlive : x.conn.cError = false)
    {queue : List Bytes} {turns : ℕ} (h : cpuServerReadWrite env x queue turns = .ok y) :
    y.conn.SendsRecords ∧ RecordRuns env x y := by
  unfold cpuServerReadWrite at h
  cases hread : cpuTcpServerReader (clientMethods env.server) x.conn queue turns with
  | error f =>
    rw [hread] at h
    exact nomatch h
  | ok r =>
    rw [hread] at h
    dsimp only at h
    obtain ⟨hserves, htype, hsame⟩ := cpuTcpServerReader_spares hc.1 hlive hread
    cases hwrite : drsWriter env { x with conn := r.conn } with
    | error a =>
      rw [hwrite] at h
      exact nomatch h
    | ok z =>
      rw [hwrite] at h
      obtain rfl := Except.ok.inj h
      obtain ⟨hz, hruns⟩ := drsWriter_runs (hc.of_serves hserves htype) hwrite
      exact ⟨hz, (RecordRuns.same hsame).trans hruns⟩

theorem directScheduleRetry_spares (env : OutboundEnv W) (c : Conn W) (attempt : ℕ) :
    SameRecords c (directScheduleRetry env c attempt) := by
  unfold directScheduleRetry
  split_ifs <;> exact .of_eq rfl rfl rfl rfl

theorem directRetryDcConnection_spares (env : OutboundEnv W) (c : Conn W) :
    SameRecords c (directRetryDcConnection env c) := by
  unfold directRetryDcConnection
  split_ifs
  · exact .of_eq rfl rfl rfl rfl
  · obtain ⟨e, world⟩ := env.directTryDcAddrs c.world c.rpc.extraInt4
    cases e with
    | none =>
      have hworld : SameRecords c { c with world := world } := .of_eq rfl rfl rfl rfl
      exact hworld.trans (directScheduleRetry_spares env _ _)
    | some e => exact .of_eq rfl rfl rfl rfl

/-- The rest of the connection changes, and it sends records as before. -/
theorem Conn.SendsRecords.same (hc : x.conn.SendsRecords) (hd : d.Serves)
    (htype : d.type = x.conn.type) (h : SameRecords x.conn d) :
    d.SendsRecords ∧ RecordRuns env x { x with conn := d } :=
  ⟨hc.of_serves hd htype, .same h⟩

/-- **An alarm** ends a delay, or does nothing to the output. -/
theorem drsAlarm_runs (hc : x.conn.SendsRecords) (hlive : x.conn.cError = false)
    {queue : List Bytes} {turns : ℕ} (h : drsAlarm env x queue turns = .ok y) :
    y.conn.SendsRecords ∧ RecordRuns env x y := by
  have hresume (h : delayResume env x queue turns = .ok y) :
      y.conn.SendsRecords ∧ RecordRuns env x y := by
    unfold delayResume at h
    split_ifs at h
    · obtain ⟨hy, hruns⟩ := cpuServerReadWrite_runs
        (x := { x with drs := { x.drs with delayPending := false } }) hc hlive h
      exact ⟨hy, (RecordRuns.delayOver x).trans hruns⟩
    · obtain rfl := Except.ok.inj h
      exact ⟨hc, .refl x⟩
  unfold drsAlarm at h
  cases hstop : rateLimitResume x.conn with
  | some c =>
    rw [hstop] at h
    obtain rfl := Except.ok.inj h
    unfold rateLimitResume at hstop
    split_ifs at hstop
    obtain rfl := Option.some.inj hstop
    refine hc.same ?_ rfl (.of_eq rfl rfl rfl rfl)
    exact hc.1.of_same rfl hc.1.crypto rfl rfl rfl
  | none =>
    rw [hstop] at h
    dsimp only at h
    split_ifs at h with hretry hproxy hprobe
    · obtain rfl := Except.ok.inj h
      obtain ⟨hserves, htype, -⟩ := directRetryDcConnection_serves env.server.toOutboundEnv hc.1
      exact hc.same hserves htype (directRetryDcConnection_spares _ _)
    · obtain rfl := Except.ok.inj h
      exact hc.same (failConnection_serves hc.1 _) rfl (.of_eq rfl rfl rfl rfl)
    · exact absurd hprobe hc.1.inPacketNum
    · cases hdflt : env.server.defaultDomainInfo <;> rw [hdflt] at h <;> exact hresume h

/-- **One event** of the connection is a run of these. -/
theorem drsStep_runs (hc : x.conn.SendsRecords) {e : DrsEvent W}
    (h : drsStep env (.ok x) e = .ok y) : y.conn.SendsRecords ∧ RecordRuns env x y := by
  have hsame {d : Conn W} (hd : d.Serves) (htype : d.type = x.conn.type)
      (h : SameRecords x.conn d) :
      d.SendsRecords ∧ RecordRuns env x { x with conn := d } := hc.same hd htype h
  cases e with
  | elsewhere w =>
    obtain rfl := Except.ok.inj h
    exact hsame (hc.1.of_same rfl hc.1.crypto rfl rfl rfl) rfl (.of_eq rfl rfl rfl rfl)
  | run queue turns =>
    change (if x.conn.cError = true then Except.ok x else cpuServerReadWrite env x queue turns) =
      .ok y at h
    by_cases herror : x.conn.cError = true
    · rw [if_pos herror] at h
      obtain rfl := Except.ok.inj h
      exact ⟨hc, .refl x⟩
    · rw [if_neg herror] at h
      exact cpuServerReadWrite_runs hc (by simpa using herror) h
  | alarm queue turns =>
    change (if x.conn.timer.isSome = true then drsJsAlarm env x queue turns else .ok x) = .ok y
      at h
    have hdue : x.due.conn.SendsRecords ∧ RecordRuns env x x.due :=
      hsame (hc.1.of_same rfl hc.1.crypto rfl rfl rfl) rfl (.of_eq rfl rfl rfl rfl)
    unfold drsJsAlarm at h
    dsimp only at h
    split_ifs at h with htimer herror hdrs
    · obtain rfl := Except.ok.inj h
      exact hdue
    · obtain ⟨hy, hruns⟩ := drsAlarm_runs hdue.1 (by simpa using herror) h
      exact ⟨hy, hdue.2.trans hruns⟩
    · exact absurd hdue.1.2 hdrs
    · obtain rfl := Except.ok.inj h
      exact ⟨hc, .refl x⟩
  | answer raw =>
    obtain rfl := Except.ok.inj h
    exact hsame (hc.1.of_same rfl hc.1.crypto rfl rfl rfl) rfl (.of_eq rfl rfl rfl rfl)
  | dcClosed ready =>
    obtain rfl := Except.ok.inj h
    unfold Server.dcClosed
    cases x.conn.extra with
    | null => exact ⟨hc, .refl x⟩
    | methods => exact ⟨hc, .refl x⟩
    | job e =>
      dsimp only
      split_ifs
      · have hunlinked : ({ x.conn with extra := .null } : Conn W).Serves :=
          hc.1.of_same rfl hc.1.crypto rfl rfl rfl
        obtain ⟨hserves, htype, -⟩ := directScheduleRetry_serves env.server.toOutboundEnv hunlinked
          x.conn.rpc.extraInt
        have hspares : SameRecords x.conn { x.conn with extra := .null } := .of_eq rfl rfl rfl rfl
        exact hsame hserves htype (hspares.trans (directScheduleRetry_spares _ _ _))
      · exact hsame (failConnection_serves hc.1 _) rfl (.of_eq rfl rfl rfl rfl)
      · exact ⟨hc, .refl x⟩
  | dcInit =>
    obtain rfl := Except.ok.inj h
    exact hsame (hc.1.of_same rfl hc.1.crypto rfl rfl rfl) rfl (.of_eq rfl rfl rfl rfl)
  | fails err =>
    obtain rfl := Except.ok.inj h
    exact hsame (failConnection_serves hc.1 err) rfl (.of_eq rfl rfl rfl rfl)

/-- **A run of the connection is a run of such events**: reads, runs of the writer, alarms and
what the data centre does. -/
theorem drsRun_records (hc : x.conn.SendsRecords) {events : List (DrsEvent W)}
    (h : finish (drsStep env) (.ok x) events = .ok y) :
    y.conn.SendsRecords ∧ RecordRuns env x y := by
  induction events generalizing x with
  | nil =>
    obtain rfl := Except.ok.inj h
    exact ⟨hc, .refl x⟩
  | cons e events ih =>
    rw [finish_cons] at h
    cases hstep : drsStep env (.ok x) e with
    | error f =>
      -- A connection that has ended in a fault stays there.
      have hfault : finish (drsStep env) (.error f) events = .error f := by
        clear ih h
        induction events with
        | nil => rfl
        | cons e events ih => exact ih
      rw [hstep, hfault] at h
      exact nomatch h
    | ok z =>
      rw [hstep] at h
      obtain ⟨hz, hruns⟩ := drsStep_runs hc hstep
      obtain ⟨hy, hrest⟩ := ih hz h
      exact ⟨hy, hruns.trans hrest⟩

/-- A run of the writer that ends in a delay. -/
theorem drsRun_records_sample :
    (sampleDelayed (List.replicate 2000 0)).conn.SendsRecords ∧
      RecordRuns sampleDrs (samplePaced (List.replicate 2000 0))
        (sampleDelayed (List.replicate 2000 0)) :=
  drsRun_records ⟨(samplePaced_starts _).serves, .inl rfl⟩
    (show finish (drsStep sampleDrs) _ [.run [] 1] = _ from samplePaced_run List.length_replicate)

end Machine

end Server
end Teleproto3
