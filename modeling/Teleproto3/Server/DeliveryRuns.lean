/-
# What decryption delivers, read by read

A client whose obfuscated2 header has been accepted is read again and again.  Each read appends
what has arrived to `in_u` and decrypts, and what is decrypted goes to `parse_execute`, which
hands packets over or relays bytes to a data centre.

Nothing behind the header touches what decryption looks at (`KeepsFraming`,
`clientParseExecute_keeps`, `jobRun_keeps`).  So in a run of reads the framing comes off as it
would without a cipher and with no packet taken out in between, and the cipher runs through the
payload in order: `deliveryStep_deframes`.
-/

import Teleproto3.Lib.Runs
import Teleproto3.Server.CipherStart
import Teleproto3.Server.DirectRelay
import Teleproto3.Server.PacketLoop
import Teleproto3.Server.Uplink

namespace Teleproto3
namespace Server

open Lib Wire

/-! ### Behind the header -/

section Session

variable {W : Type*}

/-- What the packets of a session and the relay to a data centre leave alone. -/
structure Spares (c c' : Conn W) : Prop where
  inU : c'.inU = c.inU
  crypto : c'.crypto = c.crypto
  httpChunkRemaining : c'.httpChunkRemaining = c.httpChunkRemaining
  httpChunkHeaderState : c'.httpChunkHeaderState = c.httpChunkHeaderState
  wsState : c'.wsState = c.wsState
  transportMode : c'.transportMode = c.transportMode

/-- Nothing decryption looks at is touched. -/
structure KeepsFraming (c c' : Conn W) : Prop extends Spares c c' where
  cIsTls : c'.cIsTls = c.cIsTls
  leftTlsPacketLength : c'.leftTlsPacketLength = c.leftTlsPacketLength
  wsFrameRemaining : c'.wsFrameRemaining = c.wsFrameRemaining
  wsMask : c'.wsMask = c.wsMask
  wsMaskOffset : c'.wsMaskOffset = c.wsMaskOffset

theorem KeepsFraming.refl (c : Conn W) : KeepsFraming c c :=
  ⟨⟨rfl, rfl, rfl, rfl, rfl, rfl⟩, rfl, rfl, rfl, rfl, rfl⟩

theorem KeepsFraming.trans {a b c : Conn W} (h : KeepsFraming a b) (h' : KeepsFraming b c) :
    KeepsFraming a c where
  inU := h'.inU.trans h.inU
  crypto := h'.crypto.trans h.crypto
  httpChunkRemaining := h'.httpChunkRemaining.trans h.httpChunkRemaining
  httpChunkHeaderState := h'.httpChunkHeaderState.trans h.httpChunkHeaderState
  wsState := h'.wsState.trans h.wsState
  transportMode := h'.transportMode.trans h.transportMode
  cIsTls := h'.cIsTls.trans h.cIsTls
  leftTlsPacketLength := h'.leftTlsPacketLength.trans h.leftTlsPacketLength
  wsFrameRemaining := h'.wsFrameRemaining.trans h.wsFrameRemaining
  wsMask := h'.wsMask.trans h.wsMask
  wsMaskOffset := h'.wsMaskOffset.trans h.wsMaskOffset

/-- What the packets of a session touch. -/
structure PacketFrame (c c' : Conn W) : Prop where
  rest : c' =
    { c with
      inp := c'.inp
      rpc := c'.rpc
      timer := c'.timer
      outQueue := c'.outQueue
      world := c'.world
      log := c'.log
      cError := c'.cError
      status := c'.status
      error := c'.error }

namespace PacketFrame

variable {a b c : Conn W}

theorem refl (c : Conn W) : PacketFrame c c := ⟨rfl⟩

theorem trans (h : PacketFrame a b) (h' : PacketFrame b c) : PacketFrame a c :=
  ⟨h'.rest.trans (by rw [h.rest])⟩

theorem stage (h : PacketFrame a b) {x : Except (ParseExit W) (Conn W)}
    (hx : StageFrame PacketFrame b x) : StageFrame PacketFrame a x := by
  refine Ends.mono hx (fun d hd => h.trans hd) ?_
  rintro (⟨d, res⟩ | a) hd
  · exact h.trans hd
  · trivial

/-- Decryption does not look at any of that. -/
theorem keepsFraming (h : PacketFrame a b) : KeepsFraming a b := by
  rw [h.rest]
  exact ⟨⟨rfl, rfl, rfl, rfl, rfl, rfl⟩, rfl, rfl, rfl, rfl, rfl⟩

end PacketFrame

variable (env : ExtServerEnv W)

theorem takePacket_touches (packetLen packetLenBytes : ℕ) (c : Conn W) :
    StageFrame PacketFrame c (takePacket env packetLen packetLenBytes c) := by
  unfold takePacket
  dsimp only
  by_cases hlen : c.inp.length < packetLenBytes
  · rw [if_pos hlen]
    trivial
  · rw [if_neg hlen]
    split_ifs
    · trivial
    · trivial
    all_goals
      obtain ⟨outQueue, world, log, cError, status, error, hexec⟩ := executePacket_rest env
        ((c.skipData (packetLenBytes + packetLen)).setInPacketNum _)
        (packetMsg c.rpc.flags packetLen ((c.inp.drop packetLenBytes).take packetLen))
      rw [hexec]
      exact ⟨rfl⟩

theorem parsePacket_touches (c : Conn W) : StageFrame PacketFrame c (parsePacket env c) := by
  have hquick (b : Bool) : PacketFrame c (c.setQuickack b) := ⟨rfl⟩
  have hfail (d : Conn W) (hd : PacketFrame c d) : PacketFrame c (failConnection d (-1)) :=
    hd.trans ⟨rfl⟩
  unfold parsePacket
  dsimp only
  split_ifs
  · exact hfail c (.refl c)
  · split
    · exact hfail _ (hquick _)
    · split_ifs
      · exact hfail _ (hquick _)
      · exact hquick _
      · exact (hquick _).stage (takePacket_touches env _ _ _)

/-- A turn of the packet loop. -/
theorem parseStages_touches {c : Conn W} (hc : Authenticated c) :
    StageFrame PacketFrame c (parseStages env c) := by
  have hnum : c.rpc.inPacketNum ≠ -3 := by
    have := hc.inPacketNum
    omega
  have hflags : StageFrame (fun c d => PacketFrame c d ∧ d.rpc = c.rpc) c (parseFlags c) := by
    unfold parseFlags
    dsimp only
    split_ifs <;> exact ⟨⟨rfl⟩, rfl⟩
  have hlength (d : Conn W) :
      StageFrame (fun c d => PacketFrame c d ∧ d.rpc = c.rpc) d (parseLength d) := by
    unfold parseLength
    split_ifs <;> first | trivial | exact ⟨.refl d, rfl⟩
  rw [parseStages_of_authenticated env hc, parseSession]
  refine Ends.bind (P := fun d => PacketFrame c d ∧ d.rpc = c.rpc) (Ends.bind
    (P := fun d => PacketFrame c d ∧ d.rpc = c.rpc) (hflags.mono (fun _ hd => hd) ?_) fun d hd =>
      (hlength d).mono (fun e he => ⟨hd.1.trans he.1, he.2.trans hd.2⟩) ?_) fun d hd => ?_
  · rintro (⟨e, res⟩ | a) he
    · exact he.1
    · trivial
  · rintro (⟨e, res⟩ | a) he
    · exact hd.1.trans he.1
    · trivial
  · rw [if_neg (by rw [hd.2]; exact hnum)]
    exact hd.1.stage (parsePacket_touches env d)

/-- **A call of `parse_execute` for an authenticated client.** -/
theorem Authenticated.parseExecute {c c' : Conn W} {res : ℤ} (hc : Authenticated c)
    (h : clientParseExecute env c = .ok (c', res)) : PacketFrame c c' ∧ Authenticated c' := by
  rw [clientParseExecute_of_authenticated env hc] at h
  have hrule := tcpRpcsCompactParseExecute_inv env (c := c)
    (I := fun d => PacketFrame c d ∧ Authenticated d)
    (Q := fun r => ∀ d res, r = .ok (d, res) → PacketFrame c d ∧ Authenticated d)
    (fun d hd => ?_) ⟨.refl c, hc⟩
  · exact hrule c' res h
  · have htouches := hd.1.stage (parseStages_touches env hd.2)
    have hspec := parseStages_spec env hd.2
    cases hres : parseStages env d with
    | ok e => exact ⟨htouches.ok hres, (hspec.ok hres).1⟩
    | error exit =>
      rintro e res heq
      cases exit with
      | abort a => exact nomatch heq
      | ret e' res' =>
        cases heq
        exact ⟨htouches.error hres, (hspec.error hres).1⟩

/-- A connection goes on as it was for decryption; one that has failed has failed for good. -/
def GoesOn (c c' : Conn W) : Prop := KeepsFraming c c' ∧ (c.cError = true → c'.cError = true)

theorem GoesOn.trans {a b c : Conn W} (h : GoesOn a b) (h' : GoesOn b c) : GoesOn a c :=
  ⟨h.1.trans h'.1, fun ha => h'.2 (h.2 ha)⟩

theorem directConnectToDc_goesOn (env : OutboundEnv W) (c : Conn W) :
    GoesOn c (directConnectToDc env c) := by
  unfold directConnectToDc
  split_ifs
  · exact ⟨⟨⟨rfl, rfl, rfl, rfl, rfl, rfl⟩, rfl, rfl, rfl, rfl, rfl⟩, fun _ => rfl⟩
  · dsimp only
    split
    · unfold directScheduleRetry
      split_ifs
      · exact ⟨⟨⟨rfl, rfl, rfl, rfl, rfl, rfl⟩, rfl, rfl, rfl, rfl, rfl⟩, fun _ => rfl⟩
      · exact ⟨⟨⟨rfl, rfl, rfl, rfl, rfl, rfl⟩, rfl, rfl, rfl, rfl, rfl⟩, id⟩
    · exact ⟨⟨⟨rfl, rfl, rfl, rfl, rfl, rfl⟩, rfl, rfl, rfl, rfl, rfl⟩, id⟩

/-- **What follows the decryption behind the block** touches nothing decryption looks at. -/
theorem acceptObfs2_goesOn {c d : Conn W} {pr : Obfs2ParseResult} {n : ℤ}
    (h : cpuTcpAesCryptoCtr128DecryptInput (startCrypto env c pr) = .ok (d, n)) (hn : 0 ≤ n)
    (slot : ℕ) : StageFrame GoesOn d (acceptObfs2 env pr slot c) := by
  unfold acceptObfs2
  rw [h]
  dsimp only
  rw [if_neg (not_lt.mpr hn)]
  have hset : GoesOn d (setTarget d pr slot) :=
    ⟨⟨⟨rfl, rfl, rfl, rfl, rfl, rfl⟩, rfl, rfl, rfl, rfl, rfl⟩, id⟩
  refine Ends.bind (P := GoesOn d) ?_ fun f hf => ?_
  · unfold admitSlot
    split_ifs
    · exact hset
    · split
      · exact hset.trans ⟨⟨⟨rfl, rfl, rfl, rfl, rfl, rfl⟩, rfl, rfl, rfl, rfl, rfl⟩, id⟩
      · exact hset.trans
          ⟨⟨⟨rfl, rfl, rfl, rfl, rfl, rfl⟩, rfl, rfl, rfl, rfl, rfl⟩, fun _ => rfl⟩
  · have hcount : GoesOn d (countSession env f slot) :=
      hf.trans ⟨⟨⟨rfl, rfl, rfl, rfl, rfl, rfl⟩, rfl, rfl, rfl, rfl, rfl⟩, id⟩
    unfold enterSession
    split_ifs
    · exact hcount.trans (directConnectToDc_goesOn _ _)
    · exact hcount

/-- A client whose obfuscated2 header has been accepted: its packets are taken here, or its bytes
go to a data centre. -/
def PastHeader (c : Conn W) : Prop := Authenticated c ∨ c.IsDirect

/-- **A call of `parse_execute` behind the header.** -/
theorem clientParseExecute_keeps {c c' : Conn W} {res : ℤ} (hc : PastHeader c)
    (h : clientParseExecute env c = .ok (c', res)) : KeepsFraming c c' ∧ PastHeader c' := by
  rcases hc with hauth | hdirect
  · obtain ⟨htouches, hauth'⟩ := hauth.parseExecute env h
    exact ⟨htouches.keepsFraming, Or.inl hauth'⟩
  · have hcall : ClientCall env.toOutboundEnv c c' res := by
      refine .of_parse ?_
      rw [← h]
      unfold clientParseExecute
      rcases hdirect with htype | htype <;> rw [htype]
    have hkeeps : KeepsFraming c c' := by
      cases hcall with
      | waits _ => exact .refl c
      | gone _ => exact ⟨⟨rfl, rfl, rfl, rfl, rfl, rfl⟩, rfl, rfl, rfl, rfl, rfl⟩
      | uncounted _ _ _ => exact ⟨⟨rfl, rfl, rfl, rfl, rfl, rfl⟩, rfl, rfl, rfl, rfl, rfl⟩
      | refused _ _ _ _ => exact ⟨⟨rfl, rfl, rfl, rfl, rfl, rfl⟩, rfl, rfl, rfl, rfl, rfl⟩
      | @relayed _ _ _ _ _ _ delay _ _ =>
        cases delay <;> exact ⟨⟨rfl, rfl, rfl, rfl, rfl, rfl⟩, rfl, rfl, rfl, rfl, rfl⟩
    refine ⟨hkeeps, Or.inr ?_⟩
    have htype := hcall.movesFrom.type
    unfold Conn.IsDirect at hdirect ⊢
    rw [htype]
    exact hdirect

end Session

/-! ### Reads -/

section Reads

variable {W : Type*} (env : ExtServerEnv W)

/-- A connection with the raw bytes its reader has been given, what decryption has put into `in`
since, and what `parse_execute` returned in the last read, call by call. -/
structure Delivery (W : Type*) where
  conn : Conn W
  received : Bytes
  delivered : Bytes
  results : List ℤ

/-- What decryption puts into `in` in a read. -/
def deliveredNow (c : Conn W) (queue : List Bytes) : Bytes :=
  match readerDecode (clientMethods env) (readerFill c queue) with
  | .ok d => d.inp.drop c.inp.length
  | .error (.ok r) => r.conn.inp.drop c.inp.length
  | .error (.error _) => []

/-- A read.  The reader of a connection that has failed is not called. -/
def deliveryStep (s : Except ReaderFault (Delivery W)) (r : Read) :
    Except ReaderFault (Delivery W) :=
  s.bind fun x =>
    if x.conn.cError then .ok { x with results := [] }
    else
      (jobRun (clientMethods env) x.conn r.1 r.2).map fun result =>
        ⟨result.conn, x.received ++ r.1.flatten, x.delivered ++ deliveredNow env x.conn r.1,
          result.results⟩

variable {env}

/-- A connection whose decryption fails is not parsed. -/
theorem jobRun_of_failed {m : ReaderMethods W} {c d : Conn W} {queue : List Bytes}
    (herror : c.cError = false) (hdecode : readerDecode m (readerFill c queue) = .ok d)
    (hd : d.cError = true) (turns : ℕ) : jobRun m c queue turns = .ok ⟨d, -1, []⟩ := by
  have hflags : readerFlags d = .error (.ok ⟨d, -1, []⟩) := by
    unfold readerFlags
    rw [if_pos (Or.inr (Or.inl hd))]
  rw [jobRun_of_live herror, cpuTcpServerReader, readerFront, hdecode]
  simp only [Except.bind, hflags]

/-- The methods of a client's connection with nothing left to decrypt. -/
def decodedMethods (env : ExtServerEnv W) : ReaderMethods W :=
  { clientMethods env with
    cryptoDecryptInput := fun c => .ok (c, 0)
    cryptoDecryptInput_skipBytes := by
      intro c c' res h
      cases h
      rfl }

/-- **Behind decryption** a read spares what decryption looks at. -/
theorem jobRun_keeps {c d : Conn W} {queue : List Bytes} {turns : ℕ} {r : ReaderResult W}
    (herror : c.cError = false)
    (hdecode : readerDecode (clientMethods env) (readerFill c queue) = .ok d)
    (hd : d.cError = false) (hcrypto : d.crypto.isSome = true) (hpast : PastHeader d)
    (h : jobRun (clientMethods env) c queue turns = .ok r) :
    KeepsFraming d r.conn ∧ PastHeader r.conn := by
  have hfill (e : Conn W) (he : e.crypto.isSome = true) : readerFill e [] = e := by
    rw [readerFill_crypto he]
    unfold Conn.pend
    rw [List.flatten_nil, List.append_nil]
  have hdecoded (e : Conn W) (he : e.crypto.isSome = true) :
      readerDecode (decodedMethods env) e = .ok e := by
    unfold readerDecode
    rw [if_pos he]
    rfl
  have hparse : (clientMethods env).parseExecute = (decodedMethods env).parseExecute := rfl
  have hpastSkip {e : Conn W} {skip : ℤ} (he : PastHeader e) :
      PastHeader { e with skipBytes := skip } :=
    he.imp (fun h => ⟨h.type, h.crypto, h.wsState, h.inPacketNum⟩) id
  have hpastAfter {e : Conn W} {n : ℕ} {skip : ℤ} (he : PastHeader e) :
      PastHeader (e.afterSkip n skip) :=
    he.imp (fun h => ⟨h.type, h.crypto, h.wsState, h.inPacketNum⟩) id
  rw [jobRun_congr hparse herror (d := d) hd
    (show _ = readerDecode (decodedMethods env) (readerFill d []) by
      rw [hdecode, hfill d hcrypto, hdecoded d hcrypto]) turns] at h
  have hrule := jobRun_leaves_of_filled (m := decodedMethods env)
    (I := fun e => KeepsFraming d e ∧ PastHeader e) (P := fun _ => True) (F := fun _ => True)
    (c := d) (q := []) (n := turns)
    (by rw [hfill d hcrypto]; exact ⟨.refl d, hpast⟩) (fun _ => ⟨.refl d, hpast⟩)
    (fun e he => by
      rw [hdecoded e (by rw [he.1.crypto]; exact hcrypto)]
      exact he)
    (fun e he => readerSkip_leaves he
      (fun n skip => ⟨he.1.trans ⟨⟨rfl, rfl, rfl, rfl, rfl, rfl⟩, rfl, rfl, rfl, rfl, rfl⟩,
        hpastAfter he.2⟩) fun _ => trivial)
    (fun e he _ _ => by
      cases hres : (decodedMethods env).parseExecute e with
      | error a => trivial
      | ok p =>
        obtain ⟨e', res⟩ := p
        obtain ⟨hkeeps, hpast'⟩ := clientParseExecute_keeps env he.2 hres
        show KeepsFraming d (storeResult e' res) ∧ PastHeader (storeResult e' res)
        unfold storeResult
        split_ifs
        · exact ⟨he.1.trans hkeeps, hpast'⟩
        · exact ⟨(he.1.trans hkeeps).trans
            ⟨⟨rfl, rfl, rfl, rfl, rfl, rfl⟩, rfl, rfl, rfl, rfl, rfl⟩, hpastSkip hpast'⟩)
    (fun _ d _ => eachTurnFor_of_forall (fun _ _ => trivial) _ _)
  rw [h] at hrule
  exact hrule

theorem PastHeader.decrypted {c d : Conn W} (h : PastHeader c) (hframe : DecryptFrame c d) :
    PastHeader d := by
  have htype : d.type = c.type := by rw [hframe.rest]
  rcases h with h | h
  · exact Or.inl ⟨htype ▸ h.type, hframe.crypto h.crypto, hframe.wsState ▸ h.wsState,
      hframe.rpc ▸ h.inPacketNum⟩
  · unfold PastHeader Conn.IsDirect at *
    rw [htype]
    exact Or.inr h

theorem deliveryStep_of_live {x : Delivery W} (hlive : x.conn.cError = false) (r : Read) :
    deliveryStep env (.ok x) r = (jobRun (clientMethods env) x.conn r.1 r.2).map fun result =>
      ⟨result.conn, x.received ++ r.1.flatten, x.delivered ++ deliveredNow env x.conn r.1,
        result.results⟩ := by
  show (if x.conn.cError then _ else _) = _
  rw [hlive]
  rfl

theorem deliveryStep_received {x x' : Delivery W} (hlive : x.conn.cError = false) {r : Read}
    (h : deliveryStep env (.ok x) r = .ok x') : x'.received = x.received ++ r.1.flatten := by
  rw [deliveryStep_of_live hlive] at h
  cases hrun : jobRun (clientMethods env) x.conn r.1 r.2 with
  | error f =>
    rw [hrun] at h
    exact nomatch h
  | ok result =>
    rw [hrun] at h
    cases h
    rfl

end Reads

/-! ### Decryption and deframing side by side -/

section Deframing

variable {W : Type*}

/-- Bytes that stand in `in` already. -/
def Conn.preceded (pre : Bytes) (c : Conn W) : Conn W := { c with inp := pre ++ c.inp }

/-- An exit of the loop that decrypts, with bytes in front. -/
def precededExit (pre : Bytes) (exit : DecryptExit W) : DecryptExit W :=
  exit.map fun p => (p.1.preceded pre, p.2)

section Preceded

variable (pre : Bytes) (c : Conn W) (T : AesCrypto)

theorem decryptTo_preceded (len : ℕ) :
    decryptTo (c.preceded pre) T len = (decryptTo c T len).preceded pre := by
  simp only [decryptTo, Conn.preceded, List.append_assoc]

theorem decryptWsPayload_preceded :
    decryptWsPayload (c.preceded pre) T = (decryptWsPayload c T).preceded pre := by
  simp only [decryptWsPayload, Conn.preceded, List.append_assoc]

theorem decryptWsTurn_preceded :
    decryptWsTurn (c.preceded pre) T =
      (decryptWsTurn c T).map (Conn.preceded pre) (precededExit pre) := by
  unfold decryptWsTurn
  by_cases h0 : c.wsFrameRemaining = 0
  · rw [if_pos h0, if_pos (show (c.preceded pre).wsFrameRemaining = 0 from h0)]
    dsimp only [Conn.preceded]
    cases wsParseFrameHeader ⟨c.inU, 0, c.wsMask, c.wsMaskOffset⟩ with
    | error a => rfl
    | ok p =>
      obtain ⟨w, payloadLen⟩ := p
      dsimp only
      split_ifs
      · rfl
      · rfl
      · exact congrArg Turn.again (decryptWsPayload_preceded pre { c with
          inU := w.input
          wsFrameRemaining := w.remaining
          wsMask := w.mask
          wsMaskOffset := w.maskOffset } T)
  · rw [if_neg h0, if_neg (show ¬ (c.preceded pre).wsFrameRemaining = 0 from h0)]
    exact congrArg Turn.again (decryptWsPayload_preceded pre c T)

theorem decryptChunkTurn_preceded :
    decryptChunkTurn (c.preceded pre) T =
      (decryptChunkTurn c T).map (Conn.preceded pre) (precededExit pre) := by
  unfold decryptChunkTurn
  dsimp only [Conn.preceded]
  cases Unwrap.advance httpStreamChunkHeaderParse
      ⟨c.inU, [], 0, c.httpChunkRemaining, c.httpChunkHeaderState⟩ with
  | error exit =>
    obtain ⟨u, failure⟩ := exit
    cases failure <;> rfl
  | ok u =>
    refine congrArg Turn.again ?_
    simp only [decryptChunkPayload, decryptTo, Conn.preceded, List.append_assoc]

theorem decryptTlsTurn_preceded :
    decryptTlsTurn (c.preceded pre) T =
      (decryptTlsTurn c T).map (Conn.preceded pre) (precededExit pre) := by
  have hpayload (d : Conn W) (left : ℕ) : decryptTlsPayload (d.preceded pre) T left =
      (decryptTlsPayload d T left).preceded pre := by
    simp only [decryptTlsPayload, decryptTo, Conn.preceded, List.append_assoc]
  unfold decryptTlsTurn
  show (if c.leftTlsPacketLength < 0 then _ else if c.leftTlsPacketLength = 0 then
    (if c.inU.length < 5 then _ else if c.inU.take 3 ≠ [0x17, 0x03, 0x03] then _ else _)
    else _) = _
  split_ifs
  · rfl
  · rfl
  · rfl
  · exact congrArg Turn.again (hpayload { c with inU := c.inU.drop 5 } _)
  · exact congrArg Turn.again (hpayload c _)

/-- A turn does not look at what is in `in`. -/
theorem decryptTurn_preceded :
    decryptTurn (c.preceded pre) =
      (decryptTurn c).map (Conn.preceded pre) (precededExit pre) := by
  unfold decryptTurn
  have hcrypto : (c.preceded pre).crypto = c.crypto := rfl
  rw [hcrypto]
  cases c.crypto with
  | none => rfl
  | some T =>
    show (if c.inU.length = 0 then _ else if c.wsState = WsState.active then _
      else if c.transportMode = TransportMode.httpStream then _ else if c.cIsTls then _ else _) = _
    split_ifs
    · rfl
    · exact decryptWsTurn_preceded pre c T
    · exact decryptChunkTurn_preceded pre c T
    · exact decryptTlsTurn_preceded pre c T
    · exact congrArg Turn.again (decryptTo_preceded pre c T _)

/-- **Decryption does not look at what is in `in`.** -/
theorem decryptInput_preceded :
    cpuTcpAesCryptoCtr128DecryptInput (c.preceded pre) =
      precededExit pre (cpuTcpAesCryptoCtr128DecryptInput c) :=
  loop_map (I := fun _ => True) decryptTurn_shrinks decryptTurn_shrinks (Conn.preceded pre)
    (precededExit pre) (fun _ _ _ _ => trivial) (fun d _ => decryptTurn_preceded pre d) trivial

end Preceded

/-- What a turn leaves with is never negative. -/
theorem decryptTurn_nonneg {c c' : Conn W} {n : ℤ}
    (h : decryptTurn c = .done (.ok (c', n))) : 0 ≤ n := by
  have hexit {d : Conn W} {r : ℤ} (hr : 0 ≤ r)
      (h : (.done (.ok (d, r)) : Turn (Conn W) (DecryptExit W)) = .done (.ok (c', n))) : 0 ≤ n :=
    (Prod.mk.inj (Except.ok.inj (Turn.done.inj h))).2 ▸ hr
  unfold decryptTurn at h
  cases hT : c.crypto with
  | none =>
    rw [hT] at h
    exact nomatch h
  | some T =>
    rw [hT] at h
    dsimp only at h
    split_ifs at h
    · exact hexit (le_refl 0) h
    · unfold decryptWsTurn at h
      split_ifs at h
      cases hparse : wsParseFrameHeader ⟨c.inU, 0, c.wsMask, c.wsMaskOffset⟩ with
      | error a =>
        rw [hparse] at h
        exact nomatch h
      | ok p =>
        rw [hparse] at h
        dsimp only at h
        split_ifs at h
        · exact hexit (le_refl 0) h
        · exact hexit (le_refl 0) h
    · unfold decryptChunkTurn at h
      dsimp only at h
      split at h
      · exact hexit (le_refl 0) h
      · exact hexit (le_refl 0) h
      · exact nomatch h
    · unfold decryptTlsTurn at h
      split_ifs at h
      · exact nomatch h
      · exact hexit (by omega) h
      · exact hexit (le_refl 0) h

/-- What `crypto_decrypt_input` returns is never negative. -/
theorem decryptInput_nonneg {c c' : Conn W} {n : ℤ}
    (h : cpuTcpAesCryptoCtr128DecryptInput c = .ok (c', n)) : 0 ≤ n := by
  have hloop := loop_inv (I := fun _ => True)
    (Q := fun exit => ∀ d n, exit = .ok (d, n) → 0 ≤ n) (s := c) (decryptTurn_shrinks (W := W))
    (fun _ _ _ _ => trivial)
    (fun d exit _ hexit d' n heq => decryptTurn_nonneg (hexit.trans (congrArg Turn.done heq)))
    trivial
  exact hloop c' n h

/-- **A connection in a run of reads, and the same connection without a cipher** and with no packet
taken out: they stand in the same place of the framing, and what has been delivered is what the
framing has given up, decrypted. -/
structure Mirrors (T : AesCrypto) (x : Delivery W) (d : Conn W) : Prop where
  past : PastHeader x.conn
  live : x.conn.cError = false
  crypto : x.conn.crypto = some ⟨⟨T.read.ks, T.read.pos + d.inp.length⟩, T.write⟩
  delivered : x.delivered = xorAt T.read.ks T.read.pos d.inp
  unciphered : Unciphered d
  deframed : d.cError = false
  inU : x.conn.inU = d.inU
  cIsTls : x.conn.cIsTls = d.cIsTls
  leftTlsPacketLength : x.conn.leftTlsPacketLength = d.leftTlsPacketLength
  wsState : x.conn.wsState = d.wsState
  wsFrameRemaining : x.conn.wsFrameRemaining = d.wsFrameRemaining
  wsMask : x.conn.wsMask = d.wsMask
  wsMaskOffset : x.conn.wsMaskOffset = d.wsMaskOffset
  transportMode : x.conn.transportMode = d.transportMode
  httpChunkRemaining : x.conn.httpChunkRemaining = d.httpChunkRemaining
  httpChunkHeaderState : x.conn.httpChunkHeaderState = d.httpChunkHeaderState

/-- The bytes of a read in `in_u`, on a connection that reports what `c` reports. -/
def Conn.reads (d c : Conn W) (bytes : Bytes) : Conn W :=
  { d.pend bytes with status := c.status, error := c.error }

section Mirror

variable {env : ExtServerEnv W} {T : AesCrypto} {x : Delivery W} {d : Conn W}

/-- The call of a read, seen from the connection without a cipher. -/
theorem Mirrors.decryptInput (h : Mirrors T x d) (bytes : Bytes) :
    cpuTcpAesCryptoCtr128DecryptInput (x.conn.pend bytes) =
        precededExit x.conn.inp (decipheredExit x.conn T.read.ks (T.read.pos + d.inp.length) T.write
          (cpuTcpAesCryptoCtr128DecryptInput { d.reads x.conn bytes with inp := [] })) ∧
      cpuTcpAesCryptoCtr128DecryptInput (d.reads x.conn bytes) =
        precededExit d.inp
          (cpuTcpAesCryptoCtr128DecryptInput { d.reads x.conn bytes with inp := [] }) := by
  have hx : x.conn.pend bytes = (deciphered x.conn T.read.ks (T.read.pos + d.inp.length) T.write
      { d.reads x.conn bytes with inp := [] }).preceded x.conn.inp := by
    have hlive := h.live
    have hcrypto := h.crypto
    have h1 := h.inU
    have h2 := h.cIsTls
    have h3 := h.leftTlsPacketLength
    have h4 := h.wsState
    have h5 := h.wsFrameRemaining
    have h6 := h.wsMask
    have h7 := h.wsMaskOffset
    have h8 := h.transportMode
    have h9 := h.httpChunkRemaining
    have h10 := h.httpChunkHeaderState
    have h11 := h.deframed
    generalize x.conn = c at *
    obtain ⟨⟩ := c
    simp_all [Conn.pend, Conn.preceded, deciphered, Conn.reads]
  have hd : d.reads x.conn bytes =
      ({ d.reads x.conn bytes with inp := [] } : Conn W).preceded d.inp := by
    simp [Conn.preceded, Conn.reads, Conn.pend]
  constructor
  · rw [hx, decryptInput_preceded, decryptInput_deciphered]
    exact h.unciphered
  · exact (congrArg cpuTcpAesCryptoCtr128DecryptInput hd).trans (decryptInput_preceded d.inp _)

variable (env) in
/-- **One read.**  The framing comes off as it does without a cipher, and what it gives up is
delivered; a connection that decryption fails is not parsed. -/
theorem Mirrors.read (h : Mirrors T x d) (r : Read) :
    (∃ a, cpuTcpAesCryptoCtr128DecryptInput (d.reads x.conn r.1.flatten) = .error a ∧
        deliveryStep env (.ok x) r = .error (.method a)) ∨
      ∃ d' n, cpuTcpAesCryptoCtr128DecryptInput (d.reads x.conn r.1.flatten) = .ok (d', n) ∧
        ∀ x', deliveryStep env (.ok x) r = .ok x' →
          x'.received = x.received ++ r.1.flatten ∧
            x'.delivered = xorAt T.read.ks T.read.pos d'.inp ∧
              x'.conn.leftTlsPacketLength = d'.leftTlsPacketLength ∧ x'.conn.inU = d'.inU ∧
              (d'.cError = true ∧ x'.conn.cError = true ∧ x'.results = [] ∨
                d'.cError = false ∧ (x'.conn.cError = false → Mirrors T x' d')) := by
  obtain ⟨hx, hd⟩ := h.decryptInput r.1.flatten
  have hsome : x.conn.crypto.isSome = true := by rw [h.crypto]; rfl
  have hfill : readerFill x.conn r.1 = x.conn.pend r.1.flatten := readerFill_crypto hsome r.1
  have hpend : (x.conn.pend r.1.flatten).crypto.isSome = true := hsome
  cases he : cpuTcpAesCryptoCtr128DecryptInput { d.reads x.conn r.1.flatten with inp := [] } with
  | error a =>
    rw [he] at hx hd
    have hdecode : readerDecode (clientMethods env) (readerFill x.conn r.1) =
        .error (.error (.method a)) := by
      rw [hfill]
      unfold readerDecode
      rw [if_pos hpend, show (clientMethods env).cryptoDecryptInput (x.conn.pend r.1.flatten) =
        .error a from hx]
    refine Or.inl ⟨a, hd, ?_⟩
    rw [deliveryStep_of_live h.live, jobRun_of_live h.live, cpuTcpServerReader, readerFront, hdecode]
    rfl
  | ok p =>
    obtain ⟨e, n⟩ := p
    rw [he] at hx hd
    have hnonneg := decryptInput_nonneg he
    have hunciphered : Unciphered e := by
      refine decryptInput_unciphered ?_ he
      exact h.unciphered
    generalize hdec : (deciphered x.conn T.read.ks (T.read.pos + d.inp.length) T.write e).preceded
      x.conn.inp = c' at hx
    have hdecode : readerDecode (clientMethods env) (readerFill x.conn r.1) = .ok c' := by
      rw [hfill]
      unfold readerDecode
      rw [if_pos hpend, show (clientMethods env).cryptoDecryptInput (x.conn.pend r.1.flatten) =
        .ok (c', n) from hx.trans (congrArg (fun y => Except.ok (y, n)) hdec)]
      exact if_neg (not_lt.mpr hnonneg)
    have hnow : deliveredNow env x.conn r.1 =
        xorAt T.read.ks (T.read.pos + d.inp.length) e.inp := by
      unfold deliveredNow
      rw [hdecode, ← hdec]
      exact List.drop_left
    have hdelivered : x.delivered ++ deliveredNow env x.conn r.1 =
        xorAt T.read.ks T.read.pos (d.inp ++ e.inp) := by
      rw [hnow, h.delivered, xorAt_append]
    refine Or.inr ⟨e.preceded d.inp, n, hd, fun x' hstep => ?_⟩
    have hreceived := deliveryStep_received h.live hstep
    rw [deliveryStep_of_live h.live] at hstep
    cases herror : e.cError with
    | true =>
      have hfailed : c'.cError = true := by rw [← hdec]; exact herror
      rw [jobRun_of_failed h.live hdecode hfailed r.2] at hstep
      obtain rfl := Except.ok.inj hstep
      exact ⟨hreceived, hdelivered, by rw [← hdec]; rfl, by rw [← hdec]; rfl,
        Or.inl ⟨herror, hfailed, rfl⟩⟩
    | false =>
      have hlive : c'.cError = false := by rw [← hdec]; exact herror
      have hcrypto : c'.crypto =
          some ⟨⟨T.read.ks, T.read.pos + d.inp.length + e.inp.length⟩, T.write⟩ := by
        rw [← hdec]
        rfl
      have hpast : PastHeader c' := by
        refine PastHeader.decrypted (c := x.conn.pend r.1.flatten) ?_
          (cpuTcpAesCryptoCtr128DecryptInput_frame
            (hx.trans (congrArg (fun y => Except.ok (y, n)) hdec)))
        exact h.past.imp (fun h => ⟨h.type, h.crypto, h.wsState, h.inPacketNum⟩) id
      cases hrun : jobRun (clientMethods env) x.conn r.1 r.2 with
      | error f =>
        rw [hrun] at hstep
        cases hstep
      | ok result =>
        rw [hrun] at hstep
        obtain ⟨hkeeps, hpast'⟩ := jobRun_keeps h.live hdecode hlive (by rw [hcrypto]; rfl) hpast hrun
        obtain rfl := Except.ok.inj hstep
        refine ⟨hreceived, hdelivered, by rw [hkeeps.leftTlsPacketLength, ← hdec]; rfl,
          by rw [hkeeps.inU, ← hdec]; rfl, Or.inr ⟨herror, fun hlive' => ?_⟩⟩
        have hresult : result.conn.crypto = some ⟨⟨T.read.ks, T.read.pos +
            (d.inp ++ e.inp).length⟩, T.write⟩ := by
          rw [hkeeps.crypto, hcrypto, List.length_append, Nat.add_assoc]
        subst hdec
        exact ⟨hpast', hlive', hresult, hdelivered, hunciphered, herror, hkeeps.inU, hkeeps.cIsTls,
          hkeeps.leftTlsPacketLength, hkeeps.wsState, hkeeps.wsFrameRemaining, hkeeps.wsMask,
          hkeeps.wsMaskOffset, hkeeps.transportMode, hkeeps.httpChunkRemaining,
          hkeeps.httpChunkHeaderState⟩

/-- What the call of a read does with more bytes is what the framing does. -/
theorem Mirrors.decrypts (h : Mirrors T x d) {bytes : Bytes} {d' : Conn W} {n : ℤ}
    (hd' : cpuTcpAesCryptoCtr128DecryptInput (d.reads x.conn bytes) = .ok (d', n)) :
    ∃ c', cpuTcpAesCryptoCtr128DecryptInput (x.conn.pend bytes) = .ok (c', n) ∧
      c'.cError = d'.cError ∧ c'.leftTlsPacketLength = d'.leftTlsPacketLength ∧
      c'.inU = d'.inU := by
  obtain ⟨hx, hd⟩ := h.decryptInput bytes
  rw [hd'] at hd
  cases he : cpuTcpAesCryptoCtr128DecryptInput { d.reads x.conn bytes with inp := [] } with
  | error a =>
    rw [he] at hd
    exact nomatch hd
  | ok p =>
    obtain ⟨e, m⟩ := p
    rw [he] at hx hd
    cases hd
    exact ⟨_, hx, rfl, rfl, rfl⟩

/-- The call of a read comes from one on the connection without a cipher. -/
theorem Mirrors.decrypted (h : Mirrors T x d) {bytes : Bytes} {c' : Conn W} {n : ℤ}
    (hc' : cpuTcpAesCryptoCtr128DecryptInput (x.conn.pend bytes) = .ok (c', n)) :
    ∃ d', cpuTcpAesCryptoCtr128DecryptInput (d.reads x.conn bytes) = .ok (d', n) ∧
      c'.cError = d'.cError ∧ c'.inU = d'.inU := by
  obtain ⟨hx, hd⟩ := h.decryptInput bytes
  rw [hc'] at hx
  cases he : cpuTcpAesCryptoCtr128DecryptInput { d.reads x.conn bytes with inp := [] } with
  | error a =>
    rw [he] at hx
    exact nomatch hx
  | ok p =>
    obtain ⟨e, m⟩ := p
    rw [he] at hx hd
    cases hx
    exact ⟨_, hd, rfl, rfl⟩

/-- **Where a run begins.**  The call that follows the block decrypts what the framing gives up,
and a connection that keeps what decryption looks at goes on from there. -/
theorem startCrypto_mirrors {c : Conn W} {raw : Bytes} (pr : Obfs2ParseResult)
    (hraw : (startCrypto env c pr).inU = raw) {d : Conn W} {n : ℤ}
    (hd : cpuTcpAesCryptoCtr128DecryptInput (deframing c raw) = .ok (d, n)) :
    ∃ c', cpuTcpAesCryptoCtr128DecryptInput (startCrypto env c pr) = .ok (c', n) ∧
      c'.inp = xorAt (env.prim.aes256Ctr pr.keys.readKey pr.keys.readIv) 64 d.inp ∧
      c'.leftTlsPacketLength = d.leftTlsPacketLength ∧ c'.cError = d.cError ∧
      ∀ (y : Conn W) (received : Bytes) (results : List ℤ), KeepsFraming c' y → PastHeader y →
        y.cError = false → d.cError = false →
        Mirrors ⟨⟨env.prim.aes256Ctr pr.keys.readKey pr.keys.readIv, 64⟩,
          ⟨env.prim.aes256Ctr pr.keys.writeKey pr.keys.writeIv, 0⟩⟩ ⟨y, received, c'.inp, results⟩
          d := by
  have hun : Unciphered (deframing c raw) := ⟨0, noCipher, rfl⟩
  have hcall := decryptInput_deciphered (startCrypto env c pr)
    (env.prim.aes256Ctr pr.keys.readKey pr.keys.readIv) 64
    ⟨env.prim.aes256Ctr pr.keys.writeKey pr.keys.writeIv, 0⟩ hun
  rw [← startCrypto_deciphered env c pr hraw, hd] at hcall
  refine ⟨_, hcall, rfl, rfl, rfl, fun y received results hkeeps hpast hlive hdlive => ?_⟩
  exact ⟨hpast, hlive, hkeeps.crypto, rfl, decryptInput_unciphered hun hd, hdlive, hkeeps.inU,
    hkeeps.cIsTls, hkeeps.leftTlsPacketLength, hkeeps.wsState, hkeeps.wsFrameRemaining,
    hkeeps.wsMask, hkeeps.wsMaskOffset, hkeeps.transportMode, hkeeps.httpChunkRemaining,
    hkeeps.httpChunkHeaderState⟩

end Mirror

end Deframing

end Server
end Teleproto3
