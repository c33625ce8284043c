/-
# The parser's loop

The loop of `tcp_rpcs_compact_parse_execute` and the methods of the types a client's
connection passes through.

Every stage leaves `skip_bytes` alone and adds no byte to what the connection holds, and
a turn that is followed by another one has taken bytes away: so the loop ends.  The
stages behind the detector leave the transport alone as well.
-/

import Teleproto3.Server.ExtServer
import Teleproto3.Server.Reader

namespace Teleproto3
namespace Server

open Lib

variable {W : Type*}

/-! ### Frames -/

/-- What every stage leaves alone. -/
structure ParseFrame (c c' : Conn W) : Prop where
  held_le : held c' ≤ held c
  skipBytes : c'.skipBytes = c.skipBytes

/-- What every stage behind the detector leaves alone. -/
structure LateFrame (c c' : Conn W) : Prop extends ParseFrame c c' where
  wsState : c'.wsState = c.wsState
  transportMode : c'.transportMode = c.transportMode

/-- A frame around an exit. -/
def ExitFrame (F : Conn W → Conn W → Prop) (c : Conn W) : ParseExit W → Prop
  | .ret c' _ => F c c'
  | .abort _ => True

/-- A frame around a stage. -/
abbrev StageFrame (F : Conn W → Conn W → Prop) (c : Conn W) (x : Except (ParseExit W) (Conn W)) :
    Prop :=
  Ends (F c) (ExitFrame F c) x

/-- A frame around a stage that takes bytes away where it is passed. -/
abbrev TakesBytes (c : Conn W) (x : Except (ParseExit W) (Conn W)) : Prop :=
  Ends (fun c' => LateFrame c c' ∧ held c' < held c) (ExitFrame LateFrame c) x

section Frames

variable {a b c : Conn W}

theorem ParseFrame.trans (h : ParseFrame a b) (h' : ParseFrame b c) : ParseFrame a c :=
  ⟨h'.held_le.trans h.held_le, h'.skipBytes.trans h.skipBytes⟩

theorem LateFrame.trans (h : LateFrame a b) (h' : LateFrame b c) : LateFrame a c where
  toParseFrame := h.toParseFrame.trans h'.toParseFrame
  wsState := h'.wsState.trans h.wsState
  transportMode := h'.transportMode.trans h.transportMode

theorem LateFrame.refl (c : Conn W) : LateFrame c c := ⟨⟨le_refl _, rfl⟩, rfl, rfl⟩

theorem LateFrame.failConnection (h : LateFrame a b) (err : ℤ) :
    LateFrame a (failConnection b err) :=
  ⟨⟨h.held_le, h.skipBytes⟩, h.wsState, h.transportMode⟩

/-- Bytes taken from the front of `in`. -/
theorem LateFrame.of_drop {n : ℕ} (hin : b.inp = a.inp.drop n) (hu : b.inU = a.inU)
    (hs : b.skipBytes = a.skipBytes) (hw : b.wsState = a.wsState)
    (ht : b.transportMode = a.transportMode) : LateFrame a b := by
  refine ⟨⟨?_, hs⟩, hw, ht⟩
  rw [held, held, hin, hu, List.length_drop]
  omega

theorem LateFrame.of_eq (hin : b.inp = a.inp) (hu : b.inU = a.inU)
    (hs : b.skipBytes = a.skipBytes) (hw : b.wsState = a.wsState)
    (ht : b.transportMode = a.transportMode) : LateFrame a b :=
  .of_drop (n := 0) hin hu hs hw ht

theorem DecryptFrame.late (h : DecryptFrame a b) : LateFrame a b :=
  ⟨⟨h.held_le, h.skipBytes⟩, h.wsState, h.transportMode⟩

/-- A frame around a stage that begins where another frame ends. -/
theorem StageFrame.after {x : Except (ParseExit W) (Conn W)} {F : Conn W → Conn W → Prop}
    (htrans : ∀ a b c, F a b → F b c → F a c) (h : F a b) (hx : StageFrame F b x) :
    StageFrame F a x := by
  refine hx.mono (fun d hd => htrans a b d h hd) ?_
  rintro (⟨d, res⟩ | _) hd
  · exact htrans a b d h hd
  · trivial

theorem ParseFrame.stage {x : Except (ParseExit W) (Conn W)} (h : ParseFrame a b)
    (hx : StageFrame ParseFrame b x) : StageFrame ParseFrame a x :=
  StageFrame.after (fun _ _ _ => ParseFrame.trans) h hx

theorem LateFrame.stage {x : Except (ParseExit W) (Conn W)} (h : LateFrame a b)
    (hx : StageFrame LateFrame b x) : StageFrame LateFrame a x :=
  StageFrame.after (fun _ _ _ => LateFrame.trans) h hx

theorem TakesBytes.after {x : Except (ParseExit W) (Conn W)} (h : LateFrame a b)
    (hx : TakesBytes b x) : TakesBytes a x := by
  refine hx.mono ?_ ?_
  · rintro d ⟨hd, hlt⟩
    exact ⟨h.trans hd, lt_of_lt_of_le hlt h.held_le⟩
  · rintro (⟨d, res⟩ | _) hd
    · exact h.trans hd
    · trivial

/-- Frames compose along a chain of stages. -/
theorem ParseFrame.bind {x : Except (ParseExit W) (Conn W)} {f : Stage W}
    (hx : StageFrame ParseFrame c x) (hf : ∀ c', StageFrame ParseFrame c' (f c')) :
    StageFrame ParseFrame c (x.bind f) :=
  Ends.bind hx fun c' hc' => hc'.stage (hf c')

theorem LateFrame.bind {x : Except (ParseExit W) (Conn W)} {f : Stage W}
    (hx : StageFrame LateFrame c x) (hf : ∀ c', StageFrame LateFrame c' (f c')) :
    StageFrame LateFrame c (x.bind f) :=
  Ends.bind hx fun c' hc' => hc'.stage (hf c')

theorem TakesBytes.bind {x : Except (ParseExit W) (Conn W)} {f : Stage W}
    (hx : StageFrame LateFrame c x) (hf : ∀ c', TakesBytes c' (f c')) : TakesBytes c (x.bind f) :=
  Ends.bind hx fun c' hc' => TakesBytes.after hc' (hf c')

theorem StageFrame.late {x : Except (ParseExit W) (Conn W)} (h : StageFrame LateFrame c x) :
    StageFrame ParseFrame c x := by
  refine Ends.mono h (fun d hd => hd.toParseFrame) ?_
  rintro (⟨d, res⟩ | a) hd
  · exact hd.toParseFrame
  · trivial

end Frames

/-! ### The stages -/

theorem needInput_frame (c : Conn W) : StageFrame LateFrame c (needInput c) := by
  unfold needInput
  split_ifs <;> exact LateFrame.refl c

theorem enterHttpStream_frame (c : Conn W) (buf : Bytes) (headersLen : ℕ) :
    ParseFrame c (enterHttpStream c buf headersLen) :=
  ⟨Nat.add_le_add_right ((List.length_drop).trans_le (Nat.sub_le _ _)) _, rfl⟩

theorem transitionUnwrap_frame (c : Conn W) : StageFrame LateFrame c (transitionUnwrap c) := by
  unfold transitionUnwrap
  by_cases hmode : c.inp.length > 0 ∧ c.transportMode = .httpStream
  · rw [if_pos hmode]
    have hsize : Unwrap.size (unwrapLoop transitionChunkHeader ⟨c.inp, [], T3_PRECRYPTO_BYTES,
        c.httpChunkRemaining, c.httpChunkHeaderState⟩).1 ≤ c.inp.length :=
      unwrapLoop_size 16 true _
    cases hloop : unwrapLoop transitionChunkHeader ⟨c.inp, [], T3_PRECRYPTO_BYTES,
      c.httpChunkRemaining, c.httpChunkHeaderState⟩ with
    | mk u failure =>
      rw [hloop, Unwrap.size] at hsize
      cases failure with
      | none =>
        refine ⟨⟨?_, rfl⟩, rfl, rfl⟩
        simp only [held, List.length_append] at hsize ⊢
        omega
      | some err =>
        refine ⟨⟨?_, rfl⟩, rfl, rfl⟩
        change u.src.length + c.inU.length ≤ c.inp.length + c.inU.length
        simp only at hsize
        omega
  · rw [if_neg hmode]
    exact LateFrame.refl c

theorem httpStreamRequest_frame (c : Conn W) : StageFrame ParseFrame c (httpStreamRequest c) := by
  have hrefl : ParseFrame c c := (LateFrame.refl c).toParseFrame
  unfold httpStreamRequest
  cases findSub headersEnd (peekBuf c.inp) with
  | none =>
    dsimp only
    split_ifs
    · exact ((LateFrame.refl c).failConnection _).toParseFrame
    · exact hrefl
  | some headersLen =>
    exact (enterHttpStream_frame c _ headersLen).stage
      (LateFrame.bind (transitionUnwrap_frame _) needInput_frame).late

theorem wsHandshake_frame (acceptKey : Bytes → Option Bytes) (c : Conn W) :
    StageFrame ParseFrame c (wsHandshake acceptKey c) := by
  have hrefl : ParseFrame c c := (LateFrame.refl c).toParseFrame
  have henter (key : Bytes) : ParseFrame c (enterWs c key) :=
    ⟨Nat.add_le_add_right ((List.length_drop).trans_le (Nat.sub_le _ _)) _, rfl⟩
  unfold wsHandshake
  cases wsParseUpgradeRequest c.inp with
  | needMore => exact hrefl
  | refused =>
    show ParseFrame c _
    exact ⟨le_refl _, rfl⟩
  | upgrade wsKey =>
    dsimp only
    cases acceptKey wsKey with
    | none =>
      show ParseFrame c _
      exact ⟨le_refl _, rfl⟩
    | some accept => exact (henter accept).stage (needInput_frame (enterWs c accept)).late

theorem detect_frame (acceptKey : Bytes → Option Bytes) (c : Conn W) :
    StageFrame ParseFrame c (detect acceptKey c) := by
  have hrefl (d : Conn W) : StageFrame ParseFrame d (.ok d) := (LateFrame.refl d).toParseFrame
  unfold detect
  by_cases hws : c.wsState = .handshake
  · rw [if_pos hws]
    refine ParseFrame.bind ?_ fun d => ?_
    · split_ifs
      · exact httpStreamRequest_frame c
      · exact hrefl c
    · split_ifs
      · exact wsHandshake_frame acceptKey d
      · exact hrefl d
  · rw [if_neg hws]
    exact hrefl c

section Session

variable (env : ExtServerEnv W)

theorem wsPreCrypto_frame (c : Conn W) : StageFrame LateFrame c (wsPreCrypto c) := by
  unfold wsPreCrypto
  cases hloop : wsUnwrapLoop
    ⟨⟨c.inp, c.wsFrameRemaining, c.wsMask, c.wsMaskOffset⟩, []⟩ with
  | error a => trivial
  | ok p =>
    obtain ⟨u, alive⟩ := p
    have hsize : u.frames.input.length + u.unmasked.length ≤ c.inp.length :=
      wsUnwrapLoop_size hloop
    cases alive with
    | false =>
      refine ⟨⟨?_, rfl⟩, rfl, rfl⟩
      exact Nat.add_le_add_right ((Nat.le_add_right _ _).trans hsize) _
    | true =>
      refine ⟨⟨?_, rfl⟩, rfl, rfl⟩
      refine Nat.add_le_add_right ?_ _
      rw [List.length_append, Nat.add_comm]
      exact hsize

theorem type3DispatchOnCryptoInit_frame (c : Conn W) :
    LateFrame c (type3DispatchOnCryptoInit env.toDispatchEnv c).1 := by
  have hdrop (d : Conn W) : LateFrame d (type3Drop env.toDispatchEnv d) := by
    obtain ⟨timer, world, heq⟩ := type3Drop_frame env.toDispatchEnv d
    rw [heq]
    exact .of_eq rfl rfl rfl rfl rfl
  have hrecord (e : StageEvent) : LateFrame c (c.record e) := .of_eq rfl rfl rfl rfl rfl
  rcases type3DispatchOnCryptoInit_cases env.toDispatchEnv c with
    ⟨-, heq⟩ | ⟨-, -, heq⟩ | ⟨-, -, ⟨r, -, heq⟩ | ⟨-, heq⟩ | ⟨-, heq⟩⟩
  · rw [heq]
    exact hdrop c
  · rw [heq]
    exact .refl c
  · rw [heq]
    exact (hrecord _).trans (hdrop _)
  · rw [heq]
    exact .of_drop (n := 4) rfl rfl rfl rfl rfl
  · rw [heq]
    exact .of_drop (n := 4) rfl rfl rfl rfl rfl

theorem dispatchHook_frame (c : Conn W) : StageFrame LateFrame c (dispatchHook env c) := by
  have hframe := type3DispatchOnCryptoInit_frame env c
  unfold dispatchHook
  cases hdispatch : type3DispatchOnCryptoInit env.toDispatchEnv c with
  | mk d outcome =>
    rw [hdispatch] at hframe
    cases outcome <;> exact hframe

theorem preCrypto_frame (c : Conn W) : StageFrame LateFrame c (preCrypto env c) := by
  unfold preCrypto
  split_ifs
  · exact LateFrame.bind (LateFrame.bind (wsPreCrypto_frame c) needInput_frame)
      (dispatchHook_frame env)
  · exact LateFrame.bind (needInput_frame c) (dispatchHook_frame env)
  · exact LateFrame.refl c

theorem parseFlags_frame (c : Conn W) : StageFrame LateFrame c (parseFlags c) := by
  unfold parseFlags
  dsimp only
  split_ifs <;> exact LateFrame.of_eq rfl rfl rfl rfl rfl

theorem parseLength_frame (c : Conn W) : StageFrame LateFrame c (parseLength c) := by
  unfold parseLength
  split_ifs
  · exact LateFrame.refl c
  · exact LateFrame.refl c
  · trivial
  · exact LateFrame.refl c

theorem proxyHeader_frame (c : Conn W) : StageFrame LateFrame c (proxyHeader env c) := by
  unfold proxyHeader
  by_cases hproxy : c.cProxyProtocol = true
  · rw [if_pos hproxy]
    cases env.proxyProtocolParse c.inp with
    | needMore => exact LateFrame.refl c
    | malformed => exact (LateFrame.refl c).failConnection _
    | header consumed addr =>
      have hdrop : LateFrame c
          { (c.record (.proxyHeader (c.inp.take consumed))).skipData consumed with
            cProxyProtocol := false
            remote := addr.getD c.remote } := .of_drop (n := consumed) rfl rfl rfl rfl rfl
      dsimp only
      split_ifs
      · exact hdrop.failConnection _
      · exact hdrop.stage (parseLength_frame _)
  · rw [if_neg hproxy]
    exact LateFrame.refl c

theorem firstTlsPacket_frame (c : Conn W) : StageFrame LateFrame c (firstTlsPacket c) := by
  have hdrop (left : ℤ) : LateFrame c { c.skipData 11 with leftTlsPacketLength := left } :=
    .of_drop (n := 11) rfl rfl rfl rfl rfl
  unfold firstTlsPacket
  split_ifs
  · exact LateFrame.refl c
  · exact (LateFrame.refl c).failConnection _
  · dsimp only
    split_ifs
    · exact LateFrame.refl c
    · exact (hdrop _).failConnection _
    · exact hdrop _

theorem relayTo_frame (c : Conn W) (e : Outbound) : LateFrame c (relayTo c e) :=
  ⟨⟨Nat.add_le_add_right (Nat.zero_le _) _, rfl⟩, rfl, rfl⟩

theorem tcpProxyPassParseExecute_frame (c : Conn W) : LateFrame c (tcpProxyPassParseExecute c) := by
  unfold tcpProxyPassParseExecute
  cases c.extra with
  | null => exact (LateFrame.refl c).failConnection _
  | methods => exact (LateFrame.refl c).failConnection _
  | job e => exact relayTo_frame c e

theorem proxyConnection_frame (env : OutboundEnv W) (c : Conn W) (info : DomainInfo) :
    LateFrame c (proxyConnection env c info) := by
  unfold proxyConnection
  dsimp only
  split_ifs
  · exact .of_eq rfl rfl rfl rfl rfl
  · exact .of_eq rfl rfl rfl rfl rfl
  · exact .of_eq rfl rfl rfl rfl rfl
  · refine LateFrame.trans ?_ (tcpProxyPassParseExecute_frame _)
    exact .of_eq rfl rfl rfl rfl rfl

theorem clientHello_frame (dflt : DomainInfo) (c : Conn W) :
    ExitFrame LateFrame c (clientHello env dflt c) := by
  have hrecord (e : StageEvent) (world : W) : LateFrame c { c.record e with world := world } :=
    .of_eq rfl rfl rfl rfl rfl
  unfold clientHello
  dsimp only
  split_ifs
  · exact LateFrame.refl c
  · cases env.getSniDomainInfo (c.inp.take 4096) with
    | none => exact (hrecord _ c.world).trans (proxyConnection_frame _ _ _)
    | some info =>
      dsimp only
      split
      · exact (hrecord _ _).trans (proxyConnection_frame _ _ _)
      · exact LateFrame.of_drop (n := c.inp.length) rfl rfl rfl rfl rfl

theorem fakeTls_frame (c : Conn W) : StageFrame LateFrame c (fakeTls env c) := by
  unfold fakeTls
  by_cases htls : c.cIsTls = true
  · rw [if_pos htls]
    exact firstTlsPacket_frame c
  · rw [if_neg htls]
    cases env.defaultDomainInfo with
    | none => exact LateFrame.refl c
    | some dflt =>
      dsimp only
      split_ifs
      · exact clientHello_frame env dflt c
      · exact proxyConnection_frame _ _ _
      · exact LateFrame.refl c

theorem directScheduleRetry_frame (env : OutboundEnv W) (c : Conn W) (attempt : ℕ) :
    LateFrame c (directScheduleRetry env c attempt) := by
  unfold directScheduleRetry
  split_ifs <;> exact .of_eq rfl rfl rfl rfl rfl

theorem directConnectToDc_frame (env : OutboundEnv W) (c : Conn W) :
    LateFrame c (directConnectToDc env c) := by
  unfold directConnectToDc
  split_ifs
  · exact .of_eq rfl rfl rfl rfl rfl
  · dsimp only
    split
    · refine LateFrame.trans ?_ (directScheduleRetry_frame _ _ _)
      exact .of_eq rfl rfl rfl rfl rfl
    · exact .of_eq rfl rfl rfl rfl rfl

theorem tcpDirectClientParseExecute_frame (env : OutboundEnv W) {c c' : Conn W} {res : ℤ}
    (h : tcpDirectClientParseExecute env c = .ok (c', res)) : LateFrame c c' := by
  have hok {d : Conn W} {r : ℤ} (heq : (.ok (d, r) : Except Abort (Conn W × ℤ)) = .ok (c', res))
      (hd : LateFrame c d) : LateFrame c c' :=
    (Prod.mk.inj (Except.ok.inj heq)).1 ▸ hd
  unfold tcpDirectClientParseExecute at h
  cases hextra : c.extra with
  | null =>
    rw [hextra] at h
    dsimp only at h
    split_ifs at h
    · exact hok h (.refl c)
    · exact hok h ((LateFrame.refl c).failConnection _)
  | methods =>
    rw [hextra] at h
    exact nomatch h
  | job e =>
    rw [hextra] at h
    dsimp only at h
    split_ifs at h
    · exact hok h (.refl c)
    · exact hok h (.of_eq rfl rfl rfl rfl rfl)
    · refine hok h ((relayTo_frame c e).trans ?_)
      unfold pauseFor
      split <;> exact .of_eq rfl rfl rfl rfl rfl
    · exact hok h (relayTo_frame c e)

theorem startCrypto_frame (c : Conn W) (pr : Obfs2ParseResult) (h : 64 ≤ c.inp.length) :
    LateFrame c (startCrypto env c pr) ∧ held (startCrypto env c pr) < held c := by
  have hheld : held (startCrypto env c pr) + 64 = held c := by
    simp only [held, startCrypto, List.length_append, List.length_drop, List.length_nil]
    omega
  exact ⟨⟨⟨by omega, rfl⟩, rfl, rfl⟩, by omega⟩

theorem admitSlot_frame (slot : ℕ) (c : Conn W) : StageFrame LateFrame c (admitSlot env slot c) := by
  unfold admitSlot
  split_ifs
  · exact LateFrame.refl c
  · split <;> exact LateFrame.of_eq rfl rfl rfl rfl rfl

theorem enterSession_frame (slot : ℕ) (c : Conn W) :
    StageFrame LateFrame c (enterSession env slot c) := by
  have hcount : LateFrame c (countSession env c slot) := .of_eq rfl rfl rfl rfl rfl
  unfold enterSession
  split_ifs
  · exact hcount.trans (directConnectToDc_frame _ _)
  · exact hcount

theorem acceptObfs2_frame (pr : Obfs2ParseResult) (slot : ℕ) (c : Conn W)
    (h : 64 ≤ c.inp.length) : TakesBytes c (acceptObfs2 env pr slot c) := by
  obtain ⟨hstart, hlt⟩ := startCrypto_frame env c pr h
  unfold acceptObfs2
  cases hdec : cpuTcpAesCryptoCtr128DecryptInput (startCrypto env c pr) with
  | error a => trivial
  | ok p =>
    obtain ⟨d, r⟩ := p
    have hd : LateFrame (startCrypto env c pr) d :=
      (cpuTcpAesCryptoCtr128DecryptInput_frame hdec).late
    dsimp only
    split_ifs
    · exact (hstart.trans hd).failConnection _
    · have hset : LateFrame d (setTarget d pr slot) := .of_eq rfl rfl rfl rfl rfl
      have hrest := (hd.trans hset).stage
        (LateFrame.bind (admitSlot_frame env slot _) (enterSession_frame env slot))
      refine Ends.mono hrest (fun e he => ?_) ?_
      · exact ⟨hstart.trans he, lt_of_le_of_lt he.held_le hlt⟩
      · rintro (⟨e, res⟩ | _) he
        · exact hstart.trans he
        · trivial

theorem obfs2Header_frame (c : Conn W) : TakesBytes c (obfs2Header env c) := by
  unfold obfs2Header
  by_cases hlen : c.inp.length < 64
  · rw [if_pos hlen]
    exact LateFrame.refl c
  · rw [if_neg hlen]
    have hrecord (e : StageEvent) : LateFrame c (c.record e) := .of_eq rfl rfl rfl rfl rfl
    have haccept (pr : Obfs2ParseResult) (slot : ℕ) (e : StageEvent) :
        TakesBytes c (acceptObfs2 env pr slot (c.record e)) :=
      TakesBytes.after (hrecord e) (acceptObfs2_frame env pr slot (c.record e) (not_lt.mp hlen))
    dsimp only
    split
    · exact LateFrame.of_eq rfl rfl rfl rfl rfl
    · split
      · split_ifs
        · exact (hrecord _).trans (proxyConnection_frame _ _ _)
        · exact haccept _ _ _
      · exact haccept _ _ _

theorem handshake_frame (c : Conn W) : TakesBytes c (handshake env c) :=
  TakesBytes.bind (LateFrame.bind (proxyHeader_frame env c) (fakeTls_frame env))
    (obfs2Header_frame env)

theorem packetLength_pos {flags : RpcFlags} {word packetLen packetLenBytes : ℕ}
    (h : packetLength flags word = some (packetLen, packetLenBytes)) : 0 < packetLenBytes := by
  unfold packetLength at h
  split_ifs at h <;> (cases h; decide)

theorem extRpcsExecute_frame (c : Conn W) (msg : Bytes) :
    LateFrame c (extRpcsExecute env c msg) := by
  unfold extRpcsExecute
  split_ifs <;> exact .of_eq rfl rfl rfl rfl rfl

theorem executePacket_frame (c : Conn W) (msg : Bytes) :
    LateFrame c (executePacket env c msg) := by
  have hrecord (e : StageEvent) : LateFrame c (c.record e) := .of_eq rfl rfl rfl rfl rfl
  unfold executePacket
  dsimp only
  split_ifs
  · unfold tcpRpcsDefaultExecute
    split_ifs <;> exact .of_eq rfl rfl rfl rfl rfl
  · exact (hrecord _).trans (extRpcsExecute_frame env _ msg)

theorem takePacket_frame (packetLen packetLenBytes : ℕ) (c : Conn W) (hpos : 0 < packetLenBytes) :
    TakesBytes c (takePacket env packetLen packetLenBytes c) := by
  unfold takePacket
  by_cases hlen : c.inp.length < packetLenBytes
  · rw [if_pos hlen]
    trivial
  · rw [if_neg hlen]
    dsimp only
    split_ifs
    · trivial
    · trivial
    all_goals
      have hskip (n : ℤ) : LateFrame c
          ((c.skipData (packetLenBytes + packetLen)).setInPacketNum n) :=
        .of_drop (n := packetLenBytes + packetLen) rfl rfl rfl rfl rfl
      have hlt (n : ℤ) :
          held ((c.skipData (packetLenBytes + packetLen)).setInPacketNum n) < held c := by
        simp only [held, Conn.skipData, Conn.setInPacketNum, List.length_drop]
        omega
      have hexec := executePacket_frame env
      have hcount (d : Conn W) (n : ℤ) : LateFrame d (d.setInPacketNum n) :=
        .of_eq rfl rfl rfl rfl rfl
      exact ⟨((hskip _).trans (hexec _ _)).trans (hcount _ _),
        lt_of_le_of_lt (hexec _ _).held_le (hlt _)⟩

theorem parsePacket_frame (c : Conn W) : TakesBytes c (parsePacket env c) := by
  have hquick (b : Bool) : LateFrame c (c.setQuickack b) := .of_eq rfl rfl rfl rfl rfl
  unfold parsePacket
  dsimp only
  split_ifs
  · exact (LateFrame.refl c).failConnection _
  · cases hlen : packetLength (c.setQuickack (packetQuickack c.rpc.flags (readLe32 c.inp))).rpc.flags
      (readLe32 c.inp) with
    | none => exact (hquick _).failConnection _
    | some p =>
      obtain ⟨packetLen, packetLenBytes⟩ := p
      dsimp only
      split_ifs
      · exact (hquick _).failConnection _
      · exact hquick _
      · refine TakesBytes.after (hquick _) (takePacket_frame env _ _ _ ?_)
        exact packetLength_pos hlen

theorem parseSession_frame (c : Conn W) : TakesBytes c (parseSession env c) := by
  refine TakesBytes.bind (LateFrame.bind (parseFlags_frame c) parseLength_frame) fun d => ?_
  split_ifs
  · exact handshake_frame env d
  · exact parsePacket_frame env d

/-- **A turn** that is followed by another one has taken bytes away; no turn changes
`skip_bytes`. -/
theorem parseStages_frame (c : Conn W) :
    Ends (fun d => ParseFrame c d ∧ held d < held c) (ExitFrame ParseFrame c)
      (parseStages env c) := by
  have hfront : StageFrame ParseFrame c ((detect env.acceptKey c).bind (preCrypto env)) :=
    ParseFrame.bind (detect_frame env.acceptKey c) fun d => (preCrypto_frame env d).late
  refine Ends.bind hfront fun d hd => (parseSession_frame env d).mono ?_ ?_
  · rintro e ⟨he, hlt⟩
    exact ⟨hd.trans he.toParseFrame, lt_of_lt_of_le hlt hd.held_le⟩
  · rintro (⟨e, res⟩ | _) he
    · exact hd.trans he.toParseFrame
    · trivial

/-! ### The loop -/

theorem parseTurn_shrinks : Shrinks (parseTurn env) held := by
  intro c c' h
  unfold parseTurn at h
  cases hstages : parseStages env c with
  | ok d =>
    rw [hstages] at h
    rw [← Turn.again.inj h]
    exact ((parseStages_frame env c).ok hstages).2
  | error exit =>
    rw [hstages] at h
    exact nomatch h

/-- `tcp_rpcs_compact_parse_execute`. -/
def tcpRpcsCompactParseExecute (c : Conn W) : ParseResult W :=
  loop (parseTurn env) held (parseTurn_shrinks env) c

theorem parseTurn_of_ok {c d : Conn W} (h : parseStages env c = .ok d) :
    parseTurn env c = .again d := by
  simp only [parseTurn, h]

theorem parseTurn_of_error {c : Conn W} {exit : ParseExit W} (h : parseStages env c = .error exit) :
    parseTurn env c = .done exit.result := by
  simp only [parseTurn, h]

/-- A turn that leaves gives the result of the whole. -/
theorem tcpRpcsCompactParseExecute_of_error {c : Conn W} {exit : ParseExit W}
    (h : parseStages env c = .error exit) : tcpRpcsCompactParseExecute env c = exit.result :=
  loop_of_done _ (parseTurn_of_error env h)

/-- A turn that goes on is followed by the same from where it has got. -/
theorem tcpRpcsCompactParseExecute_of_ok {c d : Conn W} (h : parseStages env c = .ok d) :
    tcpRpcsCompactParseExecute env c = tcpRpcsCompactParseExecute env d :=
  loop_of_again _ (parseTurn_of_ok env h)

/-- **What every turn preserves, and every exit turns into `Q`, is true of the result.** -/
theorem tcpRpcsCompactParseExecute_inv {I : Conn W → Prop} {Q : ParseResult W → Prop}
    (hstages : ∀ c, I c → Ends I (fun exit => Q exit.result) (parseStages env c)) {c : Conn W}
    (hc : I c) : Q (tcpRpcsCompactParseExecute env c) := by
  refine loop_inv (I := I) (parseTurn_shrinks env) ?_ ?_ hc
  · intro c c' hI h
    cases hst : parseStages env c with
    | ok d =>
      rw [parseTurn_of_ok env hst] at h
      rw [← Turn.again.inj h]
      exact (hstages c hI).ok hst
    | error exit =>
      rw [parseTurn_of_error env hst] at h
      exact nomatch h
  · intro c r hI h
    cases hst : parseStages env c with
    | ok d =>
      rw [parseTurn_of_ok env hst] at h
      exact nomatch h
    | error exit =>
      rw [parseTurn_of_error env hst] at h
      rw [← Turn.done.inj h]
      exact (hstages c hI).error hst

/-- The parser leaves `skip_bytes` alone and adds no byte to what the connection holds. -/
theorem tcpRpcsCompactParseExecute_frame {c c' : Conn W} {res : ℤ}
    (h : tcpRpcsCompactParseExecute env c = .ok (c', res)) : ParseFrame c c' := by
  have hloop := tcpRpcsCompactParseExecute_inv env (I := ParseFrame c)
    (Q := fun r => ∀ c' res, r = .ok (c', res) → ParseFrame c c') (c := c) ?_
    (LateFrame.refl c).toParseFrame
  · exact hloop c' res h
  · intro d hd
    refine (parseStages_frame env d).mono (fun e he => hd.trans he.1) ?_
    rintro (⟨e, res'⟩ | a) he c' res heq
    · cases heq
      exact hd.trans he
    · exact nomatch heq

/-! ### The methods of a client's types -/

/-- `c->type->parse_execute`. -/
def clientParseExecute (c : Conn W) : ParseResult W :=
  match c.type with
  | .rpcExtServer | .rpcExtServerDrs => tcpRpcsCompactParseExecute env c
  | .proxyPass => .ok (tcpProxyPassParseExecute c, 0)
  | .directClient | .directClientDrs => tcpDirectClientParseExecute env.toOutboundEnv c

/-- **The methods a client's connection is read with.** -/
def clientMethods : ReaderMethods W where
  parseExecute := clientParseExecute env
  cryptoDecryptInput := cpuTcpAesCryptoCtr128DecryptInput
  parseExecute_skipBytes := by
    intro c c' res h
    unfold clientParseExecute at h
    split at h
    · exact (tcpRpcsCompactParseExecute_frame env h).skipBytes
    · exact (tcpRpcsCompactParseExecute_frame env h).skipBytes
    · cases h
      exact (tcpProxyPassParseExecute_frame c).skipBytes
    · exact (tcpDirectClientParseExecute_frame env.toOutboundEnv h).skipBytes
    · exact (tcpDirectClientParseExecute_frame env.toOutboundEnv h).skipBytes
  cryptoDecryptInput_skipBytes := fun _ _ _ h =>
    (cpuTcpAesCryptoCtr128DecryptInput_frame h).skipBytes

/-- `tcp_rpcs_ext_init_accepted`, with `tcp_rpcs_init_accepted_nohs`. -/
def tcpRpcsExtInitAccepted (proxyProtocolEnabled : Bool) (c : Conn W) : Conn W :=
  { c with
    cProxyProtocol := c.cProxyProtocol || proxyProtocolEnabled
    wsState := .handshake
    timer := some (env.preciseNow c.world + 10)
    rpc := { c.rpc with inPacketNum := -3 } }

end Session

/-- A server with one secret of zeros and a cipher that changes nothing, without a domain to
imitate, whose clock stands still. -/
def sampleServer : ExtServerEnv Unit where
  ksState := fun _ => .idle
  sampleDelayNs := fun w => (125000000, w)
  preciseNow := fun _ => 0
  clientSocket := fun w _ _ _ => (true, w)
  allocNewConnection := fun w => (true, w)
  directDcKnown := fun _ _ => false
  directTryDcAddrs := fun w _ => (none, w)
  dcReady := fun _ => false
  accountBytes := fun w _ _ _ => (false, w)
  rateLimitAfterRelay := fun w _ _ _ => (none, w)
  prim := ⟨id, fun _ _ _ => 0⟩
  acceptKey := some
  secrets := fun _ => [⟨.active, List.replicate 16 0⟩]
  extRandPadOnly := false
  defaultDomainInfo := none
  directMode := false
  proxyProtocolParse := fun _ => .malformed
  ipAclCheck := fun _ => true
  getSniDomainInfo := fun _ => none
  haveClientRandom := fun _ _ => false
  addClientRandom := fun w _ => w
  sha256Hmac := fun _ _ => []
  isAllowedTimestamp := fun _ _ => true
  parseClientHelloCiphers := fun _ => none
  serverHello := fun w _ _ _ _ _ => (([], []), w)
  admits := fun w _ _ => (true, w)
  countConnection := fun w _ _ => w
  staleSlot := 0
  scheduleExecute := fun w _ _ => w

/-- A connection the sample server has accepted. -/
def sampleAccepted : Conn Unit :=
  tcpRpcsExtInitAccepted sampleServer false (Conn.allocated ⟨0x7f000001, [], 50000, false⟩ 443 ())

end Server
end Teleproto3
