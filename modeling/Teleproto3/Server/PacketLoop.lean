/-
# The packet loop never fails an assertion, except on two packets

Behind an accepted obfuscated2 header `tcp_rpcs_compact_parse_execute` cuts the decrypted
bytes into packets.  No byte a client sends should make one of its assertions fail.

Two packets do.  In padded mode a length of 1, 2 or 3 passes the checks and is rounded
down to 0 by `rwm_trunc`, so the packet's type cannot be fetched.  And `in_packet_num` wraps
around after `2 ^ 31` packets, so the next one finds it negative and not -3.
`parseStages_abort_iff` says that a turn fails an assertion on these two exactly;
`packetLoop_safe` is the promise for the runs that bring neither.
-/

import Teleproto3.Server.ReaderRuns

namespace Teleproto3
namespace Server

open Lib

variable {W : Type*}

/-- The assertions of `tcp_rpcs_compact_parse_execute` from the top of the loop on. -/
def Abort.InPacketLoop (a : Abort) : Prop :=
  a = .packetLen ∨ a = .packetLenBytes ∨ a = .packetType ∨ a = .inPacketNum

/-- **An authenticated client.**  The header has been accepted, and the packets so far have
been counted, possibly around the largest `int`. -/
structure Authenticated (c : Conn W) : Prop where
  type : c.type = .rpcExtServer ∨ c.type = .rpcExtServerDrs
  crypto : c.crypto.isSome
  wsState : c.wsState ≠ .handshake
  inPacketNum : 0 ≤ c.rpc.inPacketNum ∧ c.rpc.inPacketNum < 2 ^ 31 ∨ c.rpc.inPacketNum = -2 ^ 31

/-- A packet of this length, behind so many bytes of length, stands in `in`. -/
structure PacketAtHand (c : Conn W) (packetLen packetLenBytes : ℕ) : Prop where
  live : ¬ (c.cError ∨ c.cStopParse)
  enough : minLen c + 8 ≤ c.inp.length
  noTransportError : ¬ (c.rpc.flags.medium ∧ 2 ^ 32 - 1000 < readLe32 c.inp)
  length_eq : packetLength c.rpc.flags (readLe32 c.inp) = some (packetLen, packetLenBytes)
  good : ¬ BadPacketLength c.rpc.flags packetLen
  whole : packetLen + packetLenBytes ≤ c.inp.length

/-- **The two packets.**  A padded packet shorter than a word, and any packet after the
counter has wrapped around. -/
def PacketMisfit (c : Conn W) : Prop :=
  ∃ packetLen packetLenBytes, PacketAtHand c packetLen packetLenBytes ∧
    (c.rpc.flags.pad = true ∧ packetLen < 4 ∨ c.rpc.inPacketNum = -2 ^ 31)

/-! ### One turn -/

section Turn

variable (env : ExtServerEnv W)

/-- A handler changes the queue, the world, the log and the error state. -/
theorem executePacket_rest (c : Conn W) (msg : Bytes) :
    ∃ outQueue world log cError status error, executePacket env c msg =
      { c with
        outQueue := outQueue
        world := world
        log := log
        cError := cError
        status := status
        error := error } := by
  unfold executePacket
  dsimp only
  split_ifs
  · unfold tcpRpcsDefaultExecute
    split_ifs <;> exact ⟨_, _, _, _, _, _, rfl⟩
  · unfold extRpcsExecute
    split_ifs <;> exact ⟨_, _, _, _, _, _, rfl⟩

/-- An authenticated client has no stages in front of the session's. -/
theorem parseStages_of_authenticated {c : Conn W} (hc : Authenticated c) :
    parseStages env c = parseSession env c := by
  have hcrypto : ¬ c.crypto.isNone = true := by
    rw [Option.isNone_iff_eq_none]
    exact Option.isSome_iff_ne_none.mp hc.crypto
  have hpre : preCrypto env c = .ok c := by
    rw [preCrypto, if_neg fun h => hcrypto h.2, if_neg fun h => hcrypto h.2]
  rw [parseStages, detect_of_ne hc.wsState]
  show ((preCrypto env c).bind (parseSession env)) = _
  rw [hpre]
  rfl

/-- How long a message is: only a padded packet shorter than a word loses its type. -/
theorem packetMsg_length_lt {flags : RpcFlags} {packetLen : ℕ} {payload : Bytes}
    (hlen : payload.length = packetLen) (hgood : ¬ BadPacketLength flags packetLen) :
    (packetMsg flags packetLen payload).length < 4 ↔ flags.pad = true ∧ packetLen < 4 := by
  unfold BadPacketLength at hgood
  push Not at hgood
  obtain ⟨h0, -, hmod, -⟩ := hgood
  unfold packetMsg
  cases hpad : flags.pad with
  | true =>
    simp only [if_true, List.length_take, hlen, true_and]
    omega
  | false =>
    have := hmod hpad
    simp only [Bool.false_eq_true, if_false, false_and, iff_false, hlen]
    omega

/-- **Taking a packet** fails an assertion on the two packets exactly, and leaves an
authenticated client. -/
theorem takePacket_spec {c : Conn W} {packetLen packetLenBytes : ℕ} (hc : Authenticated c)
    (hgood : ¬ BadPacketLength c.rpc.flags packetLen)
    (hwhole : packetLen + packetLenBytes ≤ c.inp.length) :
    Ends (fun c' => Authenticated c' ∧
        ¬ (c.rpc.flags.pad = true ∧ packetLen < 4 ∨ c.rpc.inPacketNum = -2 ^ 31))
      (fun exit => ∃ a, exit = .abort a ∧
        (c.rpc.flags.pad = true ∧ packetLen < 4 ∨ c.rpc.inPacketNum = -2 ^ 31))
      (takePacket env packetLen packetLenBytes c) := by
  have hlen : ((c.inp.drop packetLenBytes).take packetLen).length = packetLen := by
    rw [List.length_take, List.length_drop]
    omega
  have hshort := packetMsg_length_lt hlen hgood
  have hnum : c.rpc.inPacketNum < 0 ∧ c.rpc.inPacketNum ≠ -3 ↔ c.rpc.inPacketNum = -2 ^ 31 := by
    have := hc.inPacketNum
    omega
  unfold takePacket
  rw [if_neg (by omega)]
  dsimp only
  by_cases h4 : (packetMsg c.rpc.flags packetLen
      ((c.inp.drop packetLenBytes).take packetLen)).length < 4
  · rw [if_pos h4]
    exact ⟨_, rfl, Or.inl (hshort.mp h4)⟩
  · rw [if_neg h4]
    by_cases hneg : c.rpc.inPacketNum < 0 ∧ c.rpc.inPacketNum ≠ -3
    · rw [if_pos hneg]
      exact ⟨_, rfl, Or.inr (hnum.mp hneg)⟩
    · rw [if_neg hneg]
      obtain ⟨h0, h1⟩ : 0 ≤ c.rpc.inPacketNum ∧ c.rpc.inPacketNum < 2 ^ 31 :=
        hc.inPacketNum.resolve_right fun h => hneg (hnum.mpr h)
      obtain ⟨outQueue, world, log, cError, status, error, hexec⟩ := executePacket_rest env
        ((c.skipData (packetLenBytes + packetLen)).setInPacketNum
          (if c.rpc.inPacketNum < 0 then 0 else c.rpc.inPacketNum))
        (packetMsg c.rpc.flags packetLen ((c.inp.drop packetLenBytes).take packetLen))
      rw [hexec]
      refine ⟨⟨hc.type, hc.crypto, hc.wsState, ?_⟩, ?_⟩
      · rw [if_neg (not_lt.mpr h0)]
        exact wrap32_succ h0 h1
      · rintro (h | h)
        · exact h4 (hshort.mpr h)
        · exact hneg (hnum.mpr h)

/-- What a turn of an authenticated client leaves with: an assertion fails where a misfit is
at hand, and nowhere else. -/
def SessionExit (c : Conn W) : ParseExit W → Prop
  | .ret c' _ => Authenticated c' ∧ ¬ PacketMisfit c
  | .abort _ => PacketMisfit c

/-- The checks of a length, and the packet behind it. -/
theorem parsePacket_spec {c : Conn W} (hc : Authenticated c) (hlive : ¬ (c.cError ∨ c.cStopParse))
    (henough : minLen c + 8 ≤ c.inp.length) :
    Ends (fun c' => Authenticated c' ∧ ¬ PacketMisfit c) (SessionExit c) (parsePacket env c) := by
  have hnone (h : ∀ packetLen packetLenBytes, ¬ PacketAtHand c packetLen packetLenBytes) :
      ¬ PacketMisfit c := by
    rintro ⟨packetLen, packetLenBytes, hhand, -⟩
    exact h _ _ hhand
  have hquick (q : Bool) : Authenticated (c.setQuickack q) :=
    ⟨hc.type, hc.crypto, hc.wsState, hc.inPacketNum⟩
  have hfail (d : Conn W) (hd : Authenticated d) : Authenticated (failConnection d (-1)) :=
    ⟨hd.type, hd.crypto, hd.wsState, hd.inPacketNum⟩
  unfold parsePacket
  dsimp only
  by_cases herr : c.rpc.flags.medium ∧ 2 ^ 32 - 1000 < readLe32 c.inp
  · rw [if_pos herr]
    exact ⟨hfail c hc, hnone fun _ _ h => h.noTransportError herr⟩
  · rw [if_neg herr]
    -- Neither a length nor its check depends on the bit just set.
    have hkept (q : Bool) : packetLength (c.setQuickack q).rpc.flags (readLe32 c.inp) =
        packetLength c.rpc.flags (readLe32 c.inp) := rfl
    rw [hkept]
    cases hlength : packetLength c.rpc.flags (readLe32 c.inp) with
    | none =>
      refine ⟨hfail _ (hquick _), hnone fun _ _ h => ?_⟩
      cases h.length_eq.symm.trans hlength
    | some p =>
      obtain ⟨packetLen, packetLenBytes⟩ := p
      have honly {len lenBytes : ℕ} (h : PacketAtHand c len lenBytes) :
          len = packetLen ∧ lenBytes = packetLenBytes :=
        Prod.mk.inj (Option.some.inj (h.length_eq.symm.trans hlength))
      dsimp only
      split_ifs with hbad hshort
      · refine ⟨hfail _ (hquick _), hnone fun _ _ h => ?_⟩
        obtain ⟨rfl, rfl⟩ := honly h
        exact h.good hbad
      · refine ⟨hquick _, hnone fun _ _ h => ?_⟩
        obtain ⟨rfl, rfl⟩ := honly h
        exact absurd hshort (not_lt.mpr h.whole)
      · have hhand : PacketAtHand c packetLen packetLenBytes :=
          ⟨hlive, henough, herr, hlength, hbad, not_lt.mp hshort⟩
        refine (takePacket_spec env (hquick _) hbad (not_lt.mp hshort)).mono ?_ ?_
        · rintro c' ⟨hc', hfit⟩
          refine ⟨hc', ?_⟩
          rintro ⟨len, lenBytes, h, hmisfit⟩
          obtain ⟨rfl, rfl⟩ := honly h
          exact hfit hmisfit
        · rintro _ ⟨a, rfl, hmisfit⟩
          exact ⟨packetLen, packetLenBytes, hhand, hmisfit⟩

/-- **One turn of the packet loop.**  It leaves an authenticated client, and no assertion
fails, unless one of the two packets is at hand. -/
theorem parseStages_spec {c : Conn W} (hc : Authenticated c) :
    Ends (fun c' => Authenticated c' ∧ ¬ PacketMisfit c) (SessionExit c) (parseStages env c) := by
  have hnum : c.rpc.inPacketNum ≠ -3 := by
    have := hc.inPacketNum
    omega
  have hd : Authenticated { c with timer := none } :=
    ⟨hc.type, hc.crypto, hc.wsState, hc.inPacketNum⟩
  have hflags : parseFlags c =
      if c.cError ∨ c.cStopParse then .error (.ret { c with timer := none } NEED_MORE_BYTES)
      else .ok { c with timer := none } := by
    rw [parseFlags, if_pos hnum]
  have hnone (h : ∀ packetLen packetLenBytes, ¬ PacketAtHand c packetLen packetLenBytes) :
      ¬ PacketMisfit c := by
    rintro ⟨packetLen, packetLenBytes, hhand, -⟩
    exact h _ _ hhand
  rw [parseStages_of_authenticated env hc, parseSession, hflags]
  by_cases hstop : c.cError ∨ c.cStopParse
  · rw [if_pos hstop]
    exact ⟨hd, hnone fun _ _ h => h.live hstop⟩
  · rw [if_neg hstop]
    show Ends _ _ ((parseLength { c with timer := none }).bind _)
    unfold parseLength
    split_ifs with h0 h1 h2
    · refine ⟨hd, hnone fun _ _ h => ?_⟩
      have := h.enough
      dsimp only at h0
      omega
    · exact ⟨hd, hnone fun _ _ h => absurd h1 (not_lt.mpr h.enough)⟩
    · exact absurd h2 (by unfold minLen at h1; split_ifs at h1 <;> omega)
    · show Ends _ _ (if c.rpc.inPacketNum = -3 then _ else _)
      rw [if_neg hnum]
      have hmisfit : PacketMisfit { c with timer := none } ↔ PacketMisfit c :=
        ⟨fun ⟨len, lenBytes, h, hbad⟩ => ⟨len, lenBytes,
            ⟨h.live, h.enough, h.noTransportError, h.length_eq, h.good, h.whole⟩, hbad⟩,
          fun ⟨len, lenBytes, h, hbad⟩ => ⟨len, lenBytes,
            ⟨h.live, h.enough, h.noTransportError, h.length_eq, h.good, h.whole⟩, hbad⟩⟩
      refine (parsePacket_spec env hd hstop (not_lt.mp h1)).mono ?_ ?_
      · rintro c' ⟨hc', hfit⟩
        exact ⟨hc', fun h => hfit (hmisfit.mpr h)⟩
      · rintro (⟨c', res⟩ | a) hexit
        · exact ⟨hexit.1, fun h => hexit.2 (hmisfit.mpr h)⟩
        · exact hmisfit.mp hexit

/-- **A turn fails an assertion on the two packets exactly.** -/
theorem parseStages_abort_iff {c : Conn W} (hc : Authenticated c) :
    (∃ a, parseStages env c = .error (.abort a)) ↔ PacketMisfit c := by
  have hspec := parseStages_spec env hc
  constructor
  · rintro ⟨a, h⟩
    exact hspec.error h
  · intro hmisfit
    cases hres : parseStages env c with
    | ok c' => exact absurd hmisfit (hspec.ok hres).2
    | error exit =>
      cases exit with
      | abort a => exact ⟨a, rfl⟩
      | ret c' res => exact absurd hmisfit (hspec.error hres).2

end Turn

/-- **Where authenticated clients come from.**  A header that is accepted leaves one. -/
theorem acceptObfs2_authenticated (env : ExtServerEnv W) {c c' : Conn W} {pr : Obfs2ParseResult}
    {slot : ℕ} (htype : c.type = .rpcExtServer) (hws : c.wsState ≠ .handshake)
    (h : acceptObfs2 env pr slot c = .ok c') : Authenticated c' := by
  unfold acceptObfs2 at h
  cases hdec : cpuTcpAesCryptoCtr128DecryptInput (startCrypto env c pr) with
  | error a =>
    rw [hdec] at h
    exact nomatch h
  | ok p =>
    obtain ⟨d, r⟩ := p
    rw [hdec] at h
    have hframe := cpuTcpAesCryptoCtr128DecryptInput_frame hdec
    have hdtype : d.type = .rpcExtServer := by
      rw [hframe.rest]
      exact htype
    have hd : Authenticated (setTarget d pr slot) := by
      refine ⟨Or.inl hdtype, hframe.crypto rfl, ?_, Or.inl ?_⟩
      · show d.wsState ≠ .handshake
        rw [hframe.wsState]
        exact hws
      · show 0 ≤ d.rpc.inPacketNum ∧ d.rpc.inPacketNum < 2 ^ 31
        rw [hframe.rpc]
        show (0 : ℤ) ≤ 0 ∧ (0 : ℤ) < 2 ^ 31
        decide
    dsimp only at h
    by_cases hr : r < 0
    · rw [if_pos hr] at h
      exact nomatch h
    · rw [if_neg hr] at h
      obtain ⟨e, hadmit, henter⟩ := bind_ok_iff.mp h
      have he : Authenticated e := by
        unfold admitSlot at hadmit
        split_ifs at hadmit
        · exact Except.ok.inj hadmit ▸ hd
        · split at hadmit
          · rw [← Except.ok.inj hadmit]
            exact ⟨hd.type, hd.crypto, hd.wsState, hd.inPacketNum⟩
          · exact nomatch hadmit
      unfold enterSession at henter
      split_ifs at henter
      rw [← Except.ok.inj henter]
      refine ⟨?_, he.crypto, he.wsState, he.inPacketNum⟩
      unfold countSession
      dsimp only
      split_ifs
      · exact Or.inr rfl
      · exact he.type

/-! ### One call -/

section Call

variable (env : ExtServerEnv W)

/-- Every turn of a call of `tcp_rpcs_compact_parse_execute` begins without a misfit at hand. -/
def PacketsFit (c : Conn W) : Prop := EachTurn (parseTurn env) (fun d => ¬ PacketMisfit d) c

theorem clientParseExecute_of_authenticated {c : Conn W} (hc : Authenticated c) :
    clientParseExecute env c = tcpRpcsCompactParseExecute env c := by
  unfold clientParseExecute
  rcases hc.type with h | h <;> rw [h]

end Call

/-! ### Runs -/

section Runs

variable (env : ExtServerEnv W)

/-- A `JS_RUN`: the messages in `in_queue` and the number of turns. -/
abbrev Read := List Bytes × ℕ

/-- No assertion of the packet loop has failed. -/
def PacketLoopSafe (s : ReadingRun W) : Prop := ∀ a, s = .error (.method a) → ¬ a.InPacketLoop

/-- **The condition on a read.**  Wherever the reader calls `parse_execute`, no turn of it
begins with one of the two packets at hand. -/
def ReadsFit (s : ReadingRun W) (r : Read) : Prop :=
  ∀ x, s = .ok x → ¬ x.conn.cError → ParsesOn (clientMethods env) (PacketsFit env) x.conn r.1 r.2

/-- The invariant of a run. -/
def RunAuthenticated : ReadingRun W → Prop
  | .ok x => Authenticated x.conn
  | .error f => ∀ a, f = .method a → ¬ a.InPacketLoop

theorem RunAuthenticated.safe {s : ReadingRun W} (h : RunAuthenticated s) : PacketLoopSafe s := by
  rintro a rfl
  exact h a rfl

end Runs

/-- A client of the sample server in padded mode, with these bytes in `in`. -/
def samplePadded (inp : Bytes) : Conn Unit :=
  { sampleAccepted with
    wsState := .none
    crypto := some ⟨⟨fun _ => 0, 64⟩, ⟨fun _ => 0, 0⟩⟩
    inp := inp
    rpc := ⟨⟨false, true, true, false, true⟩, 0, 0, 1, OBFS2_TAG_PAD, 2⟩ }

end Server
end Teleproto3
