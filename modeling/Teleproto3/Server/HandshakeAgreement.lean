/-
# The client's handshake at the server

What the reference client sends in its handshake, freed of its transport framing by the
server's own code, is shown to the server's dispatch hook.  The client writes its Session
Header over the first four bytes of the 64-byte header it draws, with the flag for padding
set.  The server reads a Session Header in which no flag may be set, and the 64 bytes
behind it.  So the two never agree: `handshake_never_agrees`.
-/

import Teleproto3.Client.Handshake
import Teleproto3.Server.ChunkUnwrap
import Teleproto3.Server.Dispatch
import Teleproto3.Server.Obfs2
import Teleproto3.Server.WebSocket

namespace Teleproto3
namespace Server

open Lib Wire Client

/-- The transport frame of the client's handshake. -/
def handshakeFrame (prim : Primitives) (p : HandshakeParams) (draws : List (Option Block64))
    (evp : EvpResults) (mode : T3cMode) (mask : Fin 4 → UInt8) : Option Bytes :=
  (genObfs2Init prim p.secret p.dcId p.tunnelMode draws evp).bind fun init =>
    frameObfs2Init mode mask init.header

/-- The payload the server takes out of a frame before there is a cipher. -/
def serverPayload (mode : T3cMode) (framed : Bytes) : Bytes :=
  match mode with
  | .http =>
    (unwrapLoop httpStreamChunkHeaderParse
      ⟨framed, [], T3_PRECRYPTO_BYTES, 0, .needHeader⟩).1.dst
  | .ws =>
    match wsUnwrapLoop ⟨⟨framed, 0, [], 0⟩, []⟩ with
    | .ok (u, _) => u.unmasked
    | .error _ => []

/-- **Agreement.**  With the client's payload in `c->in` the hook accepts the Session Header
as one of an MTProto session, the 64 bytes behind it are an obfuscated2 header under the
client's secret with the padded tag and the client's data centre, and behind them stand
the bytes of the first data frame. -/
def HandshakeAgrees {W : Type*} (prim : Primitives) (env : DispatchEnv W) (c : Conn W)
    (p : HandshakeParams) (rest : Bytes) : Prop :=
  ∃ c', type3DispatchOnCryptoInit env c = (c', .accept) ∧
    (∃ pr, obfs2ParseHeader prim (c'.inp.take 64) [p.secret] false = some pr ∧
      pr.tag = OBFS2_TAG_PAD ∧ pr.dc = p.dcId) ∧
    c'.inp.drop 64 = rest

/-! ### The framing is removed -/

theorem t3SizeToHex_64 : t3SizeToHex 64 = [0x34, 0x30] := by
  norm_num [t3SizeToHex, hexChar]
  exact ⟨rfl, rfl⟩

/-- The chunk of a 64-byte header. -/
theorem frameObfs2Init_http {mask : Fin 4 → UInt8} {header framed : Bytes}
    (hlen : header.length = 64) (h : frameObfs2Init .http mask header = some framed) :
    framed = [0x34, 0x30] ++ crlf ++ header ++ crlf := by
  simp only [frameObfs2Init, t3HttpChunkWrite, hlen, t3SizeToHex_64] at h
  exact (Option.some.inj h).symm

theorem serverPayload_http {mask : Fin 4 → UInt8} {header framed : Bytes}
    (hlen : header.length = 64) (h : frameObfs2Init .http mask header = some framed) :
    serverPayload .http framed = header := by
  have hframed : framed = [0x34, 0x30, 13, 10] ++ (header ++ crlf) := by
    rw [frameObfs2Init_http hlen h, List.append_assoc]
    rfl
  have hparse : httpStreamChunkHeaderParse framed = .size 64 4 := by
    rw [hframed]
    rfl
  have hdrop : framed.drop 4 = header ++ crlf := by
    rw [hframed]
    rfl
  have hne : framed ≠ [] := by
    rw [hframed]
    exact List.cons_ne_nil _ _
  have h66 : (header ++ crlf).length = 66 := by
    rw [List.length_append, hlen]
    rfl
  -- The first turn takes the data, the second finds the line end and nothing behind it.
  have hturn : unwrapTurn httpStreamChunkHeaderParse
      ⟨framed, [], T3_PRECRYPTO_BYTES, 0, .needHeader⟩ = .again ⟨crlf, header, 4, 0, .needCrlf⟩ := by
    rw [unwrapTurn_of_ok (show T3_PRECRYPTO_BYTES ≠ 0 by decide) hne
      ((Unwrap.advance_header rfl rfl).trans (Unwrap.header_of_size rfl hparse (by decide)))]
    simp only [Unwrap.take, Unwrap.toRead, hdrop, h66]
    rw [if_neg (by decide)]
    have htake : (header ++ crlf).take (min (min 66 64) T3_PRECRYPTO_BYTES) = header :=
      List.take_left' hlen
    have hrest : (header ++ crlf).drop (min (min 66 64) T3_PRECRYPTO_BYTES) = crlf :=
      List.drop_left' hlen
    rw [htake, hrest]
    rfl
  have hlast : unwrapTurn httpStreamChunkHeaderParse ⟨crlf, header, 4, 0, .needCrlf⟩ =
      .done (⟨[], header, 4, 0, .needHeader⟩, none) := rfl
  have hloop : unwrapLoop httpStreamChunkHeaderParse
      ⟨framed, [], T3_PRECRYPTO_BYTES, 0, .needHeader⟩ = (⟨[], header, 4, 0, .needHeader⟩, none) :=
    (loop_of_again _ hturn).trans (loop_of_done _ hlast)
  simp only [serverPayload, hloop]

/-- Unmasking undoes masking. -/
theorem wsUnmaskData_mask (mask : Fin 4 → UInt8) (payload : Bytes) :
    wsUnmaskData [mask 0, mask 1, mask 2, mask 3] 0 (wsMaskPayload mask payload) = payload := by
  have hks (i : ℕ) : [mask 0, mask 1, mask 2, mask 3].getD (i % 4) 0 = mask (Fin.ofNat 4 i) := by
    have hi : i % 4 < 4 := Nat.mod_lt _ (by decide)
    rcases (by omega : i % 4 = 0 ∨ i % 4 = 1 ∨ i % 4 = 2 ∨ i % 4 = 3) with h | h | h | h <;>
      (simp only [Fin.ofNat, h]; rfl)
  refine List.ext_getElem? fun i => ?_
  rw [wsUnmaskData, xorAt_getElem?, wsMaskPayload, List.getElem?_mapIdx, Option.map_map, Nat.zero_add,
    hks]
  cases payload[i]? with
  | none => rfl
  | some b => rw [Option.map_some, Function.comp, UInt8.xor_assoc, UInt8.xor_self, UInt8.xor_zero]

theorem serverPayload_ws {mask : Fin 4 → UInt8} {header framed : Bytes}
    (hlen : header.length = 64) (h : frameObfs2Init .ws mask header = some framed) :
    serverPayload .ws framed = header := by
  have hmasked : (wsMaskPayload mask header).length = 64 := by
    rw [wsMaskPayload, List.length_mapIdx, hlen]
  have hframed : framed = [0x82, 0xC0, mask 0, mask 1, mask 2, mask 3] ++ wsMaskPayload mask header := by
    simp only [frameObfs2Init, t3cWsFrameWrite, wsWriteHeader, hlen] at h
    exact (Option.some.inj h).symm
  have h70 : framed.length = 70 := by
    rw [hframed, List.length_append, hmasked]
    rfl
  have hparse : wsParseFrameHeader ⟨framed, 0, [], 0⟩ =
      .ok (⟨wsMaskPayload mask header, 64, [mask 0, mask 1, mask 2, mask 3], 0⟩, 64) := by
    have hmask : (framed.drop 2).take 4 = [mask 0, mask 1, mask 2, mask 3] := by
      rw [hframed]
      rfl
    have hdrop : framed.drop 6 = wsMaskPayload mask header := by
      rw [hframed]
      rfl
    have h0 : framed.getD 0 0 = 0x82 := by
      rw [hframed]
      rfl
    have h1 : framed.getD 1 0 = 0xC0 := by
      rw [hframed]
      rfl
    have hlen64 : wsPayloadLength framed = .ok (64, 2) := by
      simp only [wsPayloadLength, h1]
      rfl
    unfold wsParseFrameHeader
    simp only [h70, hlen64, h0, h1, hmask]
    unfold wsFrameOpcode
    simp only [h70, hdrop]
    rfl
  have hturn : wsUnwrapTurn ⟨⟨framed, 0, [], 0⟩, []⟩ =
      .again ⟨⟨[], 0, [mask 0, mask 1, mask 2, mask 3], 0⟩, header⟩ := by
    unfold wsUnwrapTurn
    simp only [hparse, h70]
    unfold wsTakeTurn
    simp only [hmasked, WsUnwrap.take]
    rw [List.take_of_length_le (by rw [hmasked]; decide), wsUnmaskData_mask,
      List.drop_eq_nil_of_le (by rw [hmasked]; decide)]
    rfl
  have hloop : wsUnwrapLoop ⟨⟨framed, 0, [], 0⟩, []⟩ =
      .ok (⟨⟨[], 0, [mask 0, mask 1, mask 2, mask 3], 0⟩, header⟩, true) :=
    (loop_of_again _ hturn).trans (loop_of_done _ rfl)
  simp only [serverPayload, hloop]

/-- **The server gets the header back out of the frame.** -/
theorem serverPayload_handshakeFrame {prim : Primitives} {p : HandshakeParams}
    {draws : List (Option Block64)} {evp : EvpResults} {mode : T3cMode} {mask : Fin 4 → UInt8}
    {framed : Bytes} (h : handshakeFrame prim p draws evp mode mask = some framed) :
    ∃ init, genObfs2Init prim p.secret p.dcId p.tunnelMode draws evp = some init ∧
      serverPayload mode framed = init.header := by
  obtain ⟨init, hgen, hframe⟩ := Option.bind_eq_some_iff.mp h
  refine ⟨init, hgen, ?_⟩
  have hlen := (genObfs2Init_header hgen).1
  cases mode with
  | http => exact serverPayload_http hlen hframe
  | ws => exact serverPayload_ws hlen hframe

/-- **Every header that has been generated fits its frame.** -/
theorem exists_handshakeFrame {prim : Primitives} {p : HandshakeParams}
    {draws : List (Option Block64)} {evp : EvpResults} {init : Obfs2Init} (mode : T3cMode)
    (mask : Fin 4 → UInt8)
    (h : genObfs2Init prim p.secret p.dcId p.tunnelMode draws evp = some init) :
    ∃ framed, handshakeFrame prim p draws evp mode mask = some framed := by
  have hlen := (genObfs2Init_header h).1
  rw [handshakeFrame, h, Option.bind_some]
  cases mode with
  | http =>
    simp only [frameObfs2Init, t3HttpChunkWrite, hlen, t3SizeToHex_64]
    exact ⟨_, rfl⟩
  | ws =>
    simp only [frameObfs2Init, t3cWsFrameWrite, wsWriteHeader, hlen]
    exact ⟨_, rfl⟩

/-! ### No agreement -/

/-- **The server drops every handshake of the client**, in both modes, whatever the secret,
the data centre and the random blocks, and whatever follows the handshake. -/
theorem handshake_dropSilent {W : Type*} {prim : Primitives} (env : DispatchEnv W) {c : Conn W}
    {p : HandshakeParams} {draws : List (Option Block64)} {evp : EvpResults} {mode : T3cMode}
    {mask : Fin 4 → UInt8} {framed rest : Bytes}
    (hframe : handshakeFrame prim p draws evp mode mask = some framed)
    (hin : c.inp = serverPayload mode framed ++ rest) :
    (type3DispatchOnCryptoInit env c).2 = .dropSilent := by
  obtain ⟨init, hgen, hpayload⟩ := serverPayload_handshakeFrame hframe
  obtain ⟨hlen, tail, hheader⟩ := genObfs2Init_header hgen
  have hfour : c.inp.take 4 = [0x01, 0x01, 0x01, 0x00] := by
    rw [hin, hpayload, hheader]
    rfl
  have hshort : ¬ c.inp.length < 4 := by
    rw [hin, hpayload, List.length_append, hlen]
    omega
  rcases type3DispatchOnCryptoInit_cases env c with
    ⟨-, h⟩ | ⟨-, hlt, -⟩ | ⟨-, -, ⟨r, -, h⟩ | ⟨-, h⟩ | ⟨hparse, -⟩⟩
  · rw [h]
  · exact absurd hlt hshort
  · rw [h]
  · rw [h]
  · rw [hfour] at hparse
    exact nomatch hparse

/-- **The handshake never agrees.** -/
theorem handshake_never_agrees {W : Type*} (prim : Primitives) (env : DispatchEnv W) (c : Conn W)
    (p : HandshakeParams) (draws : List (Option Block64)) (evp : EvpResults) (mode : T3cMode)
    (mask : Fin 4 → UInt8) (framed rest : Bytes)
    (hframe : handshakeFrame prim p draws evp mode mask = some framed)
    (hin : c.inp = serverPayload mode framed ++ rest) : ¬ HandshakeAgrees prim env c p rest := by
  rintro ⟨c', hdispatch, -, -⟩
  have hdrop := handshake_dropSilent env hframe hin
  rw [hdispatch] at hdrop
  exact nomatch hdrop

/-- A secret of zeros and data centre 2. -/
def sampleParams : HandshakeParams where
  secret := List.replicate 16 0
  dcId := 2
  tunnelMode := false

/-- A random block the client does not draw again. -/
def sampleBlock : Block64 where
  bytes := List.replicate 64 0x10
  length_eq := rfl

/-- A server with its kill switch idle, at time 0. -/
def sampleDispatchEnv : DispatchEnv Unit where
  ksState := fun _ => .idle
  sampleDelayNs := fun w => (125000000, w)
  preciseNow := fun _ => 0

/-- A cipher that changes nothing. -/
def samplePrimitives : Primitives where
  sha256 := id
  aes256Ctr := fun _ _ _ => 0

theorem exists_sampleFrame : ∃ framed, handshakeFrame samplePrimitives sampleParams
    [some sampleBlock] ⟨true, true, true, true⟩ .ws (fun _ => 0) = some framed := by
  obtain ⟨init, hgen⟩ : ∃ init, genObfs2Init samplePrimitives sampleParams.secret
      sampleParams.dcId sampleParams.tunnelMode [some sampleBlock] ⟨true, true, true, true⟩ =
        some init := ⟨_, rfl⟩
  exact exists_handshakeFrame .ws _ hgen

/-- The connection of a client at address 0. -/
def sampleConn : Conn Unit := Conn.allocated ⟨0, [], 0, false⟩ 443 ()

/-- The hypotheses of `handshake_never_agrees` hold of the frame of one random block. -/
theorem handshake_never_agrees_sample : ∃ framed,
    handshakeFrame samplePrimitives sampleParams [some sampleBlock] ⟨true, true, true, true⟩ .ws
      (fun _ => 0) = some framed ∧
    ¬ HandshakeAgrees samplePrimitives sampleDispatchEnv
      { sampleConn with inp := serverPayload .ws framed ++ [1, 2, 3] } sampleParams [1, 2, 3] := by
  obtain ⟨framed, hframe⟩ := exists_sampleFrame
  exact ⟨framed, hframe, handshake_never_agrees _ _ _ _ _ _ _ _ _ _ hframe rfl⟩

/-- **The handshake fails.**  Not every handshake for which the client generates a header
agrees: the one above does not. -/
theorem handshake_not_agreed : ¬ ∀ (p : HandshakeParams) (draws : List (Option Block64))
    (framed : Bytes),
    handshakeFrame samplePrimitives p draws ⟨true, true, true, true⟩ .ws (fun _ => 0) =
        some framed →
      HandshakeAgrees samplePrimitives sampleDispatchEnv
        { sampleConn with inp := serverPayload .ws framed } p [] := by
  intro hall
  obtain ⟨framed, hframe⟩ := exists_sampleFrame
  obtain ⟨c', hdispatch, -, -⟩ := hall sampleParams [some sampleBlock] framed hframe
  have hin : ({ sampleConn with inp := serverPayload .ws framed } : Conn Unit).inp =
      serverPayload .ws framed ++ [] := (List.append_nil _).symm
  have hdrop := handshake_dropSilent sampleDispatchEnv hframe hin
  rw [hdispatch] at hdrop
  exact nomatch hdrop

end Server
end Teleproto3
