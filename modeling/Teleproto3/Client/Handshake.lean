/-
# The client's side of the handshake

`gen_obfs2_init` of `lib/src/t3_client_crypto.c` and `send_obfs2_init` of
`lib/src/t3_client_stream.c`.  The client draws 64 random bytes, writes a Session Header
over the first four of them and the tag and the data centre near the end, encrypts the
last eight bytes, and sends the 64 bytes as one transport frame.

The results of `RAND_bytes` are the list of blocks drawn; where the list ends before a
block has been accepted, no header has been generated yet.
-/

import Teleproto3.Client.Stream
import Teleproto3.Client.WsFrame
import Teleproto3.Lib.Bytes
import Teleproto3.Wire.HttpChunk

namespace Teleproto3
namespace Client

open Lib Wire

/-- 64 bytes. -/
structure Block64 where
  bytes : Bytes
  length_eq : bytes.length = 64

/-- The prefixes `gen_obfs2_init` draws again. -/
def ReservedPrefix (header : Bytes) : Prop :=
  header.getD 0 0 = 0xef ∨
    readLe32 header = 0x44414548 ∨ readLe32 header = 0x54534f50 ∨
    readLe32 header = 0x20544547 ∨ readLe32 header = 0x4954504f ∨
    readLe32 header = 0xeeeeeeee ∨ readLe32 header = 0xdddddddd ∨
    readLe32 header = 0xefefefef ∨ readLe32 (header.drop 4) = 0

instance (header : Bytes) : Decidable (ReservedPrefix header) := by
  unfold ReservedPrefix
  infer_instance

/-- The `do … while` loop over `RAND_bytes`, whose failure is `none`. -/
def drawHeader : List (Option Block64) → Option Block64
  | [] => none
  | none :: _ => none
  | some header :: draws => if ReservedPrefix header.bytes then drawHeader draws else some header

/-- What the OpenSSL calls of `gen_obfs2_init` return: the two `EVP_CIPHER_CTX_new` and the two
`Init` calls. -/
structure EvpResults where
  writeNew : Bool
  writeInit : Bool
  readNew : Bool
  readInit : Bool

/-- The two bytes of an `int16_t`, the low byte first. -/
def int16Bytes (v : ℤ) : Bytes := [UInt8.ofNat (v % 2 ^ 16).toNat, UInt8.ofNat ((v % 2 ^ 16).toNat / 256)]

/-- The header with the Session Header, the tag and the data centre written into it.  A
tunnel has `53 53` in the place of the data centre. -/
def stampHeader (header : Bytes) (dcId : ℤ) (tunnel : Bool) : Bytes :=
  [0x01, 0x01, 0x01, 0x00] ++ (header.drop 4).take 52 ++ le32 0xdddddddd ++
    (if tunnel then [0x53, 0x53] else int16Bytes dcId) ++ header.drop 62

/-- The key and the counter the client writes with. -/
def clientWriteKey (prim : Primitives) (secret header : Bytes) : Bytes × Bytes :=
  (prim.sha256 ((header.drop 8).take 32 ++ secret), (header.drop 40).take 16)

/-- The key and the counter the client reads with: the bytes in reverse order. -/
def clientReadKey (prim : Primitives) (secret header : Bytes) : Bytes × Bytes :=
  (prim.sha256 (((header.drop 24).take 32).reverse ++ secret), ((header.drop 8).take 16).reverse)

/-- The result of `gen_obfs2_init`: the header and the two cipher contexts. -/
structure Obfs2Init where
  header : Bytes
  encryptCtx : CtrContext
  decryptCtx : CtrContext

/-- `gen_obfs2_init`. -/
def genObfs2Init (prim : Primitives) (secret : Bytes) (dcId : ℤ) (tunnel : Bool)
    (draws : List (Option Block64)) (evp : EvpResults) : Option Obfs2Init :=
  match drawHeader draws with
  | none => none
  | some block =>
    let header := stampHeader block.bytes dcId tunnel
    let (writeKey, writeIv) := clientWriteKey prim secret header
    let (readKey, readIv) := clientReadKey prim secret header
    if ¬ evp.writeNew then none
    else if ¬ evp.writeInit then none
    else
      let ks := prim.aes256Ctr writeKey writeIv
      let encrypted := xorAt ks 0 header
      if ¬ evp.readNew then none
      else if ¬ evp.readInit then none
      else
        some
          { header := header.take 56 ++ encrypted.drop 56
            encryptCtx := ⟨ks, 64⟩
            decryptCtx := ⟨prim.aes256Ctr readKey readIv, 0⟩ }

/-- `t3c_obfs2_generate_init`. -/
def t3cObfs2GenerateInit (prim : Primitives) (secret : Bytes) (dcId : ℤ)
    (draws : List (Option Block64)) (evp : EvpResults) : Option Obfs2Init :=
  genObfs2Init prim secret dcId false draws evp

/-- The frame `send_obfs2_init` puts around the header, with the masking key drawn. -/
def frameObfs2Init (mode : T3cMode) (mask : Fin 4 → UInt8) (header : Bytes) : Option Bytes :=
  match mode with
  | .ws => t3cWsFrameWrite 128 mask header
  | .http =>
    match t3HttpChunkWrite 128 header with
    | .ok chunk => some chunk
    | .error _ => none

/-- The parts of the stream object that `send_obfs2_init` reads besides the rings. -/
structure HandshakeParams where
  secret : Bytes
  dcId : ℤ
  tunnelMode : Bool

/-- `send_obfs2_init`: the stream with its cipher contexts set and the frame appended to
`out_ring`, and whether it succeeded. -/
def sendObfs2Init (prim : Primitives) (p : HandshakeParams) (draws : List (Option Block64))
    (evp : EvpResults) (mask : Fin 4 → UInt8) (s : ClientStream) : ClientStream × Bool :=
  match genObfs2Init prim p.secret p.dcId p.tunnelMode draws evp with
  | none => (s, false)
  | some init =>
    let s := { s with encryptCtx := some init.encryptCtx, decryptCtx := some init.decryptCtx }
    match frameObfs2Init s.mode mask init.header with
    | none => (s, false)
    | some framed =>
      ({ s with
          outRing := (ringAppend s.outRing framed).1
          outRing_cap := by rw [ringAppend_cap, s.outRing_cap] }, true)

/-! ### What the header is made of -/

theorem stampHeader_length (block : Block64) (dcId : ℤ) (tunnel : Bool) :
    (stampHeader block.bytes dcId tunnel).length = 64 := by
  have := block.length_eq
  unfold stampHeader
  split_ifs <;> simp [int16Bytes] <;> omega

/-- **The header starts with the Session Header stamped into it.** -/
theorem genObfs2Init_header {prim : Primitives} {secret : Bytes} {dcId : ℤ} {tunnel : Bool}
    {draws : List (Option Block64)} {evp : EvpResults} {init : Obfs2Init}
    (h : genObfs2Init prim secret dcId tunnel draws evp = some init) :
    init.header.length = 64 ∧ ∃ rest, init.header = [0x01, 0x01, 0x01, 0x00] ++ rest := by
  unfold genObfs2Init at h
  cases hdraw : drawHeader draws with
  | none =>
    rw [hdraw] at h
    exact nomatch h
  | some block =>
    rw [hdraw] at h
    have hlen := stampHeader_length block dcId tunnel
    simp only at h
    split_ifs at h
    cases h
    refine ⟨?_, ?_⟩
    · simp only [List.length_append, List.length_take, List.length_drop, xorAt_length, hlen]
      decide
    · simp only [stampHeader, List.append_assoc, List.cons_append, List.nil_append,
        List.take_succ_cons, List.cons.injEq, true_and]
      exact ⟨_, rfl⟩

end Client
end Teleproto3
