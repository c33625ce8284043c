/-
# The keys both ends derive

The client draws a block, stamps the tag and the data centre into it, and encrypts its last
eight bytes under keys it slices out of the bytes in between; the server slices its keys out of
the block it receives.  Neither the stamping nor the encryption touches bytes 8 to 55, so
both slice the same bytes (`obfs2Keys_genObfs2Init`), and what the server decrypts at the end
is what the client stamped (`obfs2Plain_genObfs2Init`).

With it, a server that tries its secrets one after the other on the received block stops at
the client's, unless an earlier one opens the block by coincidence: `obfs2_agrees`.
-/

import Teleproto3.Client.Handshake
import Teleproto3.Server.ParseLoop

namespace Teleproto3
namespace Server

open Lib Client

variable {prim : Primitives} {secret : Bytes} {dcId : ℤ} {tunnel : Bool}
  {draws : List (Option Block64)} {evp : EvpResults} {init : Obfs2Init}

/-! ### The block on the wire -/

/-- The end of a stamped block: the tag, the data centre and the last two bytes. -/
theorem stampHeader_drop (block : Block64) (dcId : ℤ) (tunnel : Bool) :
    (stampHeader block.bytes dcId tunnel).drop 56 =
      le32 0xdddddddd ++ ((if tunnel then [0x53, 0x53] else int16Bytes dcId) ++
        block.bytes.drop 62) := by
  have hfront : ([0x01, 0x01, 0x01, 0x00] ++ (block.bytes.drop 4).take 52).length = 56 := by
    simp only [List.length_append, List.length_take, List.length_drop, List.length_cons,
      List.length_nil, block.length_eq]
    decide
  unfold stampHeader
  rw [List.append_assoc, List.append_assoc, List.drop_left' hfront]

/-- What `gen_obfs2_init` returns: the stamped block with its last eight bytes encrypted, and
the two contexts. -/
theorem genObfs2Init_some (h : genObfs2Init prim secret dcId tunnel draws evp = some init) :
    ∃ block : Block64, drawHeader draws = some block ∧
      let stamped := stampHeader block.bytes dcId tunnel
      let writeKey := clientWriteKey prim secret stamped
      let readKey := clientReadKey prim secret stamped
      init.header = stamped.take 56 ++
          (xorAt (prim.aes256Ctr writeKey.1 writeKey.2) 0 stamped).drop 56 ∧
        init.encryptCtx = ⟨prim.aes256Ctr writeKey.1 writeKey.2, 64⟩ ∧
        init.decryptCtx = ⟨prim.aes256Ctr readKey.1 readKey.2, 0⟩ := by
  unfold genObfs2Init at h
  cases hdraw : drawHeader draws with
  | none =>
    rw [hdraw] at h
    exact nomatch h
  | some block =>
    rw [hdraw] at h
    dsimp only at h
    split_ifs at h
    cases h
    exact ⟨block, rfl, rfl, rfl, rfl⟩

/-- A slice that ends before the encrypted bytes is the slice of the stamped block. -/
theorem slice_of_take {l r : Bytes} {k n m : ℕ} (hk : n + m ≤ k) (hl : k ≤ l.length) :
    ((l.take k ++ r).drop n).take m = (l.drop n).take m := by
  have hlen : (l.take k).length = k := List.length_take_of_le hl
  rw [List.drop_append_of_le_length (by omega), List.take_append_of_le_length
    (by rw [List.length_drop, hlen]; omega), List.drop_take, List.take_take, min_eq_left (by omega)]

/-- A `short` is read as it was written. -/
theorem readShort_int16Bytes {v : ℤ} (hlo : -2 ^ 15 ≤ v) (hhi : v < 2 ^ 15) :
    readShort ((int16Bytes v).getD 0 0) ((int16Bytes v).getD 1 0) = v := by
  simp only [int16Bytes, List.getD_cons_zero, List.getD_cons_succ, readShort, UInt8.toNat_ofNat']
  split_ifs <;> omega

/-! ### Both ends slice the same bytes -/

/-- **The keys agree.**  From a block whose last eight bytes were encrypted the server derives
the keys the client derived from the stamped block, each direction with the other end's
name. -/
theorem obfs2Keys_of_stamped (prim : Primitives) (secret : Bytes) {stamped : Bytes}
    (hlen : stamped.length = 64) (r : Bytes) :
    obfs2Keys prim (stamped.take 56 ++ r) (some secret) =
      ⟨(clientWriteKey prim secret stamped).1, (clientWriteKey prim secret stamped).2,
        (clientReadKey prim secret stamped).1, (clientReadKey prim secret stamped).2⟩ := by
  have h1 : ((stamped.take 56 ++ r).drop 8).take 32 = (stamped.drop 8).take 32 :=
    slice_of_take (by decide) (by omega)
  have h2 : ((stamped.take 56 ++ r).drop 40).take 16 = (stamped.drop 40).take 16 :=
    slice_of_take (by decide) (by omega)
  have h3 : ((stamped.take 56 ++ r).drop 24).take 32 = (stamped.drop 24).take 32 :=
    slice_of_take (by decide) (by omega)
  have h4 : ((stamped.take 56 ++ r).drop 8).take 16 = (stamped.drop 8).take 16 :=
    slice_of_take (by decide) (by omega)
  simp only [obfs2Keys, clientWriteKey, clientReadKey, h1, h2, h3, h4]

/-- The server's keystream turns the encrypted end of the block back into the stamped one. -/
theorem drop_xorAt_block (ks : Keystream) {stamped : Bytes} (hlen : stamped.length = 64) :
    (xorAt ks 0 (stamped.take 56 ++ (xorAt ks 0 stamped).drop 56)).drop 56 = stamped.drop 56 := by
  have htake : (stamped.take 56).length = 56 := List.length_take_of_le (by omega)
  rw [xorAt_drop, List.drop_left' htake, xorAt_drop, xorAt_xorAt]

/-- The client's secret opens the client's block, with the padded tag and its data centre. -/
theorem obfs2TrySecret_genObfs2Init (block : Block64) {dcId : ℤ} (hlo : -2 ^ 15 ≤ dcId)
    (hhi : dcId < 2 ^ 15) (randPadOnly : Bool) (sid : ℕ) {header : Bytes}
    (hheader : header = (stampHeader block.bytes dcId false).take 56 ++
      (xorAt (prim.aes256Ctr (clientWriteKey prim secret (stampHeader block.bytes dcId false)).1
        (clientWriteKey prim secret (stampHeader block.bytes dcId false)).2) 0
          (stampHeader block.bytes dcId false)).drop 56) :
    obfs2TrySecret prim header randPadOnly (some secret) sid =
      some ⟨OBFS2_TAG_PAD, dcId, sid, obfs2Keys prim header (some secret)⟩ := by
  have hlen := stampHeader_length block dcId false
  have hkeys := obfs2Keys_of_stamped prim secret hlen
    ((xorAt (prim.aes256Ctr (clientWriteKey prim secret (stampHeader block.bytes dcId false)).1
      (clientWriteKey prim secret (stampHeader block.bytes dcId false)).2) 0
        (stampHeader block.bytes dcId false)).drop 56)
  rw [← hheader] at hkeys
  -- The last eight bytes of what the server decrypts.
  have hplain := drop_xorAt_block (prim.aes256Ctr
    (clientWriteKey prim secret (stampHeader block.bytes dcId false)).1
    (clientWriteKey prim secret (stampHeader block.bytes dcId false)).2) hlen
  rw [← hheader, stampHeader_drop] at hplain
  set plain := xorAt (prim.aes256Ctr
    (clientWriteKey prim secret (stampHeader block.bytes dcId false)).1
    (clientWriteKey prim secret (stampHeader block.bytes dcId false)).2) 0 header with hdef
  have htag : readLe32 (plain.drop 56) = OBFS2_TAG_PAD := by
    rw [hplain]
    exact readLe32_le32_append _ (by decide) _
  have hget (i : ℕ) : plain.getD (56 + i) 0 = (plain.drop 56).getD i 0 := by
    simp only [List.getD_eq_getElem?_getD, List.getElem?_drop]
  have hdc : readShort (plain.getD 60 0) (plain.getD 61 0) = dcId := by
    rw [hget 4, hget 5, hplain]
    exact readShort_int16Bytes hlo hhi
  unfold obfs2TrySecret
  rw [hkeys]
  dsimp only
  rw [← hdef, if_pos (Or.inl htag), htag, hdc]

/-- **Key agreement on the 64-byte block.**  Of the secrets the server tries, the client's is
at number `i`, and no earlier one opens the block.  Then the parser returns this number,
the padded tag and the client's data centre; the keys of both ends are the same; once
the server has set its cipher up, the two ends stand at the same places of the same two
keystreams, 64 towards the server and 0 towards the client; and after any number of
earlier tries the buffer holds the block as it was. -/
theorem obfs2_agrees {W : Type*} (env : ExtServerEnv W) (c : Conn W) (secrets : List Bytes)
    (i : ℕ) (secret : Bytes) (dcId : ℤ) (draws : List (Option Block64)) (evp : EvpResults)
    (init : Obfs2Init) (randPadOnly : Bool) (hsecret : secrets[i]? = some secret)
    (hlo : -2 ^ 15 ≤ dcId) (hhi : dcId < 2 ^ 15)
    (hgen : t3cObfs2GenerateInit env.prim secret dcId draws evp = some init)
    (hfirst : ∀ j key, j < i → secrets[j]? = some key →
      obfs2TrySecret env.prim init.header randPadOnly (some key) j = none) :
    ∃ pr stamped, obfs2ParseHeader env.prim init.header secrets randPadOnly = some pr ∧
      pr.secretId = i ∧ pr.tag = 0xdddddddd ∧ pr.dc = dcId ∧
      (drawHeader draws).map (stampHeader ·.bytes dcId false) = some stamped ∧
      (pr.keys.readKey, pr.keys.readIv) = clientWriteKey env.prim secret stamped ∧
      (pr.keys.writeKey, pr.keys.writeIv) = clientReadKey env.prim secret stamped ∧
      (startCrypto env c pr).crypto = some ⟨init.encryptCtx, init.decryptCtx⟩ ∧
      init.encryptCtx.pos = 64 ∧ init.decryptCtx.pos = 0 ∧
      (obfs2ParseHeaderInPlace env.prim init.header secrets randPadOnly).2 = some pr ∧
      ∀ j ≤ i, obfs2TriesInPlace env.prim init.header randPadOnly
        ((secrets.take j).map some) 0 init.header = (init.header, none) := by
  obtain ⟨block, hdraw, hheader, henc, hdec⟩ := genObfs2Init_some hgen
  have hlen := stampHeader_length block dcId false
  have hopen := obfs2TrySecret_genObfs2Init block hlo hhi randPadOnly i hheader
  have hkeys := obfs2Keys_of_stamped env.prim secret hlen
    ((xorAt (env.prim.aes256Ctr
      (clientWriteKey env.prim secret (stampHeader block.bytes dcId false)).1
      (clientWriteKey env.prim secret (stampHeader block.bytes dcId false)).2) 0
        (stampHeader block.bytes dcId false)).drop 56)
  rw [← hheader] at hkeys
  have hne : secrets.length ≠ 0 := by
    have := (List.getElem?_eq_some_iff.mp hsecret).1
    omega
  have hparse : obfs2ParseHeader env.prim init.header secrets randPadOnly =
      some ⟨OBFS2_TAG_PAD, dcId, i, obfs2Keys env.prim init.header (some secret)⟩ := by
    rw [obfs2ParseHeader, if_neg hne]
    refine obfs2TrySecrets_first hsecret (fun j key hj hk => ?_) ?_
    · rw [Nat.zero_add]
      exact hfirst j key hj hk
    · rw [Nat.zero_add]
      exact hopen
  refine ⟨_, stampHeader block.bytes dcId false, hparse, rfl, rfl, rfl, ?_, ?_, ?_, ?_, ?_, ?_, ?_,
    fun j hj => ?_⟩
  · rw [hdraw]
    rfl
  · rw [hkeys]
  · rw [hkeys]
  · simp only [startCrypto, hkeys, henc, hdec]
  · rw [henc]
  · rw [hdec]
  · rw [obfs2ParseHeaderInPlace_snd, hparse]
  · -- The first `j` tries find nothing.
    refine obfs2TriesInPlace_of_none fun k key hk => ?_
    rw [List.getElem?_take] at hk
    split_ifs at hk with hlt
    rw [Nat.zero_add]
    exact hfirst k key (by omega) hk

/-- A cipher whose keystream is the last byte of the key, and a hash that changes nothing. -/
def lastBytePrimitives : Primitives := ⟨fun bs => bs, fun key _ _ => key.getLastD 0⟩

/-- The second of two secrets is the client's. -/
theorem obfs2_agrees_second :
    ∃ init pr, t3cObfs2GenerateInit lastBytePrimitives (List.replicate 16 2) (-2)
        [some ⟨List.replicate 64 0x10, rfl⟩] ⟨true, true, true, true⟩ = some init ∧
      obfs2ParseHeader lastBytePrimitives init.header
        [List.replicate 16 1, List.replicate 16 2] false = some pr ∧
      pr.secretId = 1 ∧ pr.dc = -2 := by
  obtain ⟨init, hgen, hother⟩ : ∃ init,
      t3cObfs2GenerateInit lastBytePrimitives (List.replicate 16 2) (-2)
        [some ⟨List.replicate 64 0x10, rfl⟩] ⟨true, true, true, true⟩ = some init ∧
      obfs2TrySecret lastBytePrimitives init.header false (some (List.replicate 16 1)) 0 = none :=
    ⟨_, rfl, rfl⟩
  obtain ⟨pr, _, hparse, hid, -, hdc, -⟩ :=
    obfs2_agrees { sampleServer with prim := lastBytePrimitives } sampleAccepted
      [List.replicate 16 1, List.replicate 16 2] 1 (List.replicate 16 2) (-2) _ _ init false rfl
      (by decide) (by decide) hgen (by
        rintro j key hj hk
        obtain rfl : j = 0 := by omega
        cases hk
        exact hother)
  exact ⟨init, pr, hgen, hparse, hid, hdc⟩

end Server
end Teleproto3
