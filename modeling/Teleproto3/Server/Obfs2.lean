/-
# The obfuscated2 header on the server

`obfs2_parse_header` of `server/src/net/net-obfs2-parse.c`: 64 bytes that hold, under a
secret, the keys of both directions, and at their end, encrypted with these keys, a tag
and the number of a data centre.  The parser tries one secret after the other and takes
the first whose keys turn bytes 56 to 59 into a known tag.
-/

import Teleproto3.Lib.Bytes
import Teleproto3.Server.Conn

namespace Teleproto3
namespace Server

open Lib

/-- `OBFS2_TAG_PAD`. -/
def OBFS2_TAG_PAD : ℕ := 0xdddddddd

/-- `OBFS2_TAG_MEDIUM`. -/
def OBFS2_TAG_MEDIUM : ℕ := 0xeeeeeeee

/-- `OBFS2_TAG_COMPACT`. -/
def OBFS2_TAG_COMPACT : ℕ := 0xefefefef

/-- `struct obfs2_parse_result`. -/
structure Obfs2ParseResult where
  tag : ℕ
  dc : ℤ
  secretId : ℕ
  keys : AesKeyData
  deriving DecidableEq, Repr

/-- A `short` read from two bytes, the low byte first. -/
def readShort (lo hi : UInt8) : ℤ :=
  let v := lo.toNat + 256 * hi.toNat
  if v < 2 ^ 15 then v else v - 2 ^ 16

/-- The keys a header spells under a secret; without a secret, the raw bytes. -/
def obfs2Keys (prim : Primitives) (header : Bytes) (secret : Option Bytes) : AesKeyData :=
  let derive (raw : Bytes) : Bytes :=
    match secret with
    | some key => prim.sha256 (raw ++ key)
    | none => raw
  { readKey := derive ((header.drop 8).take 32)
    readIv := (header.drop 40).take 16
    writeKey := derive ((header.drop 24).take 32).reverse
    writeIv := ((header.drop 8).take 16).reverse }

/-- One turn of the loop: the header under one secret. -/
def obfs2TrySecret (prim : Primitives) (header : Bytes) (randPadOnly : Bool)
    (secret : Option Bytes) (sid : ℕ) : Option Obfs2ParseResult :=
  let kd := obfs2Keys prim header secret
  let plain := xorAt (prim.aes256Ctr kd.readKey kd.readIv) 0 header
  let tag := readLe32 (plain.drop 56)
  if tag = OBFS2_TAG_PAD ∨ (tag = OBFS2_TAG_MEDIUM ∨ tag = OBFS2_TAG_COMPACT) ∧ ¬ randPadOnly then
    some ⟨tag, readShort (plain.getD 60 0) (plain.getD 61 0), sid, kd⟩
  else none

/-- The loop over the secrets from number `sid` on. -/
def obfs2TrySecrets (prim : Primitives) (header : Bytes) (randPadOnly : Bool) :
    List Bytes → ℕ → Option Obfs2ParseResult
  | [], _ => none
  | secret :: secrets, sid =>
    (obfs2TrySecret prim header randPadOnly (some secret) sid).or
      (obfs2TrySecrets prim header randPadOnly secrets (sid + 1))

/-- `obfs2_parse_header`. -/
def obfs2ParseHeader (prim : Primitives) (header : Bytes) (secrets : List Bytes)
    (randPadOnly : Bool) : Option Obfs2ParseResult :=
  if secrets.length = 0 then obfs2TrySecret prim header randPadOnly none 0
  else obfs2TrySecrets prim header randPadOnly secrets 0

/-- A match has the number of a secret, a known tag, and the keys its header spells under that
secret. -/
theorem obfs2TrySecrets_some {prim : Primitives} {header : Bytes} {randPadOnly : Bool}
    {secrets : List Bytes} {sid : ℕ} {pr : Obfs2ParseResult}
    (h : obfs2TrySecrets prim header randPadOnly secrets sid = some pr) :
    ∃ i, ∃ hi : i < secrets.length, pr.secretId = sid + i ∧
      pr.keys = obfs2Keys prim header (some secrets[i]) ∧
      (pr.tag = OBFS2_TAG_PAD ∨ pr.tag = OBFS2_TAG_MEDIUM ∨ pr.tag = OBFS2_TAG_COMPACT) := by
  induction secrets generalizing sid with
  | nil => exact nomatch h
  | cons secret secrets ih =>
    rw [obfs2TrySecrets, Option.or_eq_some_iff] at h
    rcases h with hhere | ⟨-, hrest⟩
    · simp only [obfs2TrySecret] at hhere
      split_ifs at hhere with htag
      cases hhere
      exact ⟨0, Nat.succ_pos _, rfl, rfl, htag.imp_right And.left⟩
    · obtain ⟨i, hi, hsid, hkeys, htag⟩ := ih hrest
      refine ⟨i + 1, Nat.succ_lt_succ hi, ?_, hkeys, htag⟩
      omega

/-! ### Lengths of frames -/

/-- `struct obfs2_frame_result`. -/
structure Obfs2FrameResult where
  packetLen : ℕ
  headerBytes : ℕ
  quickack : Bool
  deriving DecidableEq, Repr

/-- The tests at the end of `obfs2_parse_frame_length`. -/
def obfs2CheckLength (flags : RpcFlags) (maxPacketLen : ℕ) (result : Obfs2FrameResult) :
    Option Obfs2FrameResult :=
  if result.packetLen = 0 ∨ 2 ^ 30 ≤ result.packetLen then none
  else if flags.pad = false ∧ result.packetLen % 4 ≠ 0 then none
  else if 0 < maxPacketLen ∧ maxPacketLen < result.packetLen then none
  else some result

/-- `obfs2_parse_frame_length`, with the `int` read as an unsigned number.  In the medium
mode the numbers above `2 ^ 32 - 1000` are transport errors. -/
def obfs2ParseFrameLength (raw4 : ℕ) (flags : RpcFlags) (maxPacketLen : ℕ) :
    Option Obfs2FrameResult :=
  if flags.medium then
    if 2 ^ 32 - 1000 < raw4 then none
    else obfs2CheckLength flags maxPacketLen ⟨raw4 % 2 ^ 31, 4, decide (2 ^ 31 ≤ raw4)⟩
  else
    let quickack := decide (raw4 / 2 ^ 7 % 2 = 1)
    if raw4 % 2 ^ 7 = 0x7f then
      if raw4 / 2 ^ 8 < 0x7f then none
      else obfs2CheckLength flags maxPacketLen ⟨raw4 / 2 ^ 8 * 4, 4, quickack⟩
    else obfs2CheckLength flags maxPacketLen ⟨raw4 % 2 ^ 7 * 4, 1, quickack⟩

/-- A length of the padded mode is taken as it is. -/
theorem obfs2ParseFrameLength_padded {n maxPacketLen : ℕ} {flags : RpcFlags}
    (hmedium : flags.medium = true) (hpad : flags.pad = true) (h0 : n ≠ 0) (hn : n < 2 ^ 30)
    (hmax : n ≤ maxPacketLen) : obfs2ParseFrameLength n flags maxPacketLen = some ⟨n, 4, false⟩ := by
  have hmod : n % 2 ^ 31 = n := Nat.mod_eq_of_lt (by omega)
  have hquick : decide (2 ^ 31 ≤ n) = false := decide_eq_false (by omega)
  rw [obfs2ParseFrameLength, if_pos hmedium, if_neg (by omega), hmod, hquick, obfs2CheckLength]
  dsimp only
  have hnopad : ¬ (flags.pad = false ∧ n % 4 ≠ 0) := by simp [hpad]
  rw [if_neg (by omega), if_neg hnopad, if_neg (by omega)]

/-! ### The loop on its buffer -/

/-- The loop as it runs on the buffer of the header: each turn decrypts the buffer in place,
and where no tag is found the buffer is restored from `saved` for the next turn. -/
def obfs2TriesInPlace (prim : Primitives) (saved : Bytes) (randPadOnly : Bool) :
    List (Option Bytes) → ℕ → Bytes → Bytes × Option Obfs2ParseResult
  | [], _, header => (header, none)
  | secret :: secrets, sid, header =>
    let kd := obfs2Keys prim header secret
    match obfs2TrySecret prim header randPadOnly secret sid with
    | some pr => (xorAt (prim.aes256Ctr kd.readKey kd.readIv) 0 header, some pr)
    | none => obfs2TriesInPlace prim saved randPadOnly secrets (sid + 1) saved

/-- `obfs2_parse_header` with what it leaves in `header`. -/
def obfs2ParseHeaderInPlace (prim : Primitives) (header : Bytes) (secrets : List Bytes)
    (randPadOnly : Bool) : Bytes × Option Obfs2ParseResult :=
  obfs2TriesInPlace prim header randPadOnly
    (if secrets.length = 0 then [none] else secrets.map some) 0 header

/-- The turns on the buffer find what the turns on copies of the header find. -/
theorem obfs2TriesInPlace_snd (prim : Primitives) (header : Bytes) (randPadOnly : Bool)
    (secrets : List Bytes) (sid : ℕ) :
    (obfs2TriesInPlace prim header randPadOnly (secrets.map some) sid header).2 =
      obfs2TrySecrets prim header randPadOnly secrets sid := by
  induction secrets generalizing sid with
  | nil => rfl
  | cons secret secrets ih =>
    rw [List.map_cons, obfs2TriesInPlace, obfs2TrySecrets]
    cases obfs2TrySecret prim header randPadOnly (some secret) sid with
    | none => exact ih (sid + 1)
    | some pr => rfl

/-- **The buffer does not matter.**  Decrypting in place and restoring comes to the same as
decrypting a copy for each secret. -/
theorem obfs2ParseHeaderInPlace_snd (prim : Primitives) (header : Bytes) (secrets : List Bytes)
    (randPadOnly : Bool) :
    (obfs2ParseHeaderInPlace prim header secrets randPadOnly).2 =
      obfs2ParseHeader prim header secrets randPadOnly := by
  unfold obfs2ParseHeaderInPlace obfs2ParseHeader
  split_ifs
  · rw [obfs2TriesInPlace]
    cases obfs2TrySecret prim header randPadOnly none 0 <;> rfl
  · exact obfs2TriesInPlace_snd prim header randPadOnly secrets 0

/-- Tries that find nothing leave the header as it was. -/
theorem obfs2TriesInPlace_of_none {prim : Primitives} {header : Bytes} {randPadOnly : Bool}
    {secrets : List Bytes} {sid : ℕ}
    (h : ∀ j key, secrets[j]? = some key →
      obfs2TrySecret prim header randPadOnly (some key) (sid + j) = none) :
    obfs2TriesInPlace prim header randPadOnly (secrets.map some) sid header = (header, none) := by
  induction secrets generalizing sid with
  | nil => rfl
  | cons secret secrets ih =>
    have hhere : obfs2TrySecret prim header randPadOnly (some secret) sid = none := h 0 secret rfl
    rw [List.map_cons, obfs2TriesInPlace, hhere]
    refine ih fun j key hj => ?_
    rw [show sid + 1 + j = sid + (j + 1) by omega]
    exact h (j + 1) key hj

/-- The first secret that opens the header decides. -/
theorem obfs2TrySecrets_first {prim : Primitives} {header : Bytes} {randPadOnly : Bool}
    {secrets : List Bytes} {sid i : ℕ} {secret : Bytes} {pr : Obfs2ParseResult}
    (hi : secrets[i]? = some secret)
    (hbefore : ∀ j key, j < i → secrets[j]? = some key →
      obfs2TrySecret prim header randPadOnly (some key) (sid + j) = none)
    (hhere : obfs2TrySecret prim header randPadOnly (some secret) (sid + i) = some pr) :
    obfs2TrySecrets prim header randPadOnly secrets sid = some pr := by
  induction secrets generalizing sid i with
  | nil => exact nomatch hi
  | cons key secrets ih =>
    rw [obfs2TrySecrets, Option.or_eq_some_iff]
    cases i with
    | zero =>
      left
      rw [Option.some.inj hi]
      exact hhere
    | succ i =>
      right
      refine ⟨hbefore 0 key (Nat.succ_pos i) rfl, ih hi (fun j k hj hk => ?_) ?_⟩
      · rw [show sid + 1 + j = sid + (j + 1) by omega]
        exact hbefore (j + 1) k (Nat.succ_lt_succ hj) hk
      · rw [show sid + 1 + i = sid + (i + 1) by omega]
        exact hhere

end Server
end Teleproto3
