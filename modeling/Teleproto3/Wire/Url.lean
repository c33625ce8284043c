/-
# The URL of a secret

`lib/src/t3_url_parser.c`: the parameter `secret` of a `tg://proxy?` URL, spelled in hexadecimal
digits of either case.  `query_param` goes from parameter to parameter and takes the value of the
first that has the key, `hex_decode` turns it into bytes, and the bytes go to `t3_secret_parse`.

`t3UrlParse_agrees` says that the URL gives what the bytes would give, whatever parameters stand
around the secret, and that every other value is malformed.
-/

import Teleproto3.Lib.Loop
import Teleproto3.Lib.Separated
import Teleproto3.Wire.HttpChunk
import Teleproto3.Wire.SecretSplit

namespace Teleproto3
namespace Wire

open Lib

/-- `hex_nibble`: the value of a digit, or nothing for any other character. -/
def hexNibble (c : UInt8) : Option ℕ := hexDigit c

/-- The loop of `hex_decode`. -/
def hexDecodePairs : Bytes → Option Bytes
  | hi :: lo :: hex =>
    match hexNibble hi, hexNibble lo with
    | some hi, some lo => (hexDecodePairs hex).map (UInt8.ofNat (hi <<< 4 ||| lo) :: ·)
    | _, _ => none
  | _ => some []

/-- `hex_decode`, with `expected` bytes to fill. -/
def hexDecode (hex : Bytes) (expected : ℕ) : Option Bytes :=
  if hex.length ≠ expected * 2 then none else hexDecodePairs hex

/-- `vs` and `vlen` of `query_param`: the value up to the next `&`, or to the end. -/
def paramValue (vs : Bytes) : Bytes :=
  match memchr vs 0x26 with
  | some ve => vs.take ve
  | none => vs

/-- One turn of the loop of `query_param`, at the start of a parameter. -/
def queryParamTurn (key p : Bytes) : Turn Bytes (Option Bytes) :=
  if p = [] then .done none
  else if key.isPrefixOf p ∧ p.getD key.length 0 = 0x3D then
    .done (some (paramValue (p.drop (key.length + 1))))
  else
    match memchr p 0x26 with
    | none => .done none
    | some i => .again (p.drop (i + 1))

/-- Each turn that goes on leaves a parameter behind. -/
theorem queryParamTurn_shrinks (key : Bytes) : Shrinks (queryParamTurn key) List.length := by
  intro p p' h
  unfold queryParamTurn at h
  split_ifs at h with hnil hkey
  cases hamp : memchr p 0x26 with
  | none =>
    rw [hamp] at h
    exact nomatch h
  | some i =>
    rw [hamp] at h
    have hpos := List.length_pos_iff.mpr hnil
    rw [← Turn.again.inj h, List.length_drop]
    omega

/-- `query_param`, before the copy of the value. -/
def queryParam (query key : Bytes) : Option Bytes :=
  loop (queryParamTurn key) List.length (queryParamTurn_shrinks key) query

/-- `PREFIX`. -/
def URL_PREFIX : Bytes := ascii "tg://proxy?"

/-- `t3_url_parse`, where so many calls of `malloc` succeed. -/
def t3UrlParse (url : Option CStr) (mallocs : ℕ) : Except T3Result T3SecretBlocks :=
  match url with
  | none => .error .invalidArg
  | some url =>
    if ¬ URL_PREFIX.isPrefixOf url.bytes then .error .malformed
    else
      match queryParam (url.bytes.drop URL_PREFIX.length) (ascii "secret"), takeBlock mallocs with
      | none, _ => .error .malformed
      | some _, .error _ => .error .malformed
      | some secretHex, .ok mallocs =>
        if secretHex.length < 36 ∨ secretHex.length % 2 = 1 then .error .malformed
        else do
          let binLen := secretHex.length / 2
          let mallocs ← takeBlock mallocs
          match hexDecode secretHex binLen with
          | none => .error .malformed
          | some bin => t3SecretParseBlocks (some bin) binLen mallocs

/-! ### Hexadecimal digits -/

/-- A digit of either case. -/
def IsHexDigit (c : UInt8) (v : ℕ) : Prop :=
  v < 10 ∧ c.toNat = 0x30 + v ∨
    10 ≤ v ∧ v < 16 ∧ (c.toNat = 0x61 + (v - 10) ∨ c.toNat = 0x41 + (v - 10))

/-- **A hexadecimal spelling**: two digits for each byte, each of either case. -/
inductive SpellsHex : Bytes → Bytes → Prop
  | nil : SpellsHex [] []
  | cons {hi lo b : UInt8} {hex bs : Bytes} : IsHexDigit hi (b.toNat / 16) →
    IsHexDigit lo (b.toNat % 16) → SpellsHex hex bs → SpellsHex (hi :: lo :: hex) (b :: bs)

theorem hexNibble_iff (c : UInt8) (v : ℕ) : hexNibble c = some v ↔ IsHexDigit c v := by
  unfold hexNibble hexDigit IsHexDigit
  simp only [UInt8.le_iff_toNat_le, UInt8.reduceToNat]
  split_ifs <;> simp only [Option.some.injEq, false_iff] <;> omega

/-- Two digits make the byte they spell. -/
theorem nibbles_byte (b : UInt8) : UInt8.ofNat ((b.toNat / 16) <<< 4 ||| b.toNat % 16) = b := by
  have hall : ∀ n : Fin 256, UInt8.ofNat ((n.val / 16) <<< 4 ||| n.val % 16) = UInt8.ofFin n := by
    decide +kernel
  exact hall b.toFin

theorem byte_nibbles {hi lo : ℕ} (hhi : hi < 16) (hlo : lo < 16) :
    (UInt8.ofNat (hi <<< 4 ||| lo)).toNat / 16 = hi ∧
      (UInt8.ofNat (hi <<< 4 ||| lo)).toNat % 16 = lo := by
  have hall : ∀ h l : Fin 16, (UInt8.ofNat (h.val <<< 4 ||| l.val)).toNat / 16 = h.val ∧
      (UInt8.ofNat (h.val <<< 4 ||| l.val)).toNat % 16 = l.val := by
    decide +kernel
  exact hall ⟨hi, hhi⟩ ⟨lo, hlo⟩

theorem IsHexDigit.lt {c : UInt8} {v : ℕ} (h : IsHexDigit c v) : v < 16 := by
  unfold IsHexDigit at h
  omega

/-- **What is decoded is what was spelled.** -/
theorem hexDecodePairs_iff {hex bs : Bytes} (heven : hex.length % 2 = 0) :
    hexDecodePairs hex = some bs ↔ SpellsHex hex bs := by
  induction hex using hexDecodePairs.induct generalizing bs with
  | case1 hi lo hex h l hl hh ih =>
    have hhi := (hexNibble_iff hi h).mp hh
    have hlo := (hexNibble_iff lo l).mp hl
    obtain ⟨hdiv, hmod⟩ := byte_nibbles hhi.lt hlo.lt
    have htail : hex.length % 2 = 0 := by
      simp only [List.length_cons] at heven
      omega
    simp only [hexDecodePairs, hh, hl, Option.map_eq_some_iff]
    constructor
    · rintro ⟨tail, hdecode, rfl⟩
      exact .cons (hdiv.symm ▸ hhi) (hmod.symm ▸ hlo) ((ih htail).mp hdecode)
    · intro hspells
      cases hspells with
      | cons hhi' hlo' hrest =>
        rename_i b tail
        have hhigh := Option.some.inj (hh.symm.trans ((hexNibble_iff hi _).mpr hhi'))
        have hlow := Option.some.inj (hl.symm.trans ((hexNibble_iff lo _).mpr hlo'))
        refine ⟨tail, (ih htail).mpr hrest, ?_⟩
        rw [hhigh, hlow, nibbles_byte]
  | case2 hi lo hex hno =>
    have hnone : hexDecodePairs (hi :: lo :: hex) = none := by
      rw [hexDecodePairs]
      split
      · next h l hh hl => exact (hno h l hh hl).elim
      · rfl
    rw [hnone]
    refine iff_of_false (by simp) fun hspells => ?_
    cases hspells with
    | cons hhi hlo _ => exact hno _ _ ((hexNibble_iff hi _).mpr hhi) ((hexNibble_iff lo _).mpr hlo)
  | case3 hex hno =>
    cases hex with
    | nil =>
      simp only [hexDecodePairs, Option.some.injEq]
      exact ⟨fun h => h ▸ .nil, fun h => by cases h; rfl⟩
    | cons a hex =>
      cases hex with
      | nil => simp at heven
      | cons b hex => exact (hno a b hex rfl).elim

/-- A spelling has two digits for each byte. -/
theorem SpellsHex.length_eq {hex bs : Bytes} (h : SpellsHex hex bs) :
    hex.length = bs.length * 2 := by
  induction h with
  | nil => rfl
  | cons _ _ _ ih => simp only [List.length_cons, ih, Nat.add_mul]

/-! ### Parameters -/

/-- A parameter has the key where it begins with the key and `=`. -/
theorem hasKey_iff (key p : Bytes) :
    key.isPrefixOf p = true ∧ p.getD key.length 0 = 0x3D ↔ key ++ [0x3D] <+: p := by
  rw [List.isPrefixOf_iff_prefix]
  constructor
  · rintro ⟨⟨t, rfl⟩, hget⟩
    rw [List.prefix_append_right_inj]
    cases t with
    | nil => simp at hget
    | cons a t => simpa [eq_comm] using hget
  · rintro ⟨t, rfl⟩
    refine ⟨⟨0x3D :: t, by simp⟩, by simp⟩

/-- The value of a parameter ends at the next `&`, or with the query. -/
theorem paramValue_append {value : Bytes} (h : (0x26 : UInt8) ∉ value) {rest : Bytes}
    (hrest : EndsParam rest) : paramValue (value ++ rest) = value := by
  unfold paramValue
  rcases hrest with rfl | hrest
  · rw [List.append_nil, memchr_eq_none.mpr h]
  · obtain ⟨t, rfl⟩ := List.head?_eq_some_iff.mp hrest
    rw [memchr_append_cons h]
    exact List.take_left

/-- The first parameter with the key is found. -/
theorem queryParam_found (key : Bytes) {value rest : Bytes} (hvalue : (0x26 : UInt8) ∉ value)
    (hrest : EndsParam rest) :
    queryParam (key ++ 0x3D :: (value ++ rest)) key = some value := by
  refine loop_of_done (queryParamTurn_shrinks key) ?_
  have hkey := (hasKey_iff key (key ++ 0x3D :: (value ++ rest))).mpr ⟨value ++ rest, by simp⟩
  have hdrop : (key ++ 0x3D :: (value ++ rest)).drop (key.length + 1) = value ++ rest := by
    rw [← List.drop_drop, List.drop_left]
    rfl
  rw [queryParamTurn, if_neg (by simp), if_pos hkey, hdrop, paramValue_append hvalue hrest]

variable {key : Bytes}

/-- A parameter without the key is passed over. -/
theorem queryParam_skip {p rest : Bytes} (hamp : (0x26 : UInt8) ∉ p)
    (hkeyAmp : (0x26 : UInt8) ∉ key) (hkey : ¬ key ++ [0x3D] <+: p) :
    queryParam (p ++ 0x26 :: rest) key = queryParam rest key := by
  have hno : ¬ key ++ [0x3D] <+: p ++ 0x26 :: rest := by
    have hsplit : p ++ 0x26 :: rest = (p ++ [0x26]) ++ rest := by simp
    have hkeyEq : (0x26 : UInt8) ∉ key ++ [0x3D] := by simpa using hkeyAmp
    rw [hsplit, prefix_append_iff_of_notMem (by simp) hkeyEq, List.prefix_concat_iff, not_or]
    exact ⟨fun heq => hkeyEq (by simp [heq]), hkey⟩
  refine loop_of_again (queryParamTurn_shrinks key) ?_
  rw [queryParamTurn, if_neg (by simp), if_neg (mt (hasKey_iff _ _).mp hno),
    memchr_append_cons hamp]
  simp

/-- **The value found is that of the first parameter with the key**, whatever parameters stand
before and behind. -/
theorem queryParam_first {before after : List Bytes} {value : Bytes}
    (hkeyAmp : (0x26 : UInt8) ∉ key)
    (hbefore : ∀ p ∈ before, (0x26 : UInt8) ∉ p ∧ ¬ key ++ [0x3D] <+: p)
    (hvalue : (0x26 : UInt8) ∉ value) :
    queryParam ([0x26].intercalate (before ++ (key ++ 0x3D :: value) :: after)) key =
      some value := by
  induction before with
  | nil =>
    rw [List.nil_append]
    rcases intercalate_cons 0x26 (key ++ 0x3D :: value) after with ⟨-, hone⟩ | ⟨hmore, -⟩
    · have hfound := queryParam_found key hvalue (Or.inl rfl : EndsParam [])
      rw [hone]
      rwa [List.append_nil] at hfound
    · have hend : EndsParam (0x26 :: [0x26].intercalate after) := Or.inr rfl
      rw [hmore, List.append_assoc]
      exact queryParam_found key hvalue hend
  | cons p before ih =>
    obtain ⟨hamp, hkey⟩ := hbefore p List.mem_cons_self
    have hrest := ih fun q hq => hbefore q (List.mem_cons_of_mem p hq)
    have hsplit := intercalate_cons 0x26 p (before ++ (key ++ 0x3D :: value) :: after)
    rw [List.cons_append, (hsplit.resolve_left fun h => by simp at h).1,
      queryParam_skip hamp hkeyAmp hkey, hrest]

/-- Where no parameter has the key, nothing is found. -/
theorem queryParam_none {ps : List Bytes} (hkeyAmp : (0x26 : UInt8) ∉ key)
    (hps : ∀ p ∈ ps, (0x26 : UInt8) ∉ p ∧ ¬ key ++ [0x3D] <+: p) :
    queryParam ([0x26].intercalate ps) key = none := by
  induction ps with
  | nil => exact loop_of_done (queryParamTurn_shrinks key) rfl
  | cons p ps ih =>
    obtain ⟨hamp, hkey⟩ := hps p List.mem_cons_self
    rcases intercalate_cons 0x26 p ps with ⟨-, hone⟩ | ⟨hmore, -⟩
    · rw [hone]
      refine loop_of_done (queryParamTurn_shrinks key) ?_
      rw [queryParamTurn, if_neg (mt (hasKey_iff _ _).mp hkey), memchr_eq_none.mpr hamp]
      split_ifs <;> rfl
    · rw [hmore, queryParam_skip hamp hkeyAmp hkey]
      exact ih fun q hq => hps q (List.mem_cons_of_mem p hq)

/-! ### The URL and the bytes -/

/-- `secret=` and its `&` do not meet. -/
theorem amp_notMem_secret : (0x26 : UInt8) ∉ ascii "secret" := by decide

/-- What becomes of the value that `query_param` returns. -/
theorem t3UrlParse_of_value {url : CStr} {query value : Bytes} (mallocs : ℕ)
    (hurl : url.bytes = URL_PREFIX ++ query)
    (hvalue : queryParam query (ascii "secret") = some value) :
    t3UrlParse (some url) (mallocs + 2) =
      if value.length < 36 ∨ value.length % 2 = 1 then .error .malformed
      else
        match hexDecode value (value.length / 2) with
        | none => .error .malformed
        | some bin => t3SecretParseBlocks (some bin) (value.length / 2) mallocs := by
  simp only [t3UrlParse, hurl, List.drop_left, hvalue]
  rfl

/-- **A URL gives what its secret would give.**  The other parameters change nothing, and a value
that spells no secret of 18 bytes or more is malformed. -/
theorem t3UrlParse_agrees (url : CStr) (before after : List Bytes) (value : Bytes) (mallocs : ℕ)
    (hurl : url.bytes = URL_PREFIX ++
      [0x26].intercalate (before ++ (ascii "secret" ++ 0x3D :: value) :: after))
    (hbefore : ∀ p ∈ before, (0x26 : UInt8) ∉ p ∧ ¬ ascii "secret" ++ [0x3D] <+: p)
    (hvalue : (0x26 : UInt8) ∉ value) :
    (∀ b : Bytes, 18 ≤ b.length → SpellsHex value b →
        t3UrlParse (some url) (mallocs + 2) = t3SecretParseBlocks (some b) b.length mallocs) ∧
      ((¬ ∃ b : Bytes, 18 ≤ b.length ∧ SpellsHex value b) →
        t3UrlParse (some url) (mallocs + 2) = .error .malformed) := by
  have hparse := t3UrlParse_of_value mallocs hurl
    (queryParam_first amp_notMem_secret hbefore hvalue)
  have hdecode (heven : value.length % 2 = 0) (bs : Bytes) :
      hexDecode value (value.length / 2) = some bs ↔ SpellsHex value bs := by
    rw [hexDecode, if_neg (by omega), hexDecodePairs_iff heven]
  constructor
  · intro b hlen hspells
    have hvalueLen := hspells.length_eq
    rw [hparse, if_neg (by omega), (hdecode (by omega) b).mpr hspells]
    simp only [hvalueLen, Nat.mul_div_cancel _ (by decide : 0 < 2)]
  · intro hno
    rw [hparse]
    by_cases hbad : value.length < 36 ∨ value.length % 2 = 1
    · rw [if_pos hbad]
    · rw [if_neg hbad]
      cases hbin : hexDecode value (value.length / 2) with
      | none => rfl
      | some b =>
        have hspells := (hdecode (by omega) b).mp hbin
        have hvalueLen := hspells.length_eq
        exact absurd ⟨b, by omega, hspells⟩ hno

/-- **A URL without a secret is malformed.** -/
theorem t3UrlParse_without (url : CStr) (ps : List Bytes) (mallocs : ℕ)
    (hurl : url.bytes = URL_PREFIX ++ [0x26].intercalate ps)
    (hps : ∀ p ∈ ps, (0x26 : UInt8) ∉ p ∧ ¬ ascii "secret" ++ [0x3D] <+: p) :
    t3UrlParse (some url) mallocs = .error .malformed := by
  simp only [t3UrlParse, hurl, List.drop_left, queryParam_none amp_notMem_secret hps]
  rfl

/-- The hexadecimal digits of the secret of `a`. -/
def sampleHex : Bytes := ascii "Ff0707070707070707070707070707070761"

/-- The query of a URL with that secret. -/
def sampleQuery : Bytes :=
  [0x26].intercalate ([ascii "a=b"] ++ (ascii "secret" ++ 0x3D :: sampleHex) :: [ascii "c"])

theorem sampleQuery_no_zero : (0 : UInt8) ∉ URL_PREFIX ++ sampleQuery := by decide

/-- A URL with parameters on both sides of the secret. -/
theorem t3UrlParse_agrees_sample :
    t3UrlParse (some ⟨URL_PREFIX ++ sampleQuery, sampleQuery_no_zero⟩) 9 =
      t3SecretParseBlocks (some (secretOf (ascii "a"))) 18 7 := by
  have hspells : SpellsHex sampleHex (secretOf (ascii "a")) :=
    (hexDecodePairs_iff (by decide)).mp (by decide)
  exact (t3UrlParse_agrees ⟨URL_PREFIX ++ sampleQuery, sampleQuery_no_zero⟩ [ascii "a=b"]
    [ascii "c"] sampleHex 7 rfl (by decide) (by decide)).1 _ (by decide) hspells

end Wire
end Teleproto3
