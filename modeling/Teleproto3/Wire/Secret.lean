/-
# The secret

`lib/src/t3_secret.c`: the marker `0xFF`, sixteen bytes of key, and a domain, which is a host and
a path.  `t3_secret_parse` takes a secret apart, a query and a fragment in the path included, and
`t3_secret_serialise` puts one together from a host and a path that are checked first.

What the parser accepts is UTF-8 without control bytes, and nothing else of that shape is refused
(`t3SecretParse_iff`).  The check of a path is weaker than that: `t3SecretSerialise_roundTrips_iff`
says which secrets come back as they were put together.
-/

import Teleproto3.Lib.CString
import Teleproto3.Lib.Utf8
import Teleproto3.Wire.Result

namespace Teleproto3
namespace Wire

open Lib

/-! ### The parser -/

/-- `struct t3_secret`. -/
structure T3Secret where
  key : Bytes
  domain : Bytes
  host : Bytes
  path : Bytes
  query : Bytes
  fragment : Bytes
  deriving DecidableEq, Repr

/-- `validate_utf8_and_controls`. -/
def validateUtf8AndControls : Bytes → Bool
  | [] => true
  | b :: buf =>
    if b ≤ 0x1F ∨ b = 0x7F then false
    else if b ≤ 0x7F then validateUtf8AndControls buf
    else if b ≤ 0xC1 then false
    else if b ≤ 0xDF then
      match buf with
      | b2 :: buf => if b2 &&& 0xC0 ≠ 0x80 then false else validateUtf8AndControls buf
      | _ => false
    else if b ≤ 0xEF then
      match buf with
      | b2 :: b3 :: buf =>
        if b2 &&& 0xC0 ≠ 0x80 ∨ b3 &&& 0xC0 ≠ 0x80 then false
        else if b = 0xE0 ∧ b2 < 0xA0 then false
        else if b = 0xED ∧ b2 ≥ 0xA0 then false
        else validateUtf8AndControls buf
      | _ => false
    else if b ≤ 0xF4 then
      match buf with
      | b2 :: b3 :: b4 :: buf =>
        if b2 &&& 0xC0 ≠ 0x80 ∨ b3 &&& 0xC0 ≠ 0x80 ∨ b4 &&& 0xC0 ≠ 0x80 then false
        else if b = 0xF0 ∧ b2 < 0x90 then false
        else if b = 0xF4 ∧ b2 > 0x8F then false
        else validateUtf8AndControls buf
      | _ => false
    else false

/-- `memchr`: where the first such byte stands. -/
def memchr (buf : Bytes) (b : UInt8) : Option ℕ := buf.findIdx? (· = b)

/-- The first `?` or `#`. -/
def firstSpecial (buf : Bytes) : Option ℕ :=
  match memchr buf 0x3F, memchr buf 0x23 with
  | some q, some f => some (if q < f then q else f)
  | some q, none => some q
  | none, f => f

/-- The query and the fragment of what begins with a `?` or a `#`. -/
def splitSuffix (suffix : Bytes) : Bytes × Bytes :=
  match memchr suffix 0x3F, memchr suffix 0x23 with
  | some q, some f =>
    if f > q then ((suffix.drop (q + 1)).take (f - (q + 1)), suffix.drop (f + 1))
    else ([], suffix.drop (f + 1))
  | some q, none => (suffix.drop (q + 1), [])
  | none, some f => ([], suffix.drop (f + 1))
  | none, none => ([], [])

/-- A call of `malloc` or `calloc`, where so many more succeed. -/
def takeBlock : ℕ → Except T3Result ℕ
  | 0 => .error .internal
  | mallocs + 1 => .ok mallocs

/-- Where the path begins. -/
def slashAt (domain : Bytes) : ℕ := (memchr domain 0x2F).getD domain.length

/-- The part of the parser that takes a domain apart. -/
def splitDomain (key domain : Bytes) (mallocs : ℕ) : Except T3Result T3Secret := do
  let mallocs ← takeBlock mallocs
  let mallocs ← takeBlock mallocs
  let host := domain.take (slashAt domain)
  let mallocs ← takeBlock mallocs
  let path := domain.drop (slashAt domain)
  let mallocs ← takeBlock mallocs
  match firstSpecial host, firstSpecial path with
  | some k, _ =>
    let mallocs ← takeBlock mallocs
    let (query, fragment) := splitSuffix (domain.drop k)
    let mallocs ← takeBlock mallocs
    let _ ← takeBlock mallocs
    .ok ⟨key, domain, host.take k, [], query, fragment⟩
  | none, some k =>
    let (query, fragment) := splitSuffix (domain.drop (slashAt domain + k))
    let mallocs ← takeBlock mallocs
    let _ ← takeBlock mallocs
    .ok ⟨key, domain, host, path.take k, query, fragment⟩
  | none, none =>
    let mallocs ← takeBlock mallocs
    let _ ← takeBlock mallocs
    .ok ⟨key, domain, host, path, [], []⟩

/-- `t3_secret_parse` on `len` bytes, where so many calls of `malloc` succeed. -/
def t3SecretParse (buf : Option Bytes) (len mallocs : ℕ) : Except T3Result T3Secret :=
  match buf with
  | none => if len > 0 then .error .invalidArg else .error .malformed
  | some buf =>
    if len < 18 then .error .malformed
    else if buf.getD 0 0 ≠ 0xFF then .error .malformed
    else if len - 17 > 512 then .error .malformed
    else
      let domain := (buf.drop 17).take (len - 17)
      if domain.getD 0 0 = 0x2F then .error .malformed
      else if validateUtf8AndControls domain = false then .error .malformed
      else splitDomain ((buf.drop 1).take 16) domain mallocs

/-! ### The producer -/

/-- A string of C: no zero byte before its end. -/
structure CStr where
  bytes : Bytes
  no_zero : (0 : UInt8) ∉ bytes

/-- `t3_secret_fields`. -/
structure T3SecretFields where
  key : Bytes
  host : Option CStr
  path : Option CStr
  key_length : key.length = 16

/-- Whether a byte may stand in a label. -/
def IsLabelByte (c : UInt8) : Prop :=
  0x61 ≤ c ∧ c ≤ 0x7A ∨ 0x41 ≤ c ∧ c ≤ 0x5A ∨ 0x30 ≤ c ∧ c ≤ 0x39 ∨ c = 0x2D

instance (c : UInt8) : Decidable (IsLabelByte c) := by
  unfold IsLabelByte
  infer_instance

/-- The loop over the labels of a host: how many bytes came before, how many of them in this
label, and the last one. -/
def validateLabels : ℕ → ℕ → UInt8 → Bytes → T3Result
  | _, labelLen, prev, [] => if labelLen = 0 ∨ prev = 0x2D then .hostInvalid else .ok
  | total, labelLen, prev, c :: p =>
    if total + 1 > 253 then .hostInvalid
    else if c = 0x2E then
      if labelLen = 0 ∨ labelLen > 63 ∨ prev = 0x2D then .hostInvalid
      else validateLabels (total + 1) 0 c p
    else if labelLen = 0 ∧ c = 0x2D then .hostInvalid
    else if ¬ IsLabelByte c then .hostInvalid
    else if labelLen + 1 > 63 then .hostInvalid
    else validateLabels (total + 1) (labelLen + 1) c p

/-- `t3_secret_validate_host`. -/
def t3SecretValidateHost (host : Option CStr) : T3Result :=
  match host with
  | none => .hostEmpty
  | some host =>
    if host.bytes = [] then .hostEmpty
    else if ∃ c ∈ host.bytes, c > 0x7F then .hostNonAscii
    else validateLabels 0 0 0 host.bytes

/-- The first loop over a path. -/
def validatePathBytes : Bytes → T3Result
  | [] => .ok
  | c :: p =>
    if c > 0x7F then .pathNonAscii
    else if c = 0x25 then .pathPercentEncoded
    else validatePathBytes p

/-- Whether two slashes stand side by side. -/
def hasEmptySegment : Bytes → Bool
  | a :: b :: p => (a = 0x2F ∧ b = 0x2F) || hasEmptySegment (b :: p)
  | _ => false

/-- `t3_secret_validate_path`. -/
def t3SecretValidatePath (path : Option CStr) : T3Result :=
  match path with
  | none => .ok
  | some path =>
    if path.bytes = [] then .ok
    else if path.bytes.getD 0 0 ≠ 0x2F then .pathMissingLeadingSlash
    else if validatePathBytes path.bytes ≠ .ok then validatePathBytes path.bytes
    else if hasEmptySegment path.bytes then .pathEmptySegment
    else if path.bytes.length > 1 ∧ path.bytes.getD (path.bytes.length - 1) 0 = 0x2F then
      .pathTrailingSlash
    else .ok

namespace T3SecretFields

/-- The host, and nothing where there is none. -/
def hostBytes (f : T3SecretFields) : Bytes := (f.host.map CStr.bytes).getD []

/-- The path, and nothing where there is none. -/
def pathBytes (f : T3SecretFields) : Bytes := (f.path.map CStr.bytes).getD []

end T3SecretFields

/-- `t3_secret_serialise`, given whether there is a buffer and its size: the result, the bytes
written, and the length put out. -/
def t3SecretSerialise (f : T3SecretFields) (out : Bool) (len : ℕ) : T3Result × Bytes × ℕ :=
  if t3SecretValidateHost f.host ≠ .ok then (t3SecretValidateHost f.host, [], len)
  else if t3SecretValidatePath f.path ≠ .ok then (t3SecretValidatePath f.path, [], len)
  else if f.key = List.replicate 16 0 then (.keyInvalid, [], len)
  else
    let domainLen := f.hostBytes.length + f.pathBytes.length
    if domainLen > 512 then (.invalidArg, [], len)
    else
      let required := 1 + 16 + domainLen
      if out = false ∨ len < required then (.bufTooSmall, [], required)
      else (.ok, [0xFF] ++ f.key ++ f.hostBytes ++ f.pathBytes, required)

/-! ### What the parser accepts -/

/-- A control byte, or `DEL`. -/
def IsControl (b : UInt8) : Prop := b.toNat ≤ 0x1F ∨ b.toNat = 0x7F

instance (b : UInt8) : Decidable (IsControl b) := by
  unfold IsControl
  infer_instance

/-- Well-formed UTF-8 without control bytes. -/
structure IsCleanText (bs : Bytes) : Prop where
  utf8 : IsUtf8 bs
  clean : ∀ b ∈ bs, ¬ IsControl b

theorem isTail_iff (b : UInt8) : b &&& 0xC0 = 0x80 ↔ IsTail b := by
  have hall : ∀ n : Fin 256, UInt8.ofFin n &&& 0xC0 = 0x80 ↔ 0x80 ≤ n.val ∧ n.val ≤ 0xBF := by
    decide +kernel
  exact hall b.toFin

/-- **Clean text, one character after the other.** -/
theorem isCleanText_cons_iff {a : UInt8} {bs : Bytes} :
    IsCleanText (a :: bs) ↔ ¬ IsControl a ∧
      ∃ t rest, bs = t ++ rest ∧ IsCharBytes (a :: t) ∧ IsCleanText rest := by
  constructor
  · rintro ⟨hutf8, hclean⟩
    obtain ⟨t, rest, rfl, hc, hrest⟩ := isUtf8_cons_iff.mp hutf8
    refine ⟨hclean a List.mem_cons_self, t, rest, rfl, hc, hrest, fun b hb => ?_⟩
    exact hclean b (List.mem_cons_of_mem a (List.mem_append_right t hb))
  · rintro ⟨ha, t, rest, rfl, hc, hrest⟩
    refine ⟨isUtf8_cons_iff.mpr ⟨t, rest, rfl, hc, hrest.utf8⟩, fun b hb => ?_⟩
    rcases List.mem_cons.mp hb with rfl | hb
    · exact ha
    rcases List.mem_append.mp hb with hb | hb
    · have htail := hc.isTail b hb
      unfold IsTail at htail
      unfold IsControl
      omega
    · exact hrest.clean b hb

/-- A character of two bytes. -/
theorem validateTwo_iff (buf : Bytes) :
    (match buf with
      | b2 :: buf => if b2 &&& 0xC0 ≠ 0x80 then false else validateUtf8AndControls buf
      | _ => false) = true ↔
    ∃ t rest, buf = t ++ rest ∧ (∃ c, t = [c] ∧ IsTail c) ∧
      validateUtf8AndControls rest = true := by
  match buf with
  | [] => simp
  | b2 :: buf =>
    simp only [ne_eq, isTail_iff]
    constructor
    · intro h
      split_ifs at h with htail
      exact ⟨[b2], buf, rfl, ⟨b2, rfl, by simpa using htail⟩, h⟩
    · rintro ⟨_, rest, heq, ⟨c, rfl, hc⟩, hrest⟩
      obtain ⟨rfl, rfl⟩ := List.cons.inj heq
      rw [if_neg (not_not.mpr hc)]
      exact hrest

/-- A character of three. -/
theorem validateThree_iff (b : UInt8) (buf : Bytes) :
    (match buf with
      | b2 :: b3 :: buf =>
        if b2 &&& 0xC0 ≠ 0x80 ∨ b3 &&& 0xC0 ≠ 0x80 then false
        else if b = 0xE0 ∧ b2 < 0xA0 then false
        else if b = 0xED ∧ b2 ≥ 0xA0 then false
        else validateUtf8AndControls buf
      | _ => false) = true ↔
    ∃ t rest, buf = t ++ rest ∧ (∃ c d, t = [c, d] ∧ (b.toNat = 0xE0 → 0xA0 ≤ c.toNat) ∧
      (b.toNat = 0xED → c.toNat ≤ 0x9F) ∧ IsTail c ∧ IsTail d) ∧
      validateUtf8AndControls rest = true := by
  match buf with
  | [] => simp
  | [b2] => simp
  | b2 :: b3 :: buf =>
    simp only [ne_eq, isTail_iff]
    simp only [ge_iff_le, UInt8.le_iff_toNat_le, UInt8.lt_iff_toNat_lt, ← UInt8.toNat_inj,
      UInt8.reduceToNat]
    constructor
    · intro h
      split_ifs at h with htail hover hsurrogate
      refine ⟨[b2, b3], buf, rfl, ⟨b2, b3, rfl, ?_, ?_, ?_⟩, h⟩
      · omega
      · omega
      · simpa only [not_or, not_not] using htail
    · rintro ⟨_, rest, heq, ⟨c, d, rfl, hover, hsurrogate, hc, hd⟩, hrest⟩
      obtain ⟨rfl, rfl, rfl⟩ : b2 = c ∧ b3 = d ∧ buf = rest := by simpa using heq
      rw [if_neg (by simp only [hc, hd, not_true_eq_false, or_self, not_false_eq_true]),
        if_neg (by omega), if_neg (by omega)]
      exact hrest

/-- A character of four. -/
theorem validateFour_iff (b : UInt8) (buf : Bytes) :
    (match buf with
      | b2 :: b3 :: b4 :: buf =>
        if b2 &&& 0xC0 ≠ 0x80 ∨ b3 &&& 0xC0 ≠ 0x80 ∨ b4 &&& 0xC0 ≠ 0x80 then false
        else if b = 0xF0 ∧ b2 < 0x90 then false
        else if b = 0xF4 ∧ b2 > 0x8F then false
        else validateUtf8AndControls buf
      | _ => false) = true ↔
    ∃ t rest, buf = t ++ rest ∧ (∃ c d e, t = [c, d, e] ∧ (b.toNat = 0xF0 → 0x90 ≤ c.toNat) ∧
      (b.toNat = 0xF4 → c.toNat ≤ 0x8F) ∧ IsTail c ∧ IsTail d ∧ IsTail e) ∧
      validateUtf8AndControls rest = true := by
  match buf with
  | [] => simp
  | [b2] => simp
  | [b2, b3] => simp
  | b2 :: b3 :: b4 :: buf =>
    simp only [ne_eq, isTail_iff]
    simp only [gt_iff_lt, UInt8.lt_iff_toNat_lt, ← UInt8.toNat_inj, UInt8.reduceToNat]
    constructor
    · intro h
      split_ifs at h with htail hover hrange
      refine ⟨[b2, b3, b4], buf, rfl, ⟨b2, b3, b4, rfl, ?_, ?_, ?_⟩, h⟩
      · omega
      · omega
      · simpa only [not_or, not_not] using htail
    · rintro ⟨_, rest, heq, ⟨c, d, e, rfl, hover, hrange, hc, hd, he⟩, hrest⟩
      obtain ⟨rfl, rfl, rfl, rfl⟩ : b2 = c ∧ b3 = d ∧ b4 = e ∧ buf = rest := by simpa using heq
      rw [if_neg (by simp only [hc, hd, he, not_true_eq_false, or_self, not_false_eq_true]),
        if_neg (by omega), if_neg (by omega)]
      exact hrest

/-- What one turn of the scanner finds: no control byte, and the bytes of a character. -/
theorem validateUtf8AndControls_cons_iff (b : UInt8) (buf : Bytes) :
    validateUtf8AndControls (b :: buf) = true ↔ ¬ IsControl b ∧
      ∃ t rest, buf = t ++ rest ∧ IsCharBytes (b :: t) ∧ validateUtf8AndControls rest = true := by
  have hrange : ∀ n : UInt8, b ≤ n ↔ b.toNat ≤ n.toNat := fun n => UInt8.le_iff_toNat_le
  have hcontrol : (b ≤ 0x1F ∨ b = 0x7F) ↔ IsControl b := by
    simp only [hrange, ← UInt8.toNat_inj]
    exact Iff.rfl
  conv_lhs => unfold validateUtf8AndControls
  by_cases hb : IsControl b
  · rw [if_pos (hcontrol.mpr hb)]
    exact ⟨fun h => (nomatch h), fun h => absurd hb h.1⟩
  rw [if_neg (mt hcontrol.mp hb)]
  simp only [hb, not_false_eq_true, true_and]
  by_cases h1 : b.toNat ≤ 0x7F
  · rw [if_pos ((hrange 0x7F).mpr h1)]
    simp only [isCharBytes_one h1]
    exact ⟨fun h => ⟨[], buf, rfl, rfl, h⟩, fun ⟨_, _, heq, ht, h⟩ => by rw [heq, ht]; exact h⟩
  rw [if_neg (mt (hrange 0x7F).mp h1)]
  by_cases hlone : b.toNat ≤ 0xC1
  · rw [if_pos ((hrange 0xC1).mpr hlone)]
    refine ⟨fun h => (nomatch h), fun ⟨_, _, _, hc, _⟩ => ?_⟩
    exact absurd hc (not_isCharBytes (Or.inl ⟨by omega, hlone⟩))
  rw [if_neg (mt (hrange 0xC1).mp hlone)]
  by_cases h2 : b.toNat ≤ 0xDF
  · rw [if_pos ((hrange 0xDF).mpr h2)]
    simp only [isCharBytes_two ⟨by omega, h2⟩]
    exact validateTwo_iff buf
  rw [if_neg (mt (hrange 0xDF).mp h2)]
  by_cases h3 : b.toNat ≤ 0xEF
  · rw [if_pos ((hrange 0xEF).mpr h3)]
    simp only [isCharBytes_three ⟨by omega, h3⟩]
    exact validateThree_iff b buf
  rw [if_neg (mt (hrange 0xEF).mp h3)]
  by_cases h4 : b.toNat ≤ 0xF4
  · rw [if_pos ((hrange 0xF4).mpr h4)]
    simp only [isCharBytes_four ⟨by omega, h4⟩]
    exact validateFour_iff b buf
  · rw [if_neg (mt (hrange 0xF4).mp h4)]
    refine ⟨fun h => (nomatch h), fun ⟨_, _, _, hc, _⟩ => ?_⟩
    exact absurd hc (not_isCharBytes (Or.inr (by omega)))

/-- **The scanner accepts clean text, and nothing else.** -/
theorem validateUtf8AndControls_iff (buf : Bytes) :
    validateUtf8AndControls buf = true ↔ IsCleanText buf := by
  induction hn : buf.length using Nat.strong_induction_on generalizing buf with
  | _ n ih =>
    cases buf with
    | nil => exact ⟨fun _ => ⟨isUtf8_nil, fun b hb => (nomatch hb)⟩, fun _ => rfl⟩
    | cons b buf =>
      rw [validateUtf8AndControls_cons_iff, isCleanText_cons_iff]
      refine and_congr_right fun _ => exists_congr fun t => exists_congr fun rest => ?_
      refine and_congr_right fun heq => and_congr_right fun _ => ?_
      refine ih rest.length ?_ rest rfl
      rw [← hn, heq, List.length_cons, List.length_append]
      omega

/-- A domain with a query or a fragment in its host. -/
theorem splitDomain_of_host (key : Bytes) {domain : Bytes} {k : ℕ} (n : ℕ)
    (h : firstSpecial (domain.take (slashAt domain)) = some k) :
    splitDomain key domain (n + 7) = .ok ⟨key, domain, (domain.take (slashAt domain)).take k, [],
      (splitSuffix (domain.drop k)).1, (splitSuffix (domain.drop k)).2⟩ := by
  simp only [splitDomain, h]
  rfl

/-- A domain with one in its path. -/
theorem splitDomain_of_path (key : Bytes) {domain : Bytes} {k : ℕ} (n : ℕ)
    (hhost : firstSpecial (domain.take (slashAt domain)) = none)
    (hpath : firstSpecial (domain.drop (slashAt domain)) = some k) :
    splitDomain key domain (n + 7) = .ok ⟨key, domain, domain.take (slashAt domain),
      (domain.drop (slashAt domain)).take k, (splitSuffix (domain.drop (slashAt domain + k))).1,
      (splitSuffix (domain.drop (slashAt domain + k))).2⟩ := by
  simp only [splitDomain, hhost, hpath]
  rfl

/-- A domain with neither. -/
theorem splitDomain_of_none (key : Bytes) {domain : Bytes} (n : ℕ)
    (hhost : firstSpecial (domain.take (slashAt domain)) = none)
    (hpath : firstSpecial (domain.drop (slashAt domain)) = none) :
    splitDomain key domain (n + 7) = .ok ⟨key, domain, domain.take (slashAt domain),
      domain.drop (slashAt domain), [], []⟩ := by
  simp only [splitDomain, hhost, hpath]
  rfl

/-- **Seven blocks are enough** to take a domain apart. -/
theorem splitDomain_ok (key domain : Bytes) {mallocs : ℕ} (h : 7 ≤ mallocs) :
    ∃ s, splitDomain key domain mallocs = .ok s := by
  obtain ⟨n, rfl⟩ := Nat.exists_eq_add_of_le' h
  cases hhost : firstSpecial (domain.take (slashAt domain)) with
  | some k => exact ⟨_, splitDomain_of_host key n hhost⟩
  | none =>
    cases hpath : firstSpecial (domain.drop (slashAt domain)) with
    | some k => exact ⟨_, splitDomain_of_path key n hhost hpath⟩
    | none => exact ⟨_, splitDomain_of_none key n hhost hpath⟩

/-- **The grammar of a secret.** -/
structure IsSecret (buf : Bytes) : Prop where
  length : 18 ≤ buf.length ∧ buf.length ≤ 529
  marker : buf.getD 0 0 = 0xFF
  host : buf.getD 17 0 ≠ 0x2F
  text : IsCleanText (buf.drop 17)

/-- What is not a secret is malformed, and a secret is taken apart. -/
theorem t3SecretParse_eq (buf : Bytes) (mallocs : ℕ) :
    IsSecret buf ∧ t3SecretParse (some buf) buf.length mallocs =
        splitDomain ((buf.drop 1).take 16) (buf.drop 17) mallocs ∨
      ¬ IsSecret buf ∧ t3SecretParse (some buf) buf.length mallocs = .error .malformed := by
  have hdomain : (buf.drop 17).take (buf.length - 17) = buf.drop 17 := by
    rw [← List.length_drop, List.take_length]
  have hfirst : (buf.drop 17).getD 0 0 = buf.getD 17 0 := by
    simp [List.getD_eq_getElem?_getD]
  simp only [t3SecretParse, hdomain, hfirst]
  split_ifs with hshort hmarker hlong hslash htext
  · exact Or.inr ⟨fun h => absurd h.length.1 (by omega), rfl⟩
  · exact Or.inr ⟨fun h => hmarker h.marker, rfl⟩
  · exact Or.inr ⟨fun h => absurd h.length.2 (by omega), rfl⟩
  · exact Or.inr ⟨fun h => h.host hslash, rfl⟩
  · refine Or.inr ⟨fun h => ?_, rfl⟩
    exact nomatch ((validateUtf8AndControls_iff _).mpr h.text).symm.trans htext
  · refine Or.inl ⟨⟨by omega, not_not.mp hmarker, hslash, ?_⟩, rfl⟩
    exact (validateUtf8AndControls_iff _).mp (by simpa using htext)

/-- **The parser accepts exactly the secrets**, where there is memory for one; all else is
malformed. -/
theorem t3SecretParse_iff (buf : Bytes) (mallocs : ℕ) (hmallocs : 7 ≤ mallocs) :
    ((∃ s, t3SecretParse (some buf) buf.length mallocs = .ok s) ↔ IsSecret buf) ∧
      ∀ e, t3SecretParse (some buf) buf.length mallocs = .error e → e = .malformed := by
  rcases t3SecretParse_eq buf mallocs with ⟨hsecret, heq⟩ | ⟨hsecret, heq⟩
  · obtain ⟨s, hs⟩ := splitDomain_ok ((buf.drop 1).take 16) (buf.drop 17) hmallocs
    rw [heq, hs]
    exact ⟨⟨fun _ => hsecret, fun _ => ⟨s, rfl⟩⟩, fun e he => (nomatch he)⟩
  · rw [heq]
    exact ⟨⟨fun ⟨s, hs⟩ => (nomatch hs), fun h => absurd h hsecret⟩, fun e he =>
      (Except.error.inj he).symm⟩

/-- A secret with the host `é`. -/
theorem t3SecretParse_iff_accent :
    ((∃ s, t3SecretParse (some (0xFF :: List.replicate 16 7 ++ [0xC3, 0xA9])) 19 7 = .ok s) ↔
        IsSecret (0xFF :: List.replicate 16 7 ++ [0xC3, 0xA9])) ∧
      ∀ e, t3SecretParse (some (0xFF :: List.replicate 16 7 ++ [0xC3, 0xA9])) 19 7 = .error e →
        e = .malformed :=
  t3SecretParse_iff _ 7 (le_refl 7)

/-! ### What comes back -/

/-- A byte of a host. -/
def IsHostByte (c : UInt8) : Prop := c = 0x2E ∨ IsLabelByte c

/-- The bytes of a host are printed ASCII, and none of them takes a domain apart. -/
theorem IsHostByte.plain {c : UInt8} (h : IsHostByte c) :
    ¬ IsControl c ∧ c.toNat ≤ 0x7F ∧ c ≠ 0x2F ∧ c ≠ 0x3F ∧ c ≠ 0x23 := by
  unfold IsHostByte IsLabelByte at h
  unfold IsControl
  simp only [UInt8.le_iff_toNat_le, ne_eq, ← UInt8.toNat_inj, UInt8.reduceToNat] at h ⊢
  omega

/-- **A label is letters, digits and hyphens**, with dots between one and the next. -/
theorem validateLabels_ok {total labelLen : ℕ} {prev : UInt8} {p : Bytes}
    (h : validateLabels total labelLen prev p = .ok) : ∀ c ∈ p, IsHostByte c := by
  induction p generalizing total labelLen prev with
  | nil => exact fun c hc => (nomatch hc)
  | cons a p ih =>
    unfold validateLabels at h
    intro c hc
    rcases List.mem_cons.mp hc with rfl | hc
    · split_ifs at h with _ hdot _ _ hlabel _
      · exact Or.inl hdot
      · exact Or.inr hlabel
    · split_ifs at h
      · exact ih h c hc
      · exact ih h c hc

/-- What a host that is accepted looks like. -/
theorem t3SecretValidateHost_ok {host : Option CStr} (h : t3SecretValidateHost host = .ok) :
    (host.map CStr.bytes).getD [] ≠ [] ∧ ∀ c ∈ (host.map CStr.bytes).getD [], IsHostByte c := by
  cases host with
  | none => exact nomatch h
  | some host =>
    simp only [t3SecretValidateHost] at h
    split_ifs at h with hempty hascii
    exact ⟨hempty, validateLabels_ok h⟩

/-- The first loop over a path lets ASCII through. -/
theorem validatePathBytes_ok {p : Bytes} (h : validatePathBytes p = .ok) :
    ∀ c ∈ p, c.toNat ≤ 0x7F := by
  induction p with
  | nil => exact fun c hc => (nomatch hc)
  | cons a p ih =>
    unfold validatePathBytes at h
    split_ifs at h with hascii
    intro c hc
    rcases List.mem_cons.mp hc with rfl | hc
    · simpa [UInt8.lt_iff_toNat_lt] using hascii
    · exact ih h c hc

/-- What a path that is accepted looks like. -/
theorem t3SecretValidatePath_ok {path : Option CStr} (h : t3SecretValidatePath path = .ok) :
    ((path.map CStr.bytes).getD [] = [] ∨ ((path.map CStr.bytes).getD []).head? = some 0x2F) ∧
      ∀ c ∈ (path.map CStr.bytes).getD [], c.toNat ≤ 0x7F := by
  cases path with
  | none => exact ⟨Or.inl rfl, fun c hc => (nomatch hc)⟩
  | some path =>
    show (path.bytes = [] ∨ path.bytes.head? = some 0x2F) ∧ ∀ c ∈ path.bytes, c.toNat ≤ 0x7F
    cases hbytes : path.bytes with
    | nil => exact ⟨Or.inl rfl, fun c hc => (nomatch hc)⟩
    | cons a p =>
      simp only [t3SecretValidatePath, hbytes, reduceCtorEq, if_false] at h
      split_ifs at h with hslash hloop
      · exact absurd h hloop
      · constructor
        · exact Or.inr (congrArg some (by simpa using hslash))
        · exact validatePathBytes_ok (not_not.mp hloop)

/-- **What is put together**: a marker, the key, a host of plain bytes, and a path. -/
structure IsPutTogether (f : T3SecretFields) (bytes : Bytes) : Prop where
  bytes_eq : bytes = [0xFF] ++ f.key ++ f.hostBytes ++ f.pathBytes
  length_le : f.hostBytes.length + f.pathBytes.length ≤ 512
  host_ne : f.hostBytes ≠ []
  host_plain : ∀ c ∈ f.hostBytes, IsHostByte c
  path_slash : f.pathBytes = [] ∨ f.pathBytes.head? = some 0x2F
  path_ascii : ∀ c ∈ f.pathBytes, c.toNat ≤ 0x7F

theorem t3SecretSerialise_ok {f : T3SecretFields} {out : Bool} {len n : ℕ} {bytes : Bytes}
    (h : t3SecretSerialise f out len = (.ok, bytes, n)) : IsPutTogether f bytes := by
  unfold t3SecretSerialise at h
  split_ifs at h with hhost hpath hkey
  · exact absurd (congrArg Prod.fst h) hhost
  · exact absurd (congrArg Prod.fst h) hpath
  · exact nomatch h
  dsimp only at h
  split_ifs at h with hlong hsmall
  · exact nomatch h
  · exact nomatch h
  obtain ⟨hne, hplain⟩ := t3SecretValidateHost_ok (not_not.mp hhost)
  obtain ⟨hslash, hascii⟩ := t3SecretValidatePath_ok (not_not.mp hpath)
  exact ⟨(congrArg (fun r => r.2.1) h).symm, not_lt.mp hlong, hne, hplain, hslash, hascii⟩

theorem memchr_eq_none {buf : Bytes} {b : UInt8} : memchr buf b = none ↔ b ∉ buf := by
  simp only [memchr, List.findIdx?_eq_none_iff, decide_eq_false_iff_not]
  constructor
  · exact fun h hb => h b hb rfl
  · rintro h c hc rfl
    exact h hc

/-- The byte that ends a stretch without it. -/
theorem memchr_append_cons {p : Bytes} {b : UInt8} (h : b ∉ p) (rest : Bytes) :
    memchr (p ++ b :: rest) b = some p.length := by
  have hp : p.findIdx? (fun c => decide (c = b)) = none := memchr_eq_none.mpr h
  simp [memchr, List.findIdx?_append, hp, List.findIdx?_cons]

theorem firstSpecial_eq_none {buf : Bytes} :
    firstSpecial buf = none ↔ 0x3F ∉ buf ∧ 0x23 ∉ buf := by
  rw [← memchr_eq_none, ← memchr_eq_none]
  unfold firstSpecial
  cases memchr buf 0x3F with
  | none => simp
  | some q => cases memchr buf 0x23 <;> simp

/-- Where one stands, something is cut off. -/
theorem firstSpecial_lt {buf : Bytes} {k : ℕ} (h : firstSpecial buf = some k) :
    k < buf.length := by
  have hlt {b : UInt8} {i : ℕ} (hi : memchr buf b = some i) : i < buf.length :=
    (List.findIdx?_eq_some_iff_getElem.mp hi).1
  unfold firstSpecial at h
  cases hq : memchr buf 0x3F with
  | none => exact hlt (by simpa [hq] using h)
  | some q =>
    cases hf : memchr buf 0x23 with
    | none =>
      obtain rfl : q = k := by simpa [hq, hf] using h
      exact hlt hq
    | some f =>
      simp only [hq, hf, Option.some.injEq] at h
      split_ifs at h
      · exact h ▸ hlt hq
      · exact h ▸ hlt hf

/-- The path begins where the host ends. -/
theorem slashAt_append {host path : Bytes} (hhost : (0x2F : UInt8) ∉ host)
    (hpath : path = [] ∨ path.head? = some 0x2F) : slashAt (host ++ path) = host.length := by
  unfold slashAt
  rcases hpath with rfl | hpath
  · rw [List.append_nil, memchr_eq_none.mpr hhost]
    rfl
  · obtain ⟨rest, rfl⟩ := List.head?_eq_some_iff.mp hpath
    rw [memchr_append_cons hhost]
    rfl

/-- ASCII without control bytes is clean text. -/
theorem isCleanText_of_ascii {bs : Bytes} (h : ∀ b ∈ bs, ¬ IsControl b ∧ b.toNat ≤ 0x7F) :
    IsCleanText bs := by
  induction bs with
  | nil => exact ⟨isUtf8_nil, fun b hb => (nomatch hb)⟩
  | cons a bs ih =>
    obtain ⟨hcontrol, hascii⟩ := h a List.mem_cons_self
    refine isCleanText_cons_iff.mpr ⟨hcontrol, [], bs, rfl, (isCharBytes_one hascii).mpr rfl, ?_⟩
    exact ih fun b hb => h b (List.mem_cons_of_mem a hb)

namespace IsPutTogether

variable {f : T3SecretFields} {bytes : Bytes}

theorem length_eq (h : IsPutTogether f bytes) :
    bytes.length = 17 + f.hostBytes.length + f.pathBytes.length := by
  rw [h.bytes_eq]
  simp only [List.length_append, List.length_singleton, f.key_length]

theorem key_eq (h : IsPutTogether f bytes) : (bytes.drop 1).take 16 = f.key := by
  rw [h.bytes_eq, ← f.key_length]
  simp

theorem domain_eq (h : IsPutTogether f bytes) :
    bytes.drop 17 = f.hostBytes ++ f.pathBytes := by
  have hlen : ([0xFF] ++ f.key).length = 17 := by simp [f.key_length]
  rw [h.bytes_eq, ← hlen, List.append_assoc, List.drop_left]

theorem no_slash (h : IsPutTogether f bytes) : (0x2F : UInt8) ∉ f.hostBytes :=
  fun hc => (h.host_plain _ hc).plain.2.2.1 rfl

theorem no_special (h : IsPutTogether f bytes) : firstSpecial f.hostBytes = none :=
  firstSpecial_eq_none.mpr ⟨fun hc => (h.host_plain _ hc).plain.2.2.2.1 rfl,
    fun hc => (h.host_plain _ hc).plain.2.2.2.2 rfl⟩

/-- **What was put together is a secret** where its path has no control byte. -/
theorem isSecret_iff (h : IsPutTogether f bytes) :
    IsSecret bytes ↔ ∀ b ∈ f.pathBytes, ¬ IsControl b := by
  constructor
  · intro hsecret b hb
    have hclean := hsecret.text.clean
    rw [h.domain_eq] at hclean
    exact hclean b (List.mem_append_right _ hb)
  · intro hclean
    obtain ⟨c, host, hhost⟩ := List.exists_cons_of_ne_nil h.host_ne
    have hhostLen : 1 ≤ f.hostBytes.length := List.length_pos_iff.mpr h.host_ne
    have hlen := h.length_eq
    have hle := h.length_le
    constructor
    · omega
    · rw [h.bytes_eq]
      rfl
    · have hfirst : bytes.getD 17 0 = (bytes.drop 17).getD 0 0 := by
        simp [List.getD_eq_getElem?_getD]
      have hc : c ∈ f.hostBytes := hhost ▸ List.mem_cons_self
      rw [hfirst, h.domain_eq, hhost]
      exact (h.host_plain c hc).plain.2.2.1
    · rw [h.domain_eq]
      refine isCleanText_of_ascii fun b hb => ?_
      rcases List.mem_append.mp hb with hb | hb
      · have hplain := (h.host_plain b hb).plain
        exact ⟨hplain.1, hplain.2.1⟩
      · exact ⟨hclean b hb, h.path_ascii b hb⟩

/-- What the parser makes of it. -/
theorem splitDomain_eq (h : IsPutTogether f bytes) (n : ℕ) :
    (firstSpecial f.pathBytes = none ∧
      splitDomain f.key (bytes.drop 17) (n + 7) =
        .ok ⟨f.key, f.hostBytes ++ f.pathBytes, f.hostBytes, f.pathBytes, [], []⟩) ∨
    ∃ k, firstSpecial f.pathBytes = some k ∧
      splitDomain f.key (bytes.drop 17) (n + 7) =
        .ok ⟨f.key, f.hostBytes ++ f.pathBytes, f.hostBytes, f.pathBytes.take k,
          (splitSuffix (f.pathBytes.drop k)).1, (splitSuffix (f.pathBytes.drop k)).2⟩ := by
  have hslash := slashAt_append h.no_slash h.path_slash
  have htake : (bytes.drop 17).take (slashAt (bytes.drop 17)) = f.hostBytes := by
    rw [h.domain_eq, hslash, List.take_left]
  have hdrop : (bytes.drop 17).drop (slashAt (bytes.drop 17)) = f.pathBytes := by
    rw [h.domain_eq, hslash, List.drop_left]
  have hhost : firstSpecial ((bytes.drop 17).take (slashAt (bytes.drop 17))) = none := by
    rw [htake]
    exact h.no_special
  cases hpath : firstSpecial f.pathBytes with
  | none =>
    refine Or.inl ⟨rfl, ?_⟩
    rw [splitDomain_of_none f.key n hhost (by rw [hdrop, hpath]), htake, hdrop, h.domain_eq]
  | some k =>
    refine Or.inr ⟨k, rfl, ?_⟩
    rw [splitDomain_of_path f.key n hhost (by rw [hdrop, hpath]), htake, hdrop,
      ← List.drop_drop, hdrop, h.domain_eq]

end IsPutTogether

/-- `?t=`. -/
def transportKey : Bytes := ascii "?t="

/-- A decimal number without leading zeros. -/
structure IsMode (mode : Bytes) : Prop where
  ne_nil : mode ≠ []
  digits : ∀ b ∈ mode, 0x30 ≤ b.toNat ∧ b.toNat ≤ 0x39
  no_zeros : mode.head? = some 0x30 → mode = [0x30]

/-- **The one form of a path in which a `?` is permitted**: `path?t=mode`. -/
structure IsPermitted (whole path mode : Bytes) : Prop where
  whole_eq : whole = path ++ transportKey ++ mode
  mode : IsMode mode
  no_query : (0x3F : UInt8) ∉ path
  no_fragment : (0x23 : UInt8) ∉ path

/-- **A secret came back**: the key, the host and the path that were put in, and the mode as the
query where the path was of the permitted form. -/
structure CameBack (f : T3SecretFields) (s : T3Secret) : Prop where
  key : s.key = f.key
  host : s.host = f.hostBytes
  permitted : ∀ path mode, IsPermitted f.pathBytes path mode →
    s.path = path ∧ s.query = transportKey.drop 1 ++ mode ∧ s.fragment = []
  plain : (¬ ∃ path mode, IsPermitted f.pathBytes path mode) →
    s.path = f.pathBytes ∧ s.query = [] ∧ s.fragment = []

/-- A path without control bytes, without `#`, and with no `?` but that of the permitted form. -/
structure IsCleanPath (path : Bytes) : Prop where
  no_control : ∀ b ∈ path, ¬ IsControl b
  no_fragment : (0x23 : UInt8) ∉ path
  query : 0x3F ∈ path → ∃ p mode, IsPermitted path p mode

namespace IsPermitted

variable {whole path mode : Bytes}

/-- The path and the mode stand on the two sides of the first `?`. -/
theorem firstSpecial_eq (h : IsPermitted whole path mode) :
    firstSpecial whole = some path.length ∧ whole.take path.length = path ∧
      splitSuffix (whole.drop path.length) = (transportKey.drop 1 ++ mode, []) ∧
      (0x23 : UInt8) ∉ whole := by
  have hwhole : whole = path ++ 0x3F :: (transportKey.drop 1 ++ mode) := by
    rw [h.whole_eq, List.append_assoc]
    rfl
  have hmode : (0x23 : UInt8) ∉ transportKey.drop 1 ++ mode := by
    intro hb
    rcases List.mem_append.mp hb with hb | hb
    · exact absurd hb (by decide)
    · exact absurd (h.mode.digits _ hb).1 (by decide)
  have hsuffix : (0x23 : UInt8) ∉ 0x3F :: (transportKey.drop 1 ++ mode) := by
    intro hb
    rcases List.mem_cons.mp hb with hb | hb
    · exact nomatch hb
    · exact hmode hb
  have hfragment : (0x23 : UInt8) ∉ whole := by
    rw [hwhole]
    exact fun hb => (List.mem_append.mp hb).elim h.no_fragment hsuffix
  have hquery : memchr whole 0x3F = some path.length := by
    rw [hwhole]
    exact memchr_append_cons h.no_query _
  refine ⟨?_, ?_, ?_, hfragment⟩
  · rw [firstSpecial, hquery, memchr_eq_none.mpr hfragment]
  · rw [hwhole, List.take_left]
  · have hfirst : memchr (0x3F :: (transportKey.drop 1 ++ mode)) 0x3F = some 0 :=
      memchr_append_cons (p := []) List.not_mem_nil _
    rw [hwhole, List.drop_left, splitSuffix, hfirst, memchr_eq_none.mpr hsuffix]
    rfl

end IsPermitted

/-- **A secret comes back exactly when its path is clean.** -/
theorem t3SecretSerialise_roundTrips_iff (f : T3SecretFields) (out : Bool) (len n mallocs : ℕ)
    (bytes : Bytes) (h : t3SecretSerialise f out len = (.ok, bytes, n)) (hmallocs : 7 ≤ mallocs) :
    (∃ s, t3SecretParse (some bytes) bytes.length mallocs = .ok s ∧ CameBack f s) ↔
      IsCleanPath f.pathBytes := by
  have hput := t3SecretSerialise_ok h
  obtain ⟨m, rfl⟩ := Nat.exists_eq_add_of_le' hmallocs
  rcases t3SecretParse_eq bytes (m + 7) with ⟨hsecret, heq⟩ | ⟨hsecret, heq⟩
  · have hcontrol := hput.isSecret_iff.mp hsecret
    rw [heq, hput.key_eq]
    rcases hput.splitDomain_eq m with ⟨hnone, hs⟩ | ⟨k, hk, hs⟩
    · obtain ⟨hquery, hfragment⟩ := firstSpecial_eq_none.mp hnone
      have hplain (path mode : Bytes) : ¬ IsPermitted f.pathBytes path mode := fun hp =>
        nomatch hnone.symm.trans hp.firstSpecial_eq.1
      constructor
      · exact fun _ => ⟨hcontrol, hfragment, fun hb => absurd hb hquery⟩
      · exact fun _ => ⟨_, hs, rfl, rfl, fun path mode hp => absurd hp (hplain path mode),
          fun _ => ⟨rfl, rfl, rfl⟩⟩
    · constructor
      · rintro ⟨s, hs', hback⟩
        obtain rfl := Except.ok.inj (hs.symm.trans hs')
        by_cases hpermitted : ∃ path mode, IsPermitted f.pathBytes path mode
        · obtain ⟨path, mode, hp⟩ := hpermitted
          exact ⟨hcontrol, hp.firstSpecial_eq.2.2.2, fun _ => ⟨path, mode, hp⟩⟩
        · have hwhole := congrArg List.length (hback.plain hpermitted).1
          have hlt := firstSpecial_lt hk
          rw [List.length_take] at hwhole
          omega
      · intro hclean
        have hspecial : (0x3F : UInt8) ∈ f.pathBytes := by
          by_contra hquery
          exact nomatch hk.symm.trans (firstSpecial_eq_none.mpr ⟨hquery, hclean.no_fragment⟩)
        refine ⟨_, hs, rfl, rfl, fun path mode hp => ?_, fun hnot => ?_⟩
        · obtain ⟨hfirst, htake, hsplit, -⟩ := hp.firstSpecial_eq
          obtain rfl := Option.some.inj (hk.symm.trans hfirst)
          exact ⟨htake, congrArg Prod.fst hsplit, congrArg Prod.snd hsplit⟩
        · exact absurd (hclean.query hspecial) hnot
  · rw [heq]
    constructor
    · exact fun ⟨s, hs, _⟩ => (nomatch hs)
    · exact fun hclean => absurd (hput.isSecret_iff.mpr hclean.no_control) hsecret

/-- The key of the samples. -/
def sampleKey : Bytes := List.replicate 16 7

/-- `a` and a path. -/
def sampleFields (path : Bytes) (h : (0 : UInt8) ∉ path) : T3SecretFields where
  key := sampleKey
  host := some ⟨[0x61], by decide⟩
  path := some ⟨path, h⟩
  key_length := rfl

/-- The secret of `a/w?t=1`. -/
theorem t3SecretSerialise_roundTrips_iff_mode :
    (∃ s, t3SecretParse (some (0xFF :: (sampleKey ++ ascii "a/w?t=1"))) 24 7 = .ok s ∧
      CameBack (sampleFields (ascii "/w?t=1") (by decide)) s) ↔ IsCleanPath (ascii "/w?t=1") :=
  t3SecretSerialise_roundTrips_iff (sampleFields (ascii "/w?t=1") (by decide)) true 600 24 7 _
    (by decide) (le_refl 7)

/-- `a/x?y` is put together, and its path comes back as `/x`. -/
theorem t3SecretSerialise_not_roundTrips :
    ¬ ∀ f out len n bytes mallocs, t3SecretSerialise f out len = (.ok, bytes, n) → 7 ≤ mallocs →
      ∃ s, t3SecretParse (some bytes) bytes.length mallocs = .ok s ∧ CameBack f s := by
  intro hall
  have hbytes : t3SecretSerialise (sampleFields (ascii "/x?y") (by decide)) true 600 =
      (.ok, 0xFF :: (sampleKey ++ ascii "a/x?y"), 22) := by decide
  obtain ⟨s, hs, hback⟩ := hall _ _ _ _ _ 7 hbytes (le_refl 7)
  have hread : t3SecretParse (some (0xFF :: (sampleKey ++ ascii "a/x?y"))) 22 7 =
      .ok ⟨sampleKey, ascii "a/x?y", ascii "a", ascii "/x", ascii "y", []⟩ := by decide
  obtain rfl := Except.ok.inj (hread.symm.trans hs)
  by_cases hpermitted : ∃ path mode, IsPermitted (ascii "/x?y") path mode
  · obtain ⟨path, mode, hp⟩ := hpermitted
    obtain ⟨-, hquery, -⟩ := hback.permitted path mode hp
    have hlen := congrArg List.length hquery
    simp only [List.length_append] at hlen
    exact absurd hlen (by simp [ascii, transportKey]; omega)
  · exact absurd (hback.plain hpermitted).1 (by decide)

end Wire
end Teleproto3
