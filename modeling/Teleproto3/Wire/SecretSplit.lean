/-
# A secret as it lies in memory

`t3_secret_parse` of `lib/src/t3_secret.c` with the strings it keeps: each is a block that ends
with a zero byte and a length stored beside it.  The parser copies a host and a path, and where a
`?` or a `#` stands in one of them it cuts the copy short by a zero byte and takes the query and
the fragment from the domain.  `t3_secret_transport_mode` reads the block of the query.

`t3SecretParseBlocks_refines` connects this to `t3SecretParse`, which keeps strings alone.  A domain
is its host, its path and a suffix (`t3SecretParseBlocks_splits`); a host is empty exactly where
the domain begins with a `?` or a `#` (`t3SecretParseBlocks_host_iff`); and the mode is that of
an HTTP stream exactly where the text says so (`t3SecretTransportMode_iff`).
-/

import Mathlib.Data.List.TakeWhile
import Teleproto3.Wire.Secret

namespace Teleproto3
namespace Wire

open Lib

/-! ### The parser -/

/-- A string of the heap: its block, and the length stored beside it. -/
structure HeapString where
  block : Bytes
  len : ℕ
  deriving DecidableEq, Repr

namespace HeapString

/-- The string that stands in the block. -/
def text (s : HeapString) : Bytes := cString s.block

/-- `malloc (n + 1)`, `memcpy` and the zero byte behind. -/
def copy (bs : Bytes) : HeapString := ⟨bs ++ [0], bs.length⟩

/-- `s[n] = '\0'`, and `n` as the length. -/
def cut (s : HeapString) (n : ℕ) : HeapString := ⟨s.block.set n 0, n⟩

/-- What `memchr` goes through. -/
def bytes (s : HeapString) : Bytes := s.block.take s.len

/-- The string stands in the block, and its length beside it. -/
structure Holds (s : HeapString) (bs : Bytes) : Prop where
  text : s.text = bs
  len : s.len = bs.length

end HeapString

/-- `struct t3_secret`. -/
structure T3SecretBlocks where
  key : Bytes
  domain : HeapString
  host : HeapString
  path : HeapString
  query : HeapString
  fragment : HeapString
  deriving DecidableEq, Repr

/-- The blocks hold the parts of a secret. -/
structure T3SecretBlocks.Holds (b : T3SecretBlocks) (s : T3Secret) : Prop where
  key : b.key = s.key
  domain : b.domain.Holds s.domain
  host : b.host.Holds s.host
  path : b.path.Holds s.path
  query : b.query.Holds s.query
  fragment : b.fragment.Holds s.fragment

/-- `q_len` and `f_len` of a suffix of `n` bytes with its first `?` and its first `#` at `q` and
`f`. -/
def suffixLengths (n : ℕ) : Option ℕ → Option ℕ → ℕ × ℕ
  | some q, some f =>
    if f < q then (0, n - (f + 1))
    else if f > q then (f - (q + 1), n - (f + 1))
    else (n - (q + 1), 0)
  | some q, none => (n - (q + 1), 0)
  | none, some f => (0, n - (f + 1))
  | none, none => (0, 0)

/-- `s->query` and `s->fragment`, from the suffix of a domain. -/
def suffixBlocks (suffix : Bytes) : HeapString × HeapString :=
  let q := memchr suffix 0x3F
  let f := memchr suffix 0x23
  let (qLen, fLen) := suffixLengths suffix.length q f
  let query := match q with
    | some q => (suffix.drop (q + 1)).take qLen
    | none => []
  let fragment := match f with
    | some f => (suffix.drop (f + 1)).take fLen
    | none => []
  (.copy query, .copy fragment)

/-- The part of the parser that takes a domain apart. -/
def splitDomainBlocks (key domainBuf : Bytes) (mallocs : ℕ) : Except T3Result T3SecretBlocks := do
  let mallocs ← takeBlock mallocs
  let mallocs ← takeBlock mallocs
  let domain := HeapString.copy domainBuf
  let mallocs ← takeBlock mallocs
  let host := HeapString.copy (domainBuf.take (slashAt domainBuf))
  let mallocs ← takeBlock mallocs
  let path := HeapString.copy (domainBuf.drop (slashAt domainBuf))
  match firstSpecial host.bytes, firstSpecial path.bytes with
  | some k, _ =>
    let host := host.cut k
    let mallocs ← takeBlock mallocs
    let path := HeapString.copy []
    let (query, fragment) := suffixBlocks ((domain.block.drop k).take (domain.len - k))
    let mallocs ← takeBlock mallocs
    let _ ← takeBlock mallocs
    .ok ⟨key, domain, host, path, query, fragment⟩
  | none, some k =>
    let path := path.cut k
    let tailTotal := domain.len - host.len - k
    let (query, fragment) := suffixBlocks ((domain.block.drop (host.len + k)).take tailTotal)
    let mallocs ← takeBlock mallocs
    let _ ← takeBlock mallocs
    .ok ⟨key, domain, host, path, query, fragment⟩
  | none, none =>
    let mallocs ← takeBlock mallocs
    let _ ← takeBlock mallocs
    .ok ⟨key, domain, host, path, .copy [], .copy []⟩

/-- `t3_secret_parse` on `len` bytes, where so many calls of `malloc` succeed. -/
def t3SecretParseBlocks (buf : Option Bytes) (len mallocs : ℕ) : Except T3Result T3SecretBlocks :=
  match buf with
  | none => if len > 0 then .error .invalidArg else .error .malformed
  | some buf =>
    if len < 18 then .error .malformed
    else if buf.getD 0 0 ≠ 0xFF then .error .malformed
    else if len - 17 > 512 then .error .malformed
    else
      let domain := (buf.drop 17).take (len - 17)
      if domain.getD 0 0 = 0x2F then .error .malformed
      else if validateUtf8AndControls domain = false then .error .malformed
      else splitDomainBlocks ((buf.drop 1).take 16) domain mallocs

/-- `T3_TRANSPORT_WS` and `T3_TRANSPORT_HTTP_STREAM`. -/
inductive T3Transport
  | ws
  | httpStream
  deriving DecidableEq, Repr

/-- The loop over the digits of a mode: its value and the byte behind it, or nothing where the
value is too large. -/
def transportDigits : ℕ → Bytes → Option (ℕ × UInt8)
  | mode, [] => some (mode, 0)
  | mode, c :: p =>
    if isDigit c then
      let mode := mode * 10 + (c.toNat - 0x30)
      if mode > 255 then none else transportDigits mode p
    else some (mode, c)

/-- `t3_secret_transport_mode`, from `val` on. -/
def transportValue (val : Bytes) : T3Transport :=
  if val.getD 0 0 = 0 ∨ val.getD 0 0 = 0x26 then .ws
  else if ¬ isDigit (val.getD 0 0) then .ws
  else if val.getD 0 0 = 0x30 ∧ val.getD 1 0 ≠ 0 ∧ val.getD 1 0 ≠ 0x26 then .ws
  else
    match transportDigits 0 val with
    | none => .ws
    | some (mode, c) =>
      if c ≠ 0 ∧ c ≠ 0x26 then .ws else if mode = 1 then .httpStream else .ws

/-- `t3_secret_transport_mode`. -/
def t3SecretTransportMode (s : Option T3SecretBlocks) : T3Transport :=
  match s with
  | none => .ws
  | some s =>
    if s.query.block.getD 0 0 = 0 then .ws
    else if ¬ (ascii "t=").isPrefixOf s.query.block then .ws
    else transportValue (s.query.block.drop 2)

/-! ### What stands in the blocks -/

namespace HeapString

@[simp] theorem copy_len (bs : Bytes) : (copy bs).len = bs.length := rfl

@[simp] theorem copy_bytes (bs : Bytes) : (copy bs).bytes = bs := by
  simp [copy, bytes]

@[simp] theorem copy_block_take (bs : Bytes) (i n : ℕ) (h : i + n = bs.length) :
    ((copy bs).block.drop i).take n = bs.drop i := by
  have hle : i ≤ bs.length := by omega
  have hlen : (bs.drop i).length = n := by simp; omega
  rw [copy, List.drop_append_of_le_length hle, List.take_left' hlen]

theorem text_append_zero {bs : Bytes} (h : (0 : UInt8) ∉ bs) (junk : Bytes) :
    cString (bs ++ 0 :: junk) = bs := by
  have happ := cString_append bs (0 :: junk)
  rw [if_neg h] at happ
  rw [happ]
  simp [cString]

/-- A copy holds what was copied. -/
theorem copy_holds {bs : Bytes} (h : (0 : UInt8) ∉ bs) : (copy bs).Holds bs :=
  ⟨text_append_zero h [], rfl⟩

/-- A copy that was cut short holds the bytes before the cut. -/
theorem cut_holds {bs : Bytes} (h : (0 : UInt8) ∉ bs) {n : ℕ} (hn : n ≤ bs.length) :
    ((copy bs).cut n).Holds (bs.take n) := by
  have hset : (bs ++ [0]).set n 0 = bs.take n ++ 0 :: (bs ++ [0]).drop (n + 1) := by
    rw [List.set_eq_take_append_cons_drop, if_pos (by simp; omega),
      List.take_append_of_le_length hn]
  constructor
  · rw [text, cut, copy, hset]
    exact text_append_zero (fun h0 => h (List.mem_of_mem_take h0)) _
  · rw [List.length_take]
    exact (Nat.min_eq_left hn).symm

end HeapString

/-! ### Where a domain is cut -/

/-- `memchr` finds the byte behind a stretch without it. -/
theorem memchr_eq_some {buf : Bytes} {b : UInt8} {i : ℕ} (h : memchr buf b = some i) :
    ∃ p rest, buf = p ++ b :: rest ∧ b ∉ p ∧ i = p.length := by
  obtain ⟨hlt, hb, hbefore⟩ := List.findIdx?_eq_some_iff_getElem.mp h
  refine ⟨buf.take i, buf.drop (i + 1), ?_, ?_, ?_⟩
  · have hcons := List.drop_eq_getElem_cons hlt
    rw [of_decide_eq_true hb] at hcons
    rw [← hcons, List.take_append_drop]
  · intro hmem
    obtain ⟨j, hj, hget⟩ := List.mem_take_iff_getElem.mp hmem
    have hno := hbefore j (by omega)
    simp [hget] at hno
  · rw [List.length_take]
    omega

/-- What takes a domain apart. -/
def IsSpecial (c : UInt8) : Prop := c = 0x3F ∨ c = 0x23

/-- A stretch without a `?` and a `#`. -/
def IsPlain (bs : Bytes) : Prop := (0x3F : UInt8) ∉ bs ∧ (0x23 : UInt8) ∉ bs

theorem isPlain_append {p q : Bytes} : IsPlain (p ++ q) ↔ IsPlain p ∧ IsPlain q := by
  simp only [IsPlain, List.mem_append, not_or]
  exact and_and_and_comm

theorem isPlain_cons {a : UInt8} {p : Bytes} (h : IsPlain (a :: p)) : IsPlain p :=
  ⟨fun hb => h.1 (List.mem_cons_of_mem a hb), fun hb => h.2 (List.mem_cons_of_mem a hb)⟩

theorem IsPlain.nil : IsPlain [] := ⟨List.not_mem_nil, List.not_mem_nil⟩

/-- The first `?` or `#` stands behind a stretch without either. -/
theorem firstSpecial_eq_some {buf : Bytes} {k : ℕ} (h : firstSpecial buf = some k) :
    ∃ p c rest, buf = p ++ c :: rest ∧ IsSpecial c ∧ IsPlain p ∧ k = p.length := by
  unfold firstSpecial at h
  cases hq : memchr buf 0x3F with
  | none =>
    rw [hq] at h
    obtain ⟨p, rest, rfl, hp, rfl⟩ := memchr_eq_some h
    have hquery := memchr_eq_none.mp hq
    exact ⟨p, 0x23, rest, rfl, Or.inr rfl, ⟨fun hb => hquery (List.mem_append_left _ hb), hp⟩, rfl⟩
  | some q =>
    obtain ⟨p, rest, hbuf, hp, rfl⟩ := memchr_eq_some hq
    cases hf : memchr buf 0x23 with
    | none =>
      obtain rfl : p.length = k := by simpa [hq, hf] using h
      have hfragment := memchr_eq_none.mp hf
      refine ⟨p, 0x3F, rest, hbuf, Or.inl rfl, ⟨hp, fun hb => hfragment ?_⟩, rfl⟩
      rw [hbuf]
      exact List.mem_append_left _ hb
    | some f =>
      obtain ⟨p', rest', hbuf', hp', rfl⟩ := memchr_eq_some hf
      simp only [hq, hf, Option.some.injEq] at h
      -- Of two stretches from the front the shorter is part of the longer.
      have hprefix := (List.prefix_append p (0x3F :: rest))
      have hprefix' := (List.prefix_append p' (0x23 :: rest'))
      rw [← hbuf] at hprefix
      rw [← hbuf'] at hprefix'
      split_ifs at h with hlt
      · have hpp := List.prefix_of_prefix_length_le hprefix hprefix' hlt.le
        exact ⟨p, 0x3F, rest, hbuf, Or.inl rfl, ⟨hp, fun hb => hp' (hpp.subset hb)⟩, h.symm⟩
      · have hpp := List.prefix_of_prefix_length_le hprefix' hprefix (not_lt.mp hlt)
        exact ⟨p', 0x23, rest', hbuf', Or.inr rfl, ⟨fun hb => hp (hpp.subset hb), hp'⟩, h.symm⟩

/-- **The forms of a suffix**: nothing, a query, a fragment, or a query and a fragment. -/
inductive IsSuffix : Bytes → Bytes → Bytes → Prop
  | none : IsSuffix [] [] []
  | query (query : Bytes) : IsSuffix (0x3F :: query) query []
  | fragment (fragment : Bytes) : IsSuffix (0x23 :: fragment) [] fragment
  | both (query fragment : Bytes) :
    IsSuffix (0x3F :: (query ++ 0x23 :: fragment)) query fragment

/-- `splitSuffix` takes a suffix apart. -/
theorem splitSuffix_isSuffix {c : UInt8} (hc : IsSpecial c) (rest : Bytes) :
    IsSuffix (c :: rest) (splitSuffix (c :: rest)).1 (splitSuffix (c :: rest)).2 ∧
      (0x23 : UInt8) ∉ (splitSuffix (c :: rest)).1 := by
  have hfirst (b : UInt8) : memchr (b :: rest) b = some 0 :=
    memchr_append_cons (p := []) List.not_mem_nil rest
  rcases hc with rfl | rfl
  · cases hf : memchr (0x3F :: rest) 0x23 with
    | none =>
      have hno := memchr_eq_none.mp hf
      simp only [splitSuffix, hfirst, hf, Nat.zero_add, List.drop_one, List.tail_cons]
      exact ⟨.query rest, fun hb => hno (List.mem_cons_of_mem _ hb)⟩
    | some f =>
      obtain ⟨p, fragment, heq, hp, rfl⟩ := memchr_eq_some hf
      cases p with
      | nil => exact absurd (List.cons.inj heq).1 (by decide)
      | cons a query =>
        obtain rfl : rest = query ++ 0x23 :: fragment := (List.cons.inj heq).2
        obtain rfl : 0x3F = a := (List.cons.inj heq).1
        have hq : (0x23 : UInt8) ∉ query := fun hb => hp (List.mem_cons_of_mem _ hb)
        have hsplit : splitSuffix (0x3F :: (query ++ 0x23 :: fragment)) = (query, fragment) := by
          unfold splitSuffix
          rw [hfirst, hf]
          simp
        rw [hsplit]
        exact ⟨.both query fragment, hq⟩
  · have hno : (splitSuffix (0x23 :: rest)) = ([], rest) := by
      unfold splitSuffix
      rw [hfirst]
      cases memchr (0x23 :: rest) 0x3F <;> simp
    rw [hno]
    exact ⟨.fragment rest, List.not_mem_nil⟩

/-- **The suffix of a domain is taken apart as by `splitSuffix`.** -/
theorem suffixBlocks_eq (suffix : Bytes) :
    suffixBlocks suffix = (.copy (splitSuffix suffix).1, .copy (splitSuffix suffix).2) := by
  have htake (i : ℕ) : (suffix.drop i).take (suffix.length - i) = suffix.drop i := by
    rw [← List.length_drop, List.take_length]
  unfold suffixBlocks splitSuffix
  cases hq : memchr suffix 0x3F with
  | none =>
    cases hf : memchr suffix 0x23 with
    | none => simp
    | some f => simp [suffixLengths, htake]
  | some q =>
    cases hf : memchr suffix 0x23 with
    | none => simp [suffixLengths, htake]
    | some f =>
      rcases lt_trichotomy f q with hlt | heq | hgt
      · simp [suffixLengths, hlt, not_lt.mpr hlt.le, htake]
      · -- One position cannot hold both bytes.
        subst heq
        obtain ⟨p, rest, hsuffix, -, hp⟩ := memchr_eq_some hq
        obtain ⟨p', rest', hsuffix', -, hp'⟩ := memchr_eq_some hf
        have happ := List.append_inj (hsuffix.symm.trans hsuffix') (hp.symm.trans hp')
        exact absurd (List.cons.inj happ.2).1 (by decide)
      · simp [suffixLengths, hgt, not_lt.mpr hgt.le, htake]

/-! ### The split law -/

/-- **A domain taken apart**: a host, a path and a suffix. -/
structure IsSplit (s : T3Secret) : Prop where
  parts : ∃ suffix, s.domain = s.host ++ s.path ++ suffix ∧ IsSuffix suffix s.query s.fragment
  host_slash : (0x2F : UInt8) ∉ s.host
  host_plain : IsPlain s.host
  path_slash : s.path = [] ∨ s.path.head? = some 0x2F
  path_plain : IsPlain s.path
  query_plain : (0x23 : UInt8) ∉ s.query

/-- What stands before the first slash has none, and what stands behind begins with it. -/
theorem slashAt_split (domain : Bytes) :
    (0x2F : UInt8) ∉ domain.take (slashAt domain) ∧ slashAt domain ≤ domain.length ∧
      (domain.drop (slashAt domain) = [] ∨ (domain.drop (slashAt domain)).head? = some 0x2F) := by
  unfold slashAt
  cases hslash : memchr domain 0x2F with
  | none => simpa using memchr_eq_none.mp hslash
  | some i =>
    obtain ⟨p, rest, rfl, hp, rfl⟩ := memchr_eq_some hslash
    simpa using hp

/-- What a cut leaves before it. -/
theorem take_of_cut {buf p rest : Bytes} {c : UInt8} (h : buf = p ++ c :: rest) :
    buf.take p.length = p ∧ buf.drop p.length = c :: rest := by
  rw [h]
  exact ⟨List.take_left, List.drop_left⟩

/-- What was taken from the heap was there. -/
theorem takeBlock_bind_ok {β : Type} {mallocs : ℕ} {f : ℕ → Except T3Result β} {r : β}
    (h : (takeBlock mallocs >>= f) = .ok r) : ∃ n, f n = .ok r := by
  cases mallocs with
  | zero => exact nomatch h
  | succ n => exact ⟨n, h⟩

/-- **What the parser makes of a domain.** -/
theorem splitDomain_isSplit {key domain : Bytes} {mallocs : ℕ} {s : T3Secret}
    (h : splitDomain key domain mallocs = .ok s) :
    IsSplit s ∧ s.key = key ∧ s.domain = domain := by
  obtain ⟨hslash, -, hpath⟩ := slashAt_split domain
  have hdomain := (List.take_append_drop (slashAt domain) domain).symm
  unfold splitDomain at h
  obtain ⟨_, h⟩ := takeBlock_bind_ok h
  obtain ⟨_, h⟩ := takeBlock_bind_ok h
  obtain ⟨_, h⟩ := takeBlock_bind_ok h
  obtain ⟨_, h⟩ := takeBlock_bind_ok h
  dsimp only at h
  generalize hhostEq : domain.take (slashAt domain) = host at *
  generalize hpathEq : domain.drop (slashAt domain) = path at *
  cases hhost : firstSpecial host with
  | some k =>
    rw [hhost] at h
    obtain ⟨_, h⟩ := takeBlock_bind_ok h
    obtain ⟨_, h⟩ := takeBlock_bind_ok h
    obtain ⟨_, h⟩ := takeBlock_bind_ok h
    obtain ⟨p, c, rest, rfl, hc, hp, rfl⟩ := firstSpecial_eq_some hhost
    have hcut : domain = p ++ c :: (rest ++ path) := by rw [hdomain, List.append_assoc]; rfl
    obtain ⟨hsuffix, hquery⟩ := splitSuffix_isSuffix hc (rest ++ path)
    obtain rfl := Except.ok.inj h
    rw [(take_of_cut hcut).2, List.take_left]
    refine ⟨⟨⟨_, ?_, hsuffix⟩, fun hb => hslash (List.mem_append_left _ hb), hp, Or.inl rfl,
      IsPlain.nil, hquery⟩, rfl, rfl⟩
    rw [List.append_nil]
    exact hcut
  | none =>
    rw [hhost] at h
    have hplain := firstSpecial_eq_none.mp hhost
    cases hpathCut : firstSpecial path with
    | some k =>
      rw [hpathCut] at h
      obtain ⟨_, h⟩ := takeBlock_bind_ok h
      obtain ⟨_, h⟩ := takeBlock_bind_ok h
      obtain ⟨p, c, rest, rfl, hc, hp, rfl⟩ := firstSpecial_eq_some hpathCut
      obtain ⟨hsuffix, hquery⟩ := splitSuffix_isSuffix hc rest
      obtain rfl := Except.ok.inj h
      rw [← List.drop_drop, hpathEq, List.drop_left, List.take_left]
      refine ⟨⟨⟨_, ?_, hsuffix⟩, hslash, hplain, ?_, hp, hquery⟩, rfl, rfl⟩
      · rw [List.append_assoc]
        exact hdomain
      · cases p with
        | nil => exact Or.inl rfl
        | cons a p => exact Or.inr (by simpa using hpath)
    | none =>
      rw [hpathCut] at h
      obtain ⟨_, h⟩ := takeBlock_bind_ok h
      obtain ⟨_, h⟩ := takeBlock_bind_ok h
      obtain rfl := Except.ok.inj h
      refine ⟨⟨⟨[], ?_, .none⟩, hslash, hplain, hpath, firstSpecial_eq_none.mp hpathCut,
        List.not_mem_nil⟩, rfl, rfl⟩
      rw [List.append_nil]
      exact hdomain

/-! ### The blocks hold the parts -/

/-- One computation fails as the other does, or what it returns is related to what that returns. -/
inductive Refines {β γ : Type} (R : β → γ → Prop) : Except T3Result β → Except T3Result γ → Prop
  | error (e : T3Result) : Refines R (.error e) (.error e)
  | ok {b : β} {c : γ} : R b c → Refines R (.ok b) (.ok c)

theorem Refines.takeBlock {β γ : Type} {R : β → γ → Prop} {f : ℕ → Except T3Result β}
    {g : ℕ → Except T3Result γ} (h : ∀ n, Refines R (f n) (g n)) (mallocs : ℕ) :
    Refines R (takeBlock mallocs >>= f) (takeBlock mallocs >>= g) := by
  cases mallocs with
  | zero => exact .error .internal
  | succ n => exact h n

/-- The parts of a suffix have no bytes but those of the suffix. -/
theorem splitSuffix_subset (suffix : Bytes) :
    (splitSuffix suffix).1 ⊆ suffix ∧ (splitSuffix suffix).2 ⊆ suffix := by
  have hdrop (i : ℕ) : suffix.drop i ⊆ suffix := List.drop_subset i suffix
  have htake (i n : ℕ) : (suffix.drop i).take n ⊆ suffix :=
    List.Subset.trans (List.take_subset n _) (hdrop i)
  unfold splitSuffix
  cases memchr suffix 0x3F <;> cases memchr suffix 0x23
  · exact ⟨List.nil_subset _, List.nil_subset _⟩
  · exact ⟨List.nil_subset _, hdrop _⟩
  · exact ⟨hdrop _, List.nil_subset _⟩
  · dsimp only
    split_ifs
    · exact ⟨htake _ _, hdrop _⟩
    · exact ⟨List.nil_subset _, hdrop _⟩

/-- **A domain is taken apart in blocks as it is in strings.** -/
theorem splitDomainBlocks_refines (key : Bytes) {domain : Bytes} (h0 : (0 : UInt8) ∉ domain)
    (mallocs : ℕ) : Refines T3SecretBlocks.Holds (splitDomainBlocks key domain mallocs)
      (splitDomain key domain mallocs) := by
  have hslash := (slashAt_split domain).2.1
  have hnil : (0 : UInt8) ∉ ([] : Bytes) := List.not_mem_nil
  have hhost0 : (0 : UInt8) ∉ domain.take (slashAt domain) := fun h => h0 (List.mem_of_mem_take h)
  have hpath0 : (0 : UInt8) ∉ domain.drop (slashAt domain) := fun h => h0 (List.mem_of_mem_drop h)
  have hquery0 (i : ℕ) : (0 : UInt8) ∉ (splitSuffix (domain.drop i)).1 := fun h =>
    h0 (List.mem_of_mem_drop ((splitSuffix_subset _).1 h))
  have hfragment0 (i : ℕ) : (0 : UInt8) ∉ (splitSuffix (domain.drop i)).2 := fun h =>
    h0 (List.mem_of_mem_drop ((splitSuffix_subset _).2 h))
  unfold splitDomainBlocks splitDomain
  refine .takeBlock (fun _ => .takeBlock (fun _ => .takeBlock (fun _ => .takeBlock (fun _ => ?_) _)
    _) _) _
  simp only [HeapString.copy_bytes]
  cases hhost : firstSpecial (domain.take (slashAt domain)) with
  | some k =>
    have hk := firstSpecial_lt hhost
    have hkDomain : k + (domain.length - k) = domain.length := by
      rw [List.length_take] at hk
      omega
    refine .takeBlock (fun _ => ?_) _
    simp only [HeapString.copy_len, HeapString.copy_block_take _ _ _ hkDomain, suffixBlocks_eq]
    exact .takeBlock (fun _ => .takeBlock (fun _ => .ok ⟨rfl, HeapString.copy_holds h0,
      HeapString.cut_holds hhost0 hk.le, HeapString.copy_holds hnil,
      HeapString.copy_holds (hquery0 k), HeapString.copy_holds (hfragment0 k)⟩) _) _
  | none =>
    cases hpath : firstSpecial (domain.drop (slashAt domain)) with
    | some k =>
      have hk := firstSpecial_lt hpath
      have hlen : (domain.take (slashAt domain)).length = slashAt domain := by
        rw [List.length_take]
        omega
      have hkDomain :
          slashAt domain + k + (domain.length - slashAt domain - k) = domain.length := by
        rw [List.length_drop] at hk
        omega
      simp only [HeapString.copy_len, hlen, HeapString.copy_block_take _ _ _ hkDomain,
        suffixBlocks_eq]
      exact .takeBlock (fun _ => .takeBlock (fun _ => .ok ⟨rfl, HeapString.copy_holds h0,
        HeapString.copy_holds hhost0, HeapString.cut_holds hpath0 hk.le,
        HeapString.copy_holds (hquery0 _), HeapString.copy_holds (hfragment0 _)⟩) _) _
    | none =>
      exact .takeBlock (fun _ => .takeBlock (fun _ => .ok ⟨rfl, HeapString.copy_holds h0,
        HeapString.copy_holds hhost0, HeapString.copy_holds hpath0, HeapString.copy_holds hnil,
        HeapString.copy_holds hnil⟩) _) _

/-- Clean text has no zero byte. -/
theorem IsCleanText.no_zero {bs : Bytes} (h : IsCleanText bs) : (0 : UInt8) ∉ bs :=
  fun h0 => h.clean 0 h0 (Or.inl (Nat.zero_le _))

/-- **The parser keeps in its blocks what `t3SecretParse` keeps in strings.** -/
theorem t3SecretParseBlocks_refines (buf : Option Bytes) (len mallocs : ℕ) :
    Refines T3SecretBlocks.Holds (t3SecretParseBlocks buf len mallocs)
      (t3SecretParse buf len mallocs) := by
  cases buf with
  | none =>
    simp only [t3SecretParseBlocks, t3SecretParse]
    split_ifs <;> exact .error _
  | some buf =>
    simp only [t3SecretParseBlocks, t3SecretParse]
    split_ifs with _ _ _ _ htext
    · exact .error _
    · exact .error _
    · exact .error _
    · exact .error _
    · exact .error _
    · have hclean := (validateUtf8AndControls_iff _).mp (Bool.not_eq_false _ ▸ htext)
      exact splitDomainBlocks_refines _ hclean.no_zero mallocs

/-- What the parser returns, in blocks and in strings. -/
theorem t3SecretParseBlocks_ok {buf : Bytes} {mallocs : ℕ} {b : T3SecretBlocks}
    (h : t3SecretParseBlocks (some buf) buf.length mallocs = .ok b) :
    ∃ s, b.Holds s ∧ IsSecret buf ∧ IsSplit s ∧ s.key = (buf.drop 1).take 16 ∧
      s.domain = buf.drop 17 := by
  have hrefines := t3SecretParseBlocks_refines (some buf) buf.length mallocs
  rw [h] at hrefines
  rcases t3SecretParse_eq buf mallocs with ⟨hsecret, heq⟩ | ⟨-, heq⟩
  · rw [heq] at hrefines
    cases hs : splitDomain ((buf.drop 1).take 16) (buf.drop 17) mallocs with
    | error e =>
      rw [hs] at hrefines
      cases hrefines
    | ok s =>
      rw [hs] at hrefines
      cases hrefines with
      | ok hholds =>
        obtain ⟨hsplit, hkey, hdomain⟩ := splitDomain_isSplit hs
        exact ⟨s, hholds, hsecret, hsplit, hkey, hdomain⟩
  · rw [heq] at hrefines
    cases hrefines

/-- **A domain is its host, its path and a suffix.**  The key and the domain are those of the
buffer, and each length stored is that of its string. -/
theorem t3SecretParseBlocks_splits (buf : Bytes) (mallocs : ℕ) (b : T3SecretBlocks)
    (h : t3SecretParseBlocks (some buf) buf.length mallocs = .ok b) :
    ∃ s, b.Holds s ∧ IsSplit s ∧ s.key = (buf.drop 1).take 16 ∧ s.domain = buf.drop 17 := by
  obtain ⟨s, hholds, -, hsplit, hkey, hdomain⟩ := t3SecretParseBlocks_ok h
  exact ⟨s, hholds, hsplit, hkey, hdomain⟩

/-- The secret of a domain. -/
def secretOf (domain : Bytes) : Bytes := 0xFF :: (sampleKey ++ domain)

/-- The secret of `a/b?c#d`. -/
theorem t3SecretParseBlocks_splits_sample :
    ∃ s : T3Secret, T3SecretBlocks.Holds ⟨sampleKey, .copy (ascii "a/b?c#d"), .copy (ascii "a"),
      (HeapString.copy (ascii "/b?c#d")).cut 2, .copy (ascii "c"), .copy (ascii "d")⟩ s ∧
      IsSplit s ∧ s.key = ((secretOf (ascii "a/b?c#d")).drop 1).take 16 ∧
      s.domain = (secretOf (ascii "a/b?c#d")).drop 17 :=
  t3SecretParseBlocks_splits (secretOf (ascii "a/b?c#d")) 7
    ⟨sampleKey, .copy (ascii "a/b?c#d"), .copy (ascii "a"),
      (HeapString.copy (ascii "/b?c#d")).cut 2, .copy (ascii "c"), .copy (ascii "d")⟩
    (by decide +kernel)

/-! ### Where the host is empty -/

/-- **A host is empty exactly where the domain begins with a `?` or a `#`**: a leading slash is
refused, but neither of these. -/
theorem t3SecretParseBlocks_host_iff (buf : Bytes) (mallocs : ℕ) (b : T3SecretBlocks)
    (h : t3SecretParseBlocks (some buf) buf.length mallocs = .ok b) :
    1 ≤ b.host.len ↔ buf.getD 17 0 ≠ 0x3F ∧ buf.getD 17 0 ≠ 0x23 := by
  obtain ⟨s, hholds, hsecret, hsplit, -, hdomain⟩ := t3SecretParseBlocks_ok h
  obtain ⟨suffix, hparts, hsuffix⟩ := hsplit.parts
  have hfirst : buf.getD 17 0 = s.domain.getD 0 0 := by
    rw [hdomain]
    simp [List.getD_eq_getElem?_getD]
  have hslash := hsecret.host
  have hlen : 1 ≤ s.domain.length := by
    have hle := hsecret.length.1
    rw [hdomain, List.length_drop]
    omega
  rw [hfirst] at hslash ⊢
  rw [hholds.host.len]
  cases hhost : s.host with
  | cons a host =>
    have ha : a ∈ s.host := hhost ▸ List.mem_cons_self
    have hget : s.domain.getD 0 0 = a := by simp [hparts, hhost]
    rw [hget]
    refine ⟨fun _ => ⟨?_, ?_⟩, fun _ => by simp⟩
    · rintro rfl
      exact hsplit.host_plain.1 ha
    · rintro rfl
      exact hsplit.host_plain.2 ha
  | nil =>
    constructor
    · intro hle
      simp at hle
    · rintro ⟨hquery, hfragment⟩
      -- The path does not begin the domain, so the suffix does.
      have hpath : s.path = [] := by
        refine hsplit.path_slash.resolve_right fun hhead => ?_
        obtain ⟨rest, hrest⟩ := List.head?_eq_some_iff.mp hhead
        exact hslash (by simp [hparts, hhost, hrest])
      rw [hhost, hpath, List.nil_append, List.nil_append] at hparts
      rw [hparts] at hlen hquery hfragment
      generalize s.query = query at hsuffix
      generalize s.fragment = fragment at hsuffix
      cases hsuffix with
      | none => simp at hlen
      | query q => simp at hquery
      | fragment f => simp at hfragment
      | both q f => simp at hquery

/-- The secret of `a`. -/
theorem t3SecretParseBlocks_host_iff_sample :
    1 ≤ (1 : ℕ) ↔ (secretOf (ascii "a")).getD 17 0 ≠ 0x3F ∧
      (secretOf (ascii "a")).getD 17 0 ≠ 0x23 :=
  t3SecretParseBlocks_host_iff (secretOf (ascii "a")) 7
    ⟨sampleKey, .copy (ascii "a"), .copy (ascii "a"), .copy [], .copy [], .copy []⟩ (by decide)

/-- The host of `?t=1` is empty. -/
theorem t3SecretParseBlocks_no_host :
    ¬ ∀ (buf : Bytes) (mallocs : ℕ) (b : T3SecretBlocks),
      t3SecretParseBlocks (some buf) buf.length mallocs = .ok b → 1 ≤ b.host.len := by
  intro hall
  have hlen := hall (secretOf (ascii "?t=1")) 7
    ⟨sampleKey, .copy (ascii "?t=1"), (HeapString.copy (ascii "?t=1")).cut 0, .copy [],
      .copy (ascii "t=1"), .copy []⟩ (by decide)
  exact absurd hlen (by decide)

/-! ### The transport mode -/

/-- The value read is at least the value before. -/
theorem transportDigits_le {mode n : ℕ} {p : Bytes} {c : UInt8}
    (h : transportDigits mode p = some (n, c)) : mode ≤ n := by
  induction p generalizing mode with
  | nil => simp [transportDigits] at h; omega
  | cons a p ih =>
    simp only [transportDigits] at h
    split_ifs at h
    · have hle := ih h
      omega
    · simp at h
      omega

/-- No digit ahead: the value is complete. -/
theorem transportDigits_of_not_digit (mode : ℕ) {p : Bytes} (h : isDigit (p.getD 0 0) = false) :
    transportDigits mode p = some (mode, p.getD 0 0) := by
  cases p with
  | nil => rfl
  | cons a p => simp_all [transportDigits]

/-- One more digit makes at least ten of what is not zero. -/
theorem transportDigits_of_digit {mode n : ℕ} {p : Bytes} {c : UInt8}
    (h : isDigit (p.getD 0 0) = true) (hdigits : transportDigits mode p = some (n, c)) :
    mode * 10 ≤ n := by
  cases p with
  | nil => simp [isDigit] at h
  | cons a p =>
    simp only [List.getD_cons_zero] at h
    simp only [transportDigits, h, if_true] at hdigits
    split_ifs at hdigits
    have hle := transportDigits_le hdigits
    omega

/-- The end of a parameter. -/
def EndsParam (p : Bytes) : Prop := p = [] ∨ p.head? = some 0x26

theorem endsParam_cString (p : Bytes) :
    EndsParam (cString p) ↔ p.getD 0 0 = 0 ∨ p.getD 0 0 = 0x26 := by
  cases p with
  | nil => simp [EndsParam, cString]
  | cons a p =>
    by_cases ha : a = 0
    · simp [EndsParam, cString, ha]
    · simp [EndsParam, cString, ha]

/-- **A value is 1 only as `1`** and the end of the parameter. -/
theorem transportValue_iff (val : Bytes) :
    transportValue val = .httpStream ↔ ∃ more, cString val = 0x31 :: more ∧ EndsParam more := by
  cases val with
  | nil => simp [transportValue, cString]
  | cons a rest =>
    have htext : (∃ more, cString (a :: rest) = 0x31 :: more ∧ EndsParam more) ↔
        a = 0x31 ∧ (rest.getD 0 0 = 0 ∨ rest.getD 0 0 = 0x26) := by
      rw [← endsParam_cString]
      by_cases ha : a = 0
      · simp [cString, ha]
      · have hcons : cString (a :: rest) = a :: cString rest := by simp [cString, ha]
        rw [hcons]
        simp
    rw [htext]
    unfold transportValue
    simp only [List.getD_cons_zero, List.getD_cons_succ]
    generalize he : rest.getD 0 0 = e
    have hstop (c : UInt8) : c = 0 ∨ c = 0x26 → isDigit c = false := by
      rintro (rfl | rfl) <;> decide
    by_cases ha : isDigit a = true
    · have hread : transportDigits 0 (a :: rest) = transportDigits (a.toNat - 0x30) rest := by
        have hsmall : ¬ 0 * 10 + (a.toNat - 0x30) > 255 := by
          have hlt := a.toNat_lt
          omega
        rw [transportDigits, if_pos ha]
        simp only
        rw [if_neg hsmall, Nat.zero_mul, Nat.zero_add]
      have hfirst : ¬ (a = 0 ∨ a = 0x26) := fun h => by simp [hstop a h] at ha
      have hone : a.toNat - 0x30 = 1 ↔ a = 0x31 := by
        simp only [← UInt8.toNat_inj, UInt8.reduceToNat]
        omega
      rw [if_neg hfirst, if_neg (not_not.mpr ha), hread]
      by_cases hd : isDigit e = true
      · have hne : ¬ (e = 0 ∨ e = 0x26) := fun h => by simp [hstop e h] at hd
        refine iff_of_false ?_ fun h => hne h.2
        by_cases hzero : a = 0x30
        · rw [if_pos ⟨hzero, not_or.mp hne⟩]
          simp
        · rw [if_neg fun h => hzero h.1]
          cases hdigits : transportDigits (a.toNat - 0x30) rest with
          | none => simp
          | some r =>
            obtain ⟨n, c⟩ := r
            have hten := transportDigits_of_digit (he ▸ hd) hdigits
            have hpos : 0x30 < a.toNat := by
              simp only [isDigit, UInt8.le_iff_toNat_le, decide_eq_true_eq] at ha
              simp only [← UInt8.toNat_inj] at hzero
              simp only [UInt8.reduceToNat] at ha hzero
              omega
            have hn : n ≠ 1 := by omega
            simp [hn]
      · rw [transportDigits_of_not_digit _ (by rw [he]; simpa using hd), he]
        by_cases hend : e = 0 ∨ e = 0x26
        · have hnot : ¬ (e ≠ 0 ∧ e ≠ 0x26) := fun hne => hend.elim hne.1 hne.2
          simp only [hnot, and_false, if_false, hend, and_true, hone]
          split_ifs with h <;> simp [h]
        · have hboth : e ≠ 0 ∧ e ≠ 0x26 := not_or.mp hend
          simp [hboth]
    · have hne : a ≠ 0x31 := by
        rintro rfl
        exact ha (by decide)
      simp [ha, hne]

/-- The mode, by the string of the query. -/
theorem t3SecretTransportMode_eq (s : T3SecretBlocks) :
    t3SecretTransportMode (some s) = .httpStream ↔
      ∃ more, s.query.text = ascii "t=1" ++ more ∧ EndsParam more := by
  have hkey : ascii "t=1" = [0x74, 0x3D, 0x31] := by decide
  unfold t3SecretTransportMode HeapString.text
  simp only
  by_cases hprefix : (ascii "t=").isPrefixOf s.query.block = true
  · obtain ⟨val, hval⟩ := List.isPrefixOf_iff_prefix.mp hprefix
    have hblock : s.query.block = 0x74 :: 0x3D :: val := hval.symm
    have htext : cString s.query.block = 0x74 :: 0x3D :: cString val := by
      rw [hblock]
      simp [cString]
    rw [if_neg (by simp [hblock]), if_neg (not_not.mpr hprefix), htext, hblock, hkey]
    simp only [List.drop_succ_cons, List.drop_zero, transportValue_iff]
    simp
  · have hws : ¬ ∃ more, cString s.query.block = ascii "t=1" ++ more ∧ EndsParam more := by
      rintro ⟨more, hmore, -⟩
      have hpre : ascii "t=" <+: cString s.query.block := by
        rw [hmore]
        exact ⟨0x31 :: more, rfl⟩
      exact hprefix (List.isPrefixOf_iff_prefix.mpr (hpre.trans <| cString_prefix _))
    refine iff_of_false ?_ hws
    rw [if_pos hprefix]
    split_ifs <;> simp

/-- **The rule for the mode of an HTTP stream**: a `?` before any `#`, with `t=1` behind it, and
then the end of the domain, of the parameter or of the query. -/
def IsStreamDomain (domain : Bytes) : Prop :=
  ∃ before after more, domain = before ++ 0x3F :: after ∧ IsPlain before ∧
    after = ascii "t=1" ++ more ∧ (EndsParam more ∨ more.head? = some 0x23)

/-- The first `?` or `#` of a domain stands at one place. -/
theorem IsPlain.append_inj {p q r t : Bytes} {c d : UInt8} (hp : IsPlain p) (hq : IsPlain q)
    (hc : IsSpecial c) (hd : IsSpecial d) (h : p ++ c :: r = q ++ d :: t) :
    p = q ∧ c = d ∧ r = t := by
  have hno {a : UInt8} {l : Bytes} (hl : IsPlain (a :: l)) : ¬ IsSpecial a := by
    rintro (rfl | rfl)
    · exact hl.1 List.mem_cons_self
    · exact hl.2 List.mem_cons_self
  induction p generalizing q with
  | nil =>
    cases q with
    | nil => exact ⟨rfl, List.cons.inj h⟩
    | cons b q => exact absurd ((List.cons.inj h).1 ▸ hc) (hno hq)
  | cons a p ih =>
    cases q with
    | nil => exact absurd ((List.cons.inj h).1 ▸ hd) (hno hp)
    | cons b q =>
      obtain ⟨rfl, htail⟩ := List.cons.inj h
      obtain ⟨rfl, hrest⟩ := ih (isPlain_cons hp) (isPlain_cons hq) htail
      exact ⟨rfl, hrest⟩

/-- The query is what stands behind the `?`, up to the first `#`. -/
theorem IsSuffix.query_eq {after query fragment : Bytes}
    (h : IsSuffix (0x3F :: after) query fragment) (hquery : (0x23 : UInt8) ∉ query) :
    query = after.takeWhile (· ≠ 0x23) := by
  have hall : ∀ c ∈ query, decide (c ≠ 0x23) = true := fun c hc =>
    decide_eq_true fun heq => hquery (heq ▸ hc)
  cases h with
  | query =>
    exact (List.takeWhile_eq_self_iff.mpr hall).symm
  | both =>
    rw [List.takeWhile_append_of_pos hall]
    simp

/-- **The query of a domain gives the mode of its text.** -/
theorem IsSplit.stream_iff {s : T3Secret} (h : IsSplit s) :
    (∃ more, s.query = ascii "t=1" ++ more ∧ EndsParam more) ↔ IsStreamDomain s.domain := by
  obtain ⟨suffix, hparts, hsuffix⟩ := h.parts
  have hplain : IsPlain (s.host ++ s.path) := isPlain_append.mpr ⟨h.host_plain, h.path_plain⟩
  have hquery := h.query_plain
  generalize s.query = query at hsuffix hquery ⊢
  generalize s.fragment = fragment at hsuffix
  constructor
  · rintro ⟨more, rfl, hmore⟩
    cases hsuffix with
    | query => exact ⟨_, _, more, hparts, hplain, rfl, Or.inl hmore⟩
    | both =>
      refine ⟨_, _, more ++ 0x23 :: fragment, hparts, hplain, List.append_assoc _ _ _, ?_⟩
      rcases hmore with rfl | hmore
      · exact Or.inr rfl
      · obtain ⟨rest, rfl⟩ := List.head?_eq_some_iff.mp hmore
        exact Or.inl (Or.inr rfl)
  · rintro ⟨before, after, more, hdomain, hbefore, hafter, hmore⟩
    have hsuffixEq : suffix = 0x3F :: after := by
      rw [hparts] at hdomain
      cases hsuffix with
      | none =>
        rw [List.append_nil] at hdomain
        exact absurd (hdomain ▸ List.mem_append_right _ List.mem_cons_self) hplain.1
      | query =>
        obtain ⟨-, -, rfl⟩ := hplain.append_inj hbefore (Or.inl rfl) (Or.inl rfl) hdomain
        rfl
      | fragment =>
        obtain ⟨-, hne, -⟩ := hplain.append_inj hbefore (Or.inr rfl) (Or.inl rfl) hdomain
        exact absurd hne (by decide)
      | both =>
        obtain ⟨-, -, rfl⟩ := hplain.append_inj hbefore (Or.inl rfl) (Or.inl rfl) hdomain
        rfl
    rw [hsuffixEq] at hsuffix
    have hbytes : ascii "t=1" = [0x74, 0x3D, 0x31] := by decide
    have hkey : ∀ c ∈ ascii "t=1", decide (c ≠ 0x23) = true := by
      rw [hbytes]
      simp
    refine ⟨more.takeWhile (· ≠ 0x23), ?_, ?_⟩
    · rw [hsuffix.query_eq hquery, hafter, List.takeWhile_append_of_pos hkey]
    · rcases hmore with (rfl | hmore) | hmore
      · exact Or.inl rfl
      · obtain ⟨rest, rfl⟩ := List.head?_eq_some_iff.mp hmore
        exact Or.inr (by simp)
      · obtain ⟨rest, rfl⟩ := List.head?_eq_some_iff.mp hmore
        exact Or.inl (by simp)

/-- **The mode of a secret is that of its text**: an HTTP stream exactly by the rule, and a
WebSocket stream otherwise. -/
theorem t3SecretTransportMode_iff (buf : Bytes) (mallocs : ℕ) (b : T3SecretBlocks)
    (h : t3SecretParseBlocks (some buf) buf.length mallocs = .ok b) :
    (t3SecretTransportMode (some b) = .httpStream ↔ IsStreamDomain (buf.drop 17)) ∧
      (t3SecretTransportMode (some b) = .ws ↔ ¬ IsStreamDomain (buf.drop 17)) := by
  obtain ⟨s, hholds, -, hsplit, -, hdomain⟩ := t3SecretParseBlocks_ok h
  have hiff : t3SecretTransportMode (some b) = .httpStream ↔ IsStreamDomain (buf.drop 17) := by
    rw [t3SecretTransportMode_eq, hholds.query.text, hsplit.stream_iff, hdomain]
  refine ⟨hiff, ?_⟩
  rw [← hiff]
  cases t3SecretTransportMode (some b) <;> simp

/-- The secret of `a?t=1#x` is one of an HTTP stream. -/
theorem t3SecretTransportMode_iff_sample :
    (T3Transport.httpStream = .httpStream ↔
        IsStreamDomain ((secretOf (ascii "a?t=1#x")).drop 17)) ∧
      (T3Transport.httpStream = .ws ↔
        ¬ IsStreamDomain ((secretOf (ascii "a?t=1#x")).drop 17)) :=
  t3SecretTransportMode_iff (secretOf (ascii "a?t=1#x")) 7
    ⟨sampleKey, .copy (ascii "a?t=1#x"), (HeapString.copy (ascii "a?t=1#x")).cut 1, .copy [],
      .copy (ascii "t=1"), .copy (ascii "x")⟩ (by decide +kernel)

end Wire
end Teleproto3
