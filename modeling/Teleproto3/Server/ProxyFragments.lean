/-
# The PROXY header in fragments

What a call of `proxy_protocol_parse` does to the buffer, with its assertions: it looks at bytes by
`rwm_fetch_lookup`, and where it has found a header it removes it by `rwm_skip_data`.

A call on part of a stream asks for more or says what it says of the whole
(`proxyProtocolParse_stable`); what it removes is the header and nothing else, and no assertion
fails (`proxyProtocolCall_eq`).  `proxyProtocol_fragments` puts the two together.
-/

import Teleproto3.Server.ProxyProtocol

namespace Teleproto3
namespace Server

open Lib

/-! ### A call -/

/-- `rwm_fetch_lookup`: the bytes it copies, as many as it returns. -/
def rwmFetchLookup (inp : Bytes) (n : ℕ) : Bytes := inp.take n

/-- `rwm_skip_data`: the number it returns, and the bytes that are left. -/
def rwmSkipData (inp : Bytes) (n : ℕ) : ℕ × Bytes := (min n inp.length, inp.drop n)

/-- What a call returns: its value, the address in `out`, which has one only behind a header, and
the buffer. -/
structure ProxyReturn where
  value : ℤ
  addr : Option RemoteAddr
  inp : Bytes
  deriving DecidableEq, Repr

/-- `return 0` and `return -1`. -/
def ProxyReturn.keep (value : ℤ) (inp : Bytes) : ProxyReturn := ⟨value, none, inp⟩

/-- `assert (rwm_skip_data (in, n) == n); return n;`. -/
def skipHeader (inp : Bytes) (n : ℕ) (addr : Option RemoteAddr) : Option ProxyReturn :=
  let (skipped, rest) := rwmSkipData inp n
  if skipped = n then some ⟨n, addr, rest⟩ else none

section Call

variable (inetPton4 : Bytes → Option ℕ) (inetPton6 : Bytes → Option Bytes)

/-- `parse_v1` on the buffer; there is no value where an assertion fails. -/
def parseV1Call (inp : Bytes) : Option ProxyReturn :=
  if inp.length < 15 then some (.keep 0 inp)
  else
    let buf := rwmFetchLookup inp (min inp.length 108)
    match findSub crlf (buf.drop 6) with
    | none => if 108 ≤ buf.length then some (.keep (-1) inp) else some (.keep 0 inp)
    | some i =>
      match v1Header inetPton4 inetPton6 (i + 8) (cString ((buf.drop 6).take i)) with
      | .header n addr => skipHeader inp n addr
      | .malformed => some (.keep (-1) inp)
      | .needMore => some (.keep 0 inp)

/-- The address of `parse_v2`, with the assertions that the bytes looked at are there. -/
def v2AddressCall (fam addrLen : ℕ) (inp : Bytes) : Option (Option RemoteAddr) :=
  if fam = 1 ∧ 12 ≤ addrLen then
    let full := rwmFetchLookup inp 28
    if full.length = 28 then some (v2Address fam addrLen full) else none
  else if fam = 2 ∧ 36 ≤ addrLen then
    let full := rwmFetchLookup inp 52
    if full.length = 52 then some (v2Address fam addrLen full) else none
  else some none

/-- `parse_v2` on the buffer. -/
def parseV2Call (inp : Bytes) : Option ProxyReturn :=
  if inp.length < 16 then some (.keep 0 inp)
  else
    let hdr := rwmFetchLookup inp 16
    if hdr.length = 16 then
      let verCmd := (hdr.getD 12 0).toNat
      let addrLen := (hdr.getD 14 0).toNat * 256 + (hdr.getD 15 0).toNat
      if verCmd / 16 ≠ 2 then some (.keep (-1) inp)
      else if 1 < verCmd % 16 then some (.keep (-1) inp)
      else if inp.length < 16 + addrLen then some (.keep 0 inp)
      else if verCmd % 16 = 0 then skipHeader inp (16 + addrLen) none
      else
        (v2AddressCall ((hdr.getD 13 0).toNat / 16) addrLen inp).bind
          (skipHeader inp (16 + addrLen))
    else none

/-- `proxy_protocol_parse` on the buffer. -/
def proxyProtocolCall (inp : Bytes) : Option ProxyReturn :=
  if inp.length < 6 then some (.keep 0 inp)
  else
    let peek := rwmFetchLookup inp (min inp.length 12)
    if peek.take 6 = ascii "PROXY " then parseV1Call inetPton4 inetPton6 inp
    else if 12 ≤ peek.length ∧ peek = pp2Signature then parseV2Call inp
    else if peek.length < 12 then some (.keep 0 inp)
    else some (.keep (-1) inp)

end Call

/-- What a verdict is as a value, and what is left of the buffer. -/
def ProxyProtocol.returns (inp : Bytes) : ProxyProtocol → ProxyReturn
  | .needMore => .keep 0 inp
  | .malformed => .keep (-1) inp
  | .header n addr => ⟨n, addr, inp.drop n⟩

section Frame

variable {inetPton4 : Bytes → Option ℕ} {inetPton6 : Bytes → Option Bytes}

/-! ### Verdicts -/

/-- The first line of a header in text form is where it is with more bytes behind it. -/
theorem window_append {p : Bytes} (y : Bytes) :
    ∃ z, ((p ++ y).take 108).drop 6 = (p.take 108).drop 6 ++ z := by
  refine ⟨((y.take (108 - p.length))).drop (6 - (p.take 108).length), ?_⟩
  rw [List.take_append, List.drop_append]

/-- **A header in text form is what it is, once it is complete or too long.** -/
theorem parseV1_stable {p : Bytes} (y : Bytes) (h : parseV1 inetPton4 inetPton6 p ≠ .needMore) :
    parseV1 inetPton4 inetPton6 (p ++ y) = parseV1 inetPton4 inetPton6 p := by
  obtain ⟨z, hz⟩ := window_append (p := p) y
  unfold parseV1 at h ⊢
  by_cases hshort : p.length < 15
  · rw [if_pos hshort] at h
    exact absurd rfl h
  have hlen : (p ++ y).length = p.length + y.length := List.length_append
  rw [if_neg hshort] at h ⊢
  rw [if_neg (by omega)]
  cases hfind : findSub crlf ((p.take 108).drop 6) with
  | none =>
    rw [hfind] at h
    dsimp only at h ⊢
    by_cases hlong : 108 ≤ p.length
    · rw [List.take_append_of_le_length hlong, hfind]
      dsimp only
      rw [if_pos hlong, if_pos (by omega)]
    · rw [if_neg hlong] at h
      exact absurd rfl h
  | some i =>
    have hle := (findSub_some hfind).2
    rw [hz, findSub_append hfind]
    dsimp only
    rw [List.take_append_of_le_length (by omega)]

/-- **So is one in binary form**, once it is complete or malformed. -/
theorem parseV2_stable {p : Bytes} (y : Bytes) (h : parseV2 p ≠ .needMore) :
    parseV2 (p ++ y) = parseV2 p := by
  unfold parseV2 at h ⊢
  by_cases hshort : p.length < 16
  · rw [if_pos hshort] at h
    exact absurd rfl h
  have hlen : (p ++ y).length = p.length + y.length := List.length_append
  have hget {i : ℕ} (hi : i < 16) : (p ++ y).getD i 0 = p.getD i 0 :=
    List.getD_append _ _ _ _ (by omega)
  have hdeclared : ((p ++ y).drop 14).take 2 = (p.drop 14).take 2 := by
    rw [List.drop_append_of_le_length (by omega), List.take_append_of_le_length]
    rw [List.length_drop]
    omega
  rw [if_neg hshort] at h ⊢
  rw [if_neg (by omega)]
  dsimp only at h ⊢
  rw [hget (by omega), hget (by omega), hdeclared]
  by_cases hversion : (p.getD 12 0).toNat / 16 ≠ 2
  · rw [if_pos hversion, if_pos hversion]
  rw [if_neg hversion] at h ⊢
  rw [if_neg hversion]
  by_cases hcommand : 1 < (p.getD 12 0).toNat % 16
  · rw [if_pos hcommand, if_pos hcommand]
  rw [if_neg hcommand] at h ⊢
  rw [if_neg hcommand]
  by_cases hpart : p.length < 16 + beValue ((p.drop 14).take 2)
  · rw [if_pos hpart] at h
    exact absurd rfl h
  · rw [if_neg hpart, if_neg (by omega), v2Address_append (not_lt.mp hpart)]

variable (inetPton4 inetPton6) in
/-- **A verdict on part of a stream is that on the whole**, unless more is asked for. -/
theorem proxyProtocolParse_stable (p y : Bytes) :
    proxyProtocolParse inetPton4 inetPton6 p = .needMore ∨
      proxyProtocolParse inetPton4 inetPton6 (p ++ y) =
        proxyProtocolParse inetPton4 inetPton6 p := by
  rw [or_iff_not_imp_left]
  intro h
  have hlen : (p ++ y).length = p.length + y.length := List.length_append
  unfold proxyProtocolParse at h ⊢
  by_cases h6 : p.length < 6
  · rw [if_pos h6] at h
    exact absurd rfl h
  have htake6 : (p ++ y).take 6 = p.take 6 := List.take_append_of_le_length (not_lt.mp h6)
  rw [if_neg h6] at h ⊢
  rw [if_neg (by omega), htake6]
  by_cases hv1 : p.take 6 = ascii "PROXY "
  · rw [if_pos hv1] at h ⊢
    rw [if_pos hv1]
    exact parseV1_stable y h
  rw [if_neg hv1] at h ⊢
  rw [if_neg hv1]
  by_cases h12 : p.length < 12
  · rw [if_pos h12] at h
    exact absurd rfl h
  have htake12 : (p ++ y).take 12 = p.take 12 := List.take_append_of_le_length (not_lt.mp h12)
  rw [if_neg h12] at h ⊢
  rw [if_neg (by omega), htake12]
  by_cases hv2 : p.take 12 = pp2Signature
  · rw [if_pos hv2] at h ⊢
    rw [if_pos hv2]
    exact parseV2_stable y h
  · rw [if_neg hv2, if_neg hv2]

/-! ### Lengths -/

/-- **The length of a header**: up to the first line break behind `PROXY`, or the number of bytes
that is declared. -/
def HeaderLength (s : Bytes) (n : ℕ) : Prop :=
  (s.take 6 = ascii "PROXY " ∧ ∃ i, findSub crlf (s.drop 6) = some i ∧ n = 6 + i + 2) ∨
    s.take 12 = pp2Signature ∧ n = 16 + beValue ((s.drop 14).take 2)

/-- A header that is found has its length, and is there. -/
theorem proxyProtocolParse_length {s : Bytes} {n : ℕ} {addr : Option RemoteAddr}
    (h : proxyProtocolParse inetPton4 inetPton6 s = .header n addr) :
    HeaderLength s n ∧ n ≤ s.length := by
  unfold proxyProtocolParse at h
  split_ifs at h with h6 hv1 h12 hv2
  · unfold parseV1 at h
    by_cases h15 : s.length < 15
    · rw [if_pos h15] at h
      cases h
    rw [if_neg h15] at h
    cases hfind : findSub crlf ((s.take 108).drop 6) with
    | none =>
      rw [hfind] at h
      dsimp only at h
      split_ifs at h
    | some i =>
      rw [hfind] at h
      obtain rfl := v1Header_consumed h
      have hle := (findSub_some hfind).2
      rw [List.length_drop, List.length_take, crlf_length] at hle
      have hwhole : findSub crlf (s.drop 6) = some i := by
        have hsplit : s.drop 6 = (s.take 108).drop 6 ++ s.drop 108 := by
          conv_lhs => rw [← List.take_append_drop 108 s]
          rw [List.drop_append_of_le_length]
          rw [List.length_take]
          omega
        rw [hsplit]
        exact findSub_append hfind _
      exact ⟨Or.inl ⟨hv1, i, hwhole, by omega⟩, by omega⟩
  · unfold parseV2 at h
    split_ifs at h with h16
    dsimp only at h
    split_ifs at h with hversion hcommand hpart hlocal
    · obtain ⟨rfl, -⟩ := ProxyProtocol.header.inj h
      exact ⟨Or.inr ⟨hv2, rfl⟩, not_lt.mp hpart⟩
    · obtain ⟨rfl, -⟩ := ProxyProtocol.header.inj h
      exact ⟨Or.inr ⟨hv2, rfl⟩, not_lt.mp hpart⟩

/-! ### The buffer -/

theorem skipHeader_eq {inp : Bytes} {n : ℕ} (hn : n ≤ inp.length) (addr : Option RemoteAddr) :
    skipHeader inp n addr = some ((ProxyProtocol.header n addr).returns inp) := by
  unfold skipHeader rwmSkipData
  dsimp only
  rw [if_pos (Nat.min_eq_left hn)]
  rfl

/-- No more bytes are asked for than there are. -/
theorem rwmFetchLookup_min (inp : Bytes) (n : ℕ) :
    rwmFetchLookup inp (min inp.length n) = inp.take n := by
  unfold rwmFetchLookup
  rcases le_total inp.length n with h | h
  · rw [Nat.min_eq_left h, List.take_of_length_le h, List.take_length]
  · rw [Nat.min_eq_right h]

theorem parseV1Call_eq (inp : Bytes) : parseV1Call inetPton4 inetPton6 inp =
    some ((parseV1 inetPton4 inetPton6 inp).returns inp) := by
  have hbuf := rwmFetchLookup_min inp 108
  have hlen : 108 ≤ (inp.take 108).length ↔ 108 ≤ inp.length := by
    rw [List.length_take]
    omega
  unfold parseV1Call parseV1
  by_cases h15 : inp.length < 15
  · rw [if_pos h15, if_pos h15]
    rfl
  rw [if_neg h15, if_neg h15, hbuf]
  dsimp only
  cases hfind : findSub crlf ((inp.take 108).drop 6) with
  | none =>
    dsimp only
    by_cases hlong : 108 ≤ inp.length
    · rw [if_pos hlong, if_pos (hlen.mpr hlong)]
      rfl
    · rw [if_neg hlong, if_neg (mt hlen.mp hlong)]
      rfl
  | some i =>
    have hle := (findSub_some hfind).2
    rw [List.length_drop, List.length_take, crlf_length] at hle
    dsimp only
    cases hheader : v1Header inetPton4 inetPton6 (i + 8)
        (cString (((inp.take 108).drop 6).take i)) with
    | needMore => rfl
    | malformed => rfl
    | header n addr =>
      obtain rfl := v1Header_consumed hheader
      exact skipHeader_eq (by omega) addr

/-- The addresses that are looked at are those in the header. -/
theorem v2AddressCall_eq {fam addrLen : ℕ} {inp : Bytes} (h : 16 + addrLen ≤ inp.length) :
    v2AddressCall fam addrLen inp = some (v2Address fam addrLen inp) := by
  have hpart {i n m : ℕ} (hn : i + n ≤ m) : ((inp.take m).drop i).take n = (inp.drop i).take n := by
    rw [List.drop_take, List.take_take, Nat.min_eq_left (by omega)]
  unfold v2AddressCall rwmFetchLookup v2Address
  by_cases h4 : fam = 1 ∧ 12 ≤ addrLen
  · have hlen : (inp.take 28).length = 28 := by
      rw [List.length_take]
      omega
    rw [if_pos h4]
    dsimp only
    rw [if_pos hlen, if_pos h4, if_pos h4, hpart (by decide), hpart (by decide)]
  rw [if_neg h4, if_neg h4]
  by_cases h6 : fam = 2 ∧ 36 ≤ addrLen
  · have hlen : (inp.take 52).length = 52 := by
      rw [List.length_take]
      omega
    rw [if_pos h6]
    dsimp only
    rw [if_pos hlen, if_neg h4, if_pos h6, if_pos h6, hpart (by decide), hpart (by decide)]
  · rw [if_neg h6, if_neg h6]

theorem parseV2Call_eq (inp : Bytes) : parseV2Call inp = some ((parseV2 inp).returns inp) := by
  unfold parseV2Call parseV2
  by_cases h16 : inp.length < 16
  · rw [if_pos h16, if_pos h16]
    rfl
  have hlen : (rwmFetchLookup inp 16).length = 16 := by
    unfold rwmFetchLookup
    rw [List.length_take]
    omega
  have hget {i : ℕ} (hi : i < 16) : (rwmFetchLookup inp 16).getD i 0 = inp.getD i 0 := by
    unfold rwmFetchLookup
    simp [List.getD_eq_getElem?_getD, hi]
  have hdeclared : (inp.getD 14 0).toNat * 256 + (inp.getD 15 0).toNat =
      beValue ((inp.drop 14).take 2) := by
    rw [List.drop_eq_getElem_cons (by omega : 14 < inp.length),
      List.drop_eq_getElem_cons (by omega : 15 < inp.length), List.getD_eq_getElem _ _ (by omega),
      List.getD_eq_getElem _ _ (by omega)]
    show _ = (0 * 256 + inp[14].toNat) * 256 + inp[15].toNat
    omega
  rw [if_neg h16, if_neg h16]
  dsimp only
  rw [if_pos hlen, hget (by decide), hget (by decide), hget (by decide), hget (by decide),
    hdeclared]
  by_cases hversion : (inp.getD 12 0).toNat / 16 ≠ 2
  · rw [if_pos hversion, if_pos hversion]
    rfl
  rw [if_neg hversion, if_neg hversion]
  by_cases hcommand : 1 < (inp.getD 12 0).toNat % 16
  · rw [if_pos hcommand, if_pos hcommand]
    rfl
  rw [if_neg hcommand, if_neg hcommand]
  by_cases hpart : inp.length < 16 + beValue ((inp.drop 14).take 2)
  · rw [if_pos hpart, if_pos hpart]
    rfl
  rw [if_neg hpart, if_neg hpart]
  by_cases hlocal : (inp.getD 12 0).toNat % 16 = 0
  · rw [if_pos hlocal, if_pos hlocal]
    exact skipHeader_eq (not_lt.mp hpart) none
  · rw [if_neg hlocal, if_neg hlocal, v2AddressCall_eq (not_lt.mp hpart)]
    exact skipHeader_eq (not_lt.mp hpart) _

variable (inetPton4 inetPton6) in
/-- **No assertion fails**, and a call does to the buffer what its verdict says. -/
theorem proxyProtocolCall_eq (inp : Bytes) :
    proxyProtocolCall inetPton4 inetPton6 inp =
      some ((proxyProtocolParse inetPton4 inetPton6 inp).returns inp) := by
  have hpeek := rwmFetchLookup_min inp 12
  have hsix : (inp.take 12).take 6 = inp.take 6 := by
    rw [List.take_take]
    rfl
  unfold proxyProtocolCall proxyProtocolParse
  by_cases h6 : inp.length < 6
  · rw [if_pos h6, if_pos h6]
    rfl
  rw [if_neg h6, if_neg h6, hpeek]
  dsimp only
  rw [hsix]
  by_cases hv1 : inp.take 6 = ascii "PROXY "
  · rw [if_pos hv1, if_pos hv1]
    exact parseV1Call_eq inp
  rw [if_neg hv1, if_neg hv1]
  by_cases h12 : inp.length < 12
  · have hshort : (inp.take 12).length < 12 := by
      rw [List.length_take]
      omega
    rw [if_neg fun h => absurd h.1 (by omega), if_pos hshort, if_pos h12]
    rfl
  have hlong : (inp.take 12).length = 12 := by
    rw [List.length_take]
    omega
  rw [if_neg h12, hlong]
  by_cases hv2 : inp.take 12 = pp2Signature
  · rw [if_pos ⟨le_rfl, hv2⟩, if_pos hv2]
    exact parseV2Call_eq inp
  · rw [if_neg fun h => hv2 h.2, if_neg hv2, if_neg (lt_irrefl 12)]
    rfl

/-- **What a call returns**: it takes away a header that is complete and nothing else, and changes
nothing where it has none. -/
structure Returned (s : Bytes) (r : ProxyReturn) : Prop where
  value : r.value = 0 ∨ r.value = -1 ∨ 0 < r.value
  header : 0 < r.value → HeaderLength s r.value.toNat ∧ r.value.toNat ≤ s.length ∧
    r.inp = s.drop r.value.toNat
  kept : r.value ≤ 0 → r.inp = s

theorem returns_returned (s : Bytes) :
    Returned s ((proxyProtocolParse inetPton4 inetPton6 s).returns s) := by
  cases h : proxyProtocolParse inetPton4 inetPton6 s with
  | needMore => exact ⟨Or.inl rfl, fun hpos => absurd hpos (lt_irrefl 0), fun _ => rfl⟩
  | malformed =>
    refine ⟨Or.inr (Or.inl rfl), fun hpos => ?_, fun _ => rfl⟩
    have hneg : (0 : ℤ) < -1 := hpos
    omega
  | header n addr =>
    obtain ⟨hlength, hle⟩ := proxyProtocolParse_length h
    have hpos : 0 < n := by
      rcases hlength with ⟨-, i, -, rfl⟩ | ⟨-, rfl⟩
      · omega
      · omega
    refine ⟨Or.inr (Or.inr (Int.natCast_pos.mpr hpos)), fun _ => ⟨hlength, hle, rfl⟩, fun hneg => ?_⟩
    exact absurd (Int.natCast_pos.mpr hpos) (not_lt.mpr hneg)

variable (inetPton4 inetPton6) in
/-- **A PROXY header is parsed as it is, however it is cut into reads**: for every string of bytes
and everything that comes behind it. -/
theorem proxyProtocol_fragments (p y : Bytes) :
    ∃ r r', proxyProtocolCall inetPton4 inetPton6 p = some r ∧
      proxyProtocolCall inetPton4 inetPton6 (p ++ y) = some r' ∧
      (r.value = 0 ∨ r.value = r'.value ∧ r.addr = r'.addr) ∧
      Returned p r ∧ Returned (p ++ y) r' := by
  refine ⟨_, _, proxyProtocolCall_eq inetPton4 inetPton6 p,
    proxyProtocolCall_eq inetPton4 inetPton6 (p ++ y), ?_, returns_returned p,
    returns_returned (p ++ y)⟩
  rcases proxyProtocolParse_stable inetPton4 inetPton6 p y with hmore | hsame
  · rw [hmore]
    exact Or.inl rfl
  · rw [hsame]
    right
    cases proxyProtocolParse inetPton4 inetPton6 p <;> exact ⟨rfl, rfl⟩

end Frame

end Server
end Teleproto3
