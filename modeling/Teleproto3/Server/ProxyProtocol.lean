/-
# The header of the PROXY protocol

`proxy_protocol_parse` of `server/src/net/net-proxy-protocol.c`, with `parse_v1` for the header in
text and `parse_v2` for the one in binary form.  A balancer in front of the server puts such a
header before the bytes of the client and says in it where the client is.

A header is *valid* here when the parser takes the whole of it.  Such a header is found wherever
its end is followed by anything else (`proxyProtocolParse_append`), and as long as it is not
complete the parser asks for more (`proxyProtocolParse_prefix`), so that it does not matter how
it is cut into reads.

`inet_pton` comes from the system; `inetPton4` and `inetPton6` stand for it, with the address in
host byte order or as 16 bytes.
-/

import Teleproto3.Lib.CString
import Teleproto3.Server.ExtServer

namespace Teleproto3
namespace Server

open Lib

/-! ### The parser -/

/-- `atoi`, as `(int) strtol (s, NULL, 10)`: what does not fit a `long` becomes the nearest that
does. -/
def atoi (s : Bytes) : ℤ :=
  let s := s.dropWhile isSpace
  let digits (s : Bytes) : ℤ :=
    (s.takeWhile isDigit).foldl (fun v b => v * 10 + ((b.toNat : ℤ) - 0x30)) 0
  let long (v : ℤ) : ℤ := max (-2 ^ 63) (min v (2 ^ 63 - 1))
  wrap32 (long (match s with
    | 0x2D :: s => -digits s
    | 0x2B :: s => digits s
    | s => digits s))

/-- `pp2_signature`. -/
def pp2Signature : Bytes :=
  [0x0D, 0x0A, 0x0D, 0x0A, 0x00, 0x0D, 0x0A, 0x51, 0x55, 0x49, 0x54, 0x0A]

section Parse

variable (inetPton4 : Bytes → Option ℕ) (inetPton6 : Bytes → Option Bytes)

/-- The address a header in text form states, from the string behind the family: the source, the
destination, which is passed over, and the port of the source. -/
def v1Address (source : Bytes → Option RemoteAddr) (p : Bytes) : Option RemoteAddr :=
  (findSub [0x20] p).bind fun sp =>
    (source (p.take sp)).bind fun addr =>
      let p := p.drop (sp + 1)
      (findSub [0x20] p).bind fun sp =>
        let p := p.drop (sp + 1)
        (findSub [0x20] p).map fun sp =>
          { addr with port := (atoi (p.take sp) % 2 ^ 16).toNat }

/-- `inet_pton (AF_INET, …)`. -/
def v1Source4 (p : Bytes) : Option RemoteAddr :=
  (inetPton4 p).map fun ip => ⟨ip, List.replicate 16 0, 0, false⟩

/-- `inet_pton (AF_INET6, …)`. -/
def v1Source6 (p : Bytes) : Option RemoteAddr :=
  (inetPton6 p).map fun ipv6 => ⟨0, ipv6, 0, true⟩

/-- A header in text form, from the string behind `PROXY` and the number of its bytes. -/
def v1Header (headerLen : ℕ) (p : Bytes) : ProxyProtocol :=
  if p.take 7 = ascii "UNKNOWN" then .header headerLen none
  else if p.take 5 = ascii "TCP4 " then
    match v1Address (v1Source4 inetPton4) (p.drop 5) with
    | none => .malformed
    | some addr => .header headerLen (some addr)
  else if p.take 5 = ascii "TCP6 " then
    match v1Address (v1Source6 inetPton6) (p.drop 5) with
    | none => .malformed
    | some addr => .header headerLen (some addr)
  else .malformed

/-- `parse_v1`.  The line ends within the first 108 bytes. -/
def parseV1 (inp : Bytes) : ProxyProtocol :=
  if inp.length < 15 then .needMore
  else
    match findSub crlf ((inp.take 108).drop 6) with
    | none => if 108 ≤ inp.length then .malformed else .needMore
    | some i => v1Header inetPton4 inetPton6 (i + 8) (cString (((inp.take 108).drop 6).take i))

/-- The address a header in binary form states. -/
def v2Address (fam addrLen : ℕ) (inp : Bytes) : Option RemoteAddr :=
  if fam = 1 ∧ 12 ≤ addrLen then
    some ⟨beValue ((inp.drop 16).take 4), List.replicate 16 0, beValue ((inp.drop 24).take 2), false⟩
  else if fam = 2 ∧ 36 ≤ addrLen then
    some ⟨0, (inp.drop 16).take 16, beValue ((inp.drop 48).take 2), true⟩
  else none

/-- `parse_v2`. -/
def parseV2 (inp : Bytes) : ProxyProtocol :=
  if inp.length < 16 then .needMore
  else
    let verCmd := (inp.getD 12 0).toNat
    let fam := (inp.getD 13 0).toNat / 16
    let addrLen := beValue ((inp.drop 14).take 2)
    if verCmd / 16 ≠ 2 then .malformed
    else if 1 < verCmd % 16 then .malformed
    else if inp.length < 16 + addrLen then .needMore
    else .header (16 + addrLen) (if verCmd % 16 = 0 then none else v2Address fam addrLen inp)

/-- `proxy_protocol_parse`. -/
def proxyProtocolParse (inp : Bytes) : ProxyProtocol :=
  if inp.length < 6 then .needMore
  else if inp.take 6 = ascii "PROXY " then parseV1 inetPton4 inetPton6 inp
  else if inp.length < 12 then .needMore
  else if inp.take 12 = pp2Signature then parseV2 inp
  else .malformed

/-- A header: the parser takes the whole of it. -/
def ValidHeader (p : Bytes) (addr : Option RemoteAddr) : Prop :=
  proxyProtocolParse inetPton4 inetPton6 p = .header p.length addr

end Parse

/-! ### Valid headers -/

section Valid

variable {inetPton4 : Bytes → Option ℕ} {inetPton6 : Bytes → Option Bytes}
variable {p q : Bytes} {addr : Option RemoteAddr}

/-- The number of bytes is that of the line. -/
theorem v1Header_consumed {n m : ℕ} {s : Bytes}
    (h : v1Header inetPton4 inetPton6 n s = .header m addr) : m = n := by
  unfold v1Header at h
  split_ifs at h
  · cases h
    rfl
  · cases hsource : v1Address (v1Source4 inetPton4) (s.drop 5) with
    | none =>
      rw [hsource] at h
      exact nomatch h
    | some a =>
      rw [hsource] at h
      cases h
      rfl
  · cases hsource : v1Address (v1Source6 inetPton6) (s.drop 5) with
    | none =>
      rw [hsource] at h
      exact nomatch h
    | some a =>
      rw [hsource] at h
      cases h
      rfl

variable (inetPton4 inetPton6 p addr) in
/-- A header in text form: its line ends at its last two bytes. -/
structure IsV1 : Prop where
  signature : p.take 6 = ascii "PROXY "
  long : 15 ≤ p.length
  short : p.length ≤ 108
  line : findSub crlf (p.drop 6) = some (p.length - 8)
  content : v1Header inetPton4 inetPton6 p.length (cString ((p.drop 6).take (p.length - 8))) =
    .header p.length addr

variable (p addr) in
/-- A header in binary form: it is as long as it says. -/
structure IsV2 : Prop where
  signature : p.take 12 = pp2Signature
  version : (p.getD 12 0).toNat / 16 = 2
  command : ¬ 1 < (p.getD 12 0).toNat % 16
  length : p.length = 16 + beValue ((p.drop 14).take 2)
  content : (if (p.getD 12 0).toNat % 16 = 0 then none
    else v2Address ((p.getD 13 0).toNat / 16) (beValue ((p.drop 14).take 2)) p) = addr

/-- **The two forms of a header.** -/
theorem ValidHeader.form (h : ValidHeader inetPton4 inetPton6 p addr) :
    IsV1 inetPton4 inetPton6 p addr ∨ IsV2 p addr := by
  unfold ValidHeader proxyProtocolParse at h
  split_ifs at h with h6 hv1 h12 hv2
  · left
    unfold parseV1 at h
    have h15 : ¬ p.length < 15 := by
      intro hlt
      rw [if_pos hlt] at h
      exact nomatch h
    rw [if_neg h15] at h
    cases hfind : findSub crlf ((p.take 108).drop 6) with
    | none =>
      rw [hfind] at h
      dsimp only at h
      split_ifs at h
    | some i =>
      rw [hfind] at h
      dsimp only at h
      have hi : p.length = i + 8 := v1Header_consumed h
      have hlen := (findSub_some hfind).2
      rw [List.length_drop, List.length_take, crlf_length] at hlen
      have hshort : p.length ≤ 108 := by omega
      rw [List.take_of_length_le hshort] at hfind h
      have hsub : p.length - 8 = i := by omega
      refine ⟨hv1, not_lt.mp h15, hshort, by rw [hsub]; exact hfind, ?_⟩
      rw [hsub, hi]
      rw [hi] at h
      exact h
  · right
    unfold parseV2 at h
    split_ifs at h with h16
    dsimp only at h
    split_ifs at h with hversion hcommand hlength hlocal
    · obtain ⟨hlen, haddr⟩ := ProxyProtocol.header.inj h
      exact ⟨hv2, not_not.mp hversion, hcommand, hlen.symm, by rw [if_pos hlocal]; exact haddr⟩
    · obtain ⟨hlen, haddr⟩ := ProxyProtocol.header.inj h
      exact ⟨hv2, not_not.mp hversion, hcommand, hlen.symm, by rw [if_neg hlocal]; exact haddr⟩

/-- The address is in the header. -/
theorem v2Address_append {fam addrLen : ℕ} (h : 16 + addrLen ≤ p.length) (y : Bytes) :
    v2Address fam addrLen (p ++ y) = v2Address fam addrLen p := by
  have hpart {i n : ℕ} (hn : i + n ≤ p.length) : ((p ++ y).drop i).take n = (p.drop i).take n := by
    rw [List.drop_append_of_le_length (by omega), List.take_append_of_le_length]
    rw [List.length_drop]
    omega
  unfold v2Address
  by_cases h4 : fam = 1 ∧ 12 ≤ addrLen
  · rw [if_pos h4, if_pos h4, hpart (by omega), hpart (by omega)]
  · rw [if_neg h4, if_neg h4]
    by_cases h6 : fam = 2 ∧ 36 ≤ addrLen
    · rw [if_pos h6, if_pos h6, hpart (by omega), hpart (by omega)]
    · rw [if_neg h6, if_neg h6]

/-- **A header is found whatever follows it.** -/
theorem proxyProtocolParse_append (h : ValidHeader inetPton4 inetPton6 p addr) (y : Bytes) :
    proxyProtocolParse inetPton4 inetPton6 (p ++ y) = .header p.length addr := by
  unfold proxyProtocolParse
  rcases h.form with hv | hv
  · have hlong := hv.long
    have hshort := hv.short
    have hlen : (p ++ y).length = p.length + y.length := List.length_append
    have htake : (p ++ y).take 6 = ascii "PROXY " := by
      rw [List.take_append_of_le_length (by omega), hv.signature]
    have hbuf : ((p ++ y).take 108).drop 6 = p.drop 6 ++ y.take (108 - p.length) := by
      rw [List.take_append, List.take_of_length_le hshort, List.drop_append_of_le_length (by omega)]
    rw [if_neg (by omega), if_pos htake]
    unfold parseV1
    rw [if_neg (by omega), hbuf, findSub_append hv.line]
    dsimp only
    rw [List.take_append_of_le_length (by rw [List.length_drop]; omega),
      show p.length - 8 + 8 = p.length by omega, hv.content]
  · have hlen := hv.length
    have happ : (p ++ y).length = p.length + y.length := List.length_append
    have htake : (p ++ y).take 12 = pp2Signature := by
      rw [List.take_append_of_le_length (by omega), hv.signature]
    have hnot : (p ++ y).take 6 ≠ ascii "PROXY " := by
      have hsix : (p ++ y).take 6 = pp2Signature.take 6 := by
        rw [← htake, List.take_take]
        rfl
      rw [hsix]
      decide
    have hget {i : ℕ} (hi : i < 16) : (p ++ y).getD i 0 = p.getD i 0 := by
      rw [List.getD_append _ _ _ _ (by omega)]
    have hlength : ((p ++ y).drop 14).take 2 = (p.drop 14).take 2 := by
      rw [List.drop_append_of_le_length (by omega), List.take_append_of_le_length]
      rw [List.length_drop]
      omega
    rw [if_neg (by omega), if_neg hnot, if_neg (by omega), if_pos htake]
    unfold parseV2
    rw [if_neg (by omega)]
    dsimp only
    rw [hget (by omega), hget (by omega), hlength, if_neg (not_not.mpr hv.version),
      if_neg hv.command, if_neg (by omega), v2Address_append hlen.ge, hv.content, ← hlen]

example : proxyProtocolParse (fun _ => some 0x01020304) (fun _ => none)
    (ascii "PROXY TCP4 1.2.3.4 5.6.7.8 5000 443\r\nGET") =
      .header 37 (some ⟨0x01020304, List.replicate 16 0, 5000, false⟩) := rfl

/-- **As long as it is not complete, the parser asks for more.** -/
theorem proxyProtocolParse_prefix (h : ValidHeader inetPton4 inetPton6 p addr) (hq : q <+: p)
    (hlt : q.length < p.length) : proxyProtocolParse inetPton4 inetPton6 q = .needMore := by
  obtain ⟨more, rfl⟩ := hq
  have htake {n : ℕ} (hn : n ≤ q.length) : q.take n = (q ++ more).take n :=
    (List.take_append_of_le_length hn).symm
  unfold proxyProtocolParse
  by_cases h6 : q.length < 6
  · rw [if_pos h6]
  rw [if_neg h6, htake (not_lt.mp h6)]
  rcases h.form with hv | hv
  · rw [if_pos hv.signature]
    unfold parseV1
    by_cases h15 : q.length < 15
    · rw [if_pos h15]
    · have hshort := hv.short
      have hline : findSub crlf (q.drop 6) = none := by
        refine findSub_of_prefix hv.line ?_ ?_
        · rw [List.drop_append_of_le_length (by omega)]
          exact List.prefix_append _ _
        · rw [List.length_drop, crlf_length]
          omega
      rw [if_neg h15, List.take_of_length_le (by omega), hline]
      dsimp only
      rw [if_neg (by omega)]
  · have hnot : (q ++ more).take 6 ≠ ascii "PROXY " := by
      have hsix : (q ++ more).take 6 = pp2Signature.take 6 := by
        rw [← hv.signature, List.take_take]
        rfl
      rw [hsix]
      decide
    rw [if_neg hnot]
    by_cases h12 : q.length < 12
    · rw [if_pos h12]
    · rw [if_neg h12, htake (not_lt.mp h12), if_pos hv.signature]
      unfold parseV2
      by_cases h16 : q.length < 16
      · rw [if_pos h16]
      · have hlen := hv.length
        have hget {i : ℕ} (hi : i < 16) : q.getD i 0 = (q ++ more).getD i 0 := by
          rw [List.getD_append _ _ _ _ (by omega)]
        have hlength : (q.drop 14).take 2 = ((q ++ more).drop 14).take 2 := by
          rw [List.drop_append_of_le_length (by omega), List.take_append_of_le_length]
          rw [List.length_drop]
          omega
        rw [if_neg h16]
        dsimp only
        rw [hget (by omega), hlength, if_neg (not_not.mpr hv.version), if_neg hv.command,
          if_pos (by omega)]

theorem ValidHeader.long (h : ValidHeader inetPton4 inetPton6 p addr) : 15 ≤ p.length := by
  rcases h.form with hv | hv
  · exact hv.long
  · have := hv.length
    omega

/-- **A header starts no request**, whatever follows it. -/
theorem ValidHeader.notRequest (h : ValidHeader inetPton4 inetPton6 p addr) (y : Bytes) :
    ¬ ascii "GET" <+: p ++ y ∧ ¬ ascii "POST" <+: p ++ y := by
  have hlong := h.long
  have htake : p.take 4 = ascii "PROX" ∨ p.take 4 = headersEnd := by
    rcases h.form with hv | hv
    · left
      have hfour : p.take 4 = (p.take 6).take 4 := by rw [List.take_take, Nat.min_eq_left (by decide)]
      rw [hfour, hv.signature]
      rfl
    · right
      have hfour : p.take 4 = (p.take 12).take 4 := by
        rw [List.take_take, Nat.min_eq_left (by decide)]
      rw [hfour, hv.signature]
      rfl
  have hstart {lit : Bytes} (hle : lit.length ≤ 4) (hpre : lit <+: p ++ y) :
      lit <+: p.take 4 := by
    refine List.prefix_of_prefix_length_le hpre
      ((List.take_prefix 4 p).trans (List.prefix_append p y)) ?_
    rw [List.length_take]
    omega
  constructor
  · intro hget
    have hpre := hstart (by decide) hget
    rcases htake with hp | hp
    · rw [hp] at hpre
      exact absurd hpre (by decide)
    · rw [hp] at hpre
      exact absurd hpre (by decide)
  · intro hpost
    have hpre := hstart (by decide) hpost
    rcases htake with hp | hp
    · rw [hp] at hpre
      exact absurd hpre (by decide)
    · rw [hp] at hpre
      exact absurd hpre (by decide)

end Valid

end Server
end Teleproto3
