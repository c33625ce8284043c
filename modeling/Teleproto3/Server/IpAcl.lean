/-
# The lists of addresses

`server/src/net/net-ip-acl.c`: `ip_acl_parse_cidr`, which makes a rule of a line, the masks it
applies, `ip_acl_load`, and the decision of `ip_acl_check_v4` and `ip_acl_check_v6` on an address.

A rule is for the addresses of its family that agree with its own on the first `prefix_len` bits
(`IpAclRule.Covers`).  The masks are such an agreement for every rule that a line is made into
(`matchV4_iff`, `matchV6_iff`), and the lists decide by it, with one exception: an IPv6 address
that stands for an IPv4 address is looked up in the IPv4 rules only if that address is not 0
(`ipAclCheck_iff`).

`inet_pton` comes from the system; `inetPton4` and `inetPton6` stand for it, with the address in
host byte order or as 16 bytes.
-/

import Teleproto3.Lib.LeadingBits
import Teleproto3.Server.NumberText

namespace Teleproto3
namespace Server

open Lib

/-! ### Rules -/

/-- `family` and `addr` of a rule; an address to be checked. -/
inductive IpAddr
  | v4 (ip : BitVec 32)
  | v6 (ipv6 : Bytes)
  deriving DecidableEq, Repr

/-- `struct ip_acl_rule`. -/
structure IpAclRule where
  prefixLen : ℤ
  addr : IpAddr
  deriving DecidableEq, Repr

/-- `mask_v4`. -/
def maskV4 (addr : BitVec 32) (prefixLen : ℤ) : BitVec 32 :=
  if prefixLen ≤ 0 then 0
  else if prefixLen ≥ 32 then addr
  else addr &&& (0xFFFFFFFF#32 <<< (32 - prefixLen).toNat)

/-- One turn of the loop of `mask_v6`. -/
def maskV6Byte (bits : ℤ) (b : UInt8) : UInt8 :=
  if bits ≥ 8 then b
  else if bits > 0 then b &&& (0xFF <<< UInt8.ofNat (8 - bits).toNat)
  else 0

/-- `mask_v6`. -/
def maskV6 (addr : Bytes) (prefixLen : ℤ) : Bytes :=
  (List.range 16).map fun i : ℕ => maskV6Byte (prefixLen - i * 8) (addr.getD i 0)

section Parse

variable (inetPton4 : Bytes → Option (BitVec 32)) (inetPton6 : Bytes → Option Bytes)

/-- The length `strtol` reads, cut to an `int`, if nothing or white space follows it; a `long` is
as wide as a `long long`. -/
def cidrPrefixLen (t : Bytes) : Option ℤ :=
  let (prefixLen, endptr) := strtoll t
  match endptr with
  | [] => some (wrap32 prefixLen)
  | c :: _ => if isSpace c then some (wrap32 prefixLen) else none

/-- `ip_acl_parse_cidr` once the length is known, if there is one. -/
def cidrRule (s : Bytes) (explicitPrefix : Option ℤ) : Option IpAclRule :=
  match inetPton4 s with
  | some ip =>
    let prefixLen := explicitPrefix.getD 32
    if prefixLen < 0 ∨ prefixLen > 32 then none
    else some ⟨prefixLen, .v4 (maskV4 ip prefixLen)⟩
  | none =>
    match inetPton6 s with
    | some ipv6 =>
      let prefixLen := explicitPrefix.getD 128
      if prefixLen < 0 ∨ prefixLen > 128 then none
      else some ⟨prefixLen, .v6 (maskV6 ipv6 prefixLen)⟩
    | none => none

/-- `ip_acl_parse_cidr`. -/
def ipAclParseCidr (s : Bytes) : Option IpAclRule :=
  match s.dropWhile (· ≠ 0x2F) with
  | [] => cidrRule inetPton4 inetPton6 s none
  | _ :: t =>
    match cidrPrefixLen t with
    | none => none
    | some prefixLen =>
      cidrRule inetPton4 inetPton6 (s.takeWhile (· ≠ 0x2F)) (some prefixLen)

/-- `struct ip_acl`: rules that lines have been made into. -/
structure IpAcl where
  rules : List IpAclRule
  built : ∀ rule ∈ rules, ∃ s, ipAclParseCidr inetPton4 inetPton6 s = some rule

end Parse

/-! ### Decisions -/

/-- `match_v4`. -/
def matchV4 (rule : IpAclRule) (ip : BitVec 32) : Bool :=
  match rule.addr with
  | .v4 addr => maskV4 ip rule.prefixLen = addr
  | .v6 _ => false

/-- The mask of `match_v6` for one byte. -/
def matchV6Mask (bits : ℤ) : UInt8 :=
  if bits ≥ 8 then 0xFF
  else if bits > 0 then 0xFF <<< UInt8.ofNat (8 - bits).toNat
  else 0

/-- `match_v6`. -/
def matchV6 (rule : IpAclRule) (ipv6 : Bytes) : Bool :=
  match rule.addr with
  | .v4 _ => false
  | .v6 addr =>
    (List.range 16).all fun i =>
      ipv6.getD i 0 &&& matchV6Mask (rule.prefixLen - i * 8) = addr.getD i 0

/-- `acl_contains_v4` on a list. -/
def aclContainsV4 (rules : List IpAclRule) (ip : BitVec 32) : Bool :=
  rules.any fun rule => matchV4 rule ip

/-- `acl_contains_v6` on a list. -/
def aclContainsV6 (rules : List IpAclRule) (ipv6 : Bytes) : Bool :=
  rules.any fun rule => matchV6 rule ipv6

/-- `v4mapped_prefix`. -/
def v4mappedBytes : Bytes := [0, 0, 0, 0, 0, 0, 0, 0, 0, 0, 0xFF, 0xFF]

/-- A byte of the address as an `unsigned`. -/
def octet (ipv6 : Bytes) (i : ℕ) : BitVec 32 := (ipv6.getD i 0).toBitVec.setWidth 32

/-- `v6_to_v4_mapped`. -/
def v6ToV4Mapped (ipv6 : Bytes) : BitVec 32 :=
  if ipv6.take 12 = v4mappedBytes then
    octet ipv6 12 <<< 24 ||| octet ipv6 13 <<< 16 ||| octet ipv6 14 <<< 8 ||| octet ipv6 15
  else 0

section Check

variable {inetPton4 : Bytes → Option (BitVec 32)} {inetPton6 : Bytes → Option Bytes}

/-- The rules of a list, of which there are none where there is no list. -/
def aclRules : Option (IpAcl inetPton4 inetPton6) → List IpAclRule
  | none => []
  | some acl => acl.rules

variable (allowlist blocklist : Option (IpAcl inetPton4 inetPton6))

/-- `ip_acl_check_v4` with `current_allowlist` and `current_blocklist`. -/
def ipAclCheckV4 (ip : BitVec 32) : Bool :=
  if (aclRules allowlist).length > 0 then aclContainsV4 (aclRules allowlist) ip
  else if (aclRules blocklist).length > 0 then !aclContainsV4 (aclRules blocklist) ip
  else true

/-- `ip_acl_check_v6` with `current_allowlist` and `current_blocklist`. -/
def ipAclCheckV6 (ipv6 : Bytes) : Bool :=
  let v4 := v6ToV4Mapped ipv6
  if (aclRules allowlist).length > 0 then
    if aclContainsV6 (aclRules allowlist) ipv6 then true
    else if v4 ≠ 0 ∧ aclContainsV4 (aclRules allowlist) v4 then true
    else false
  else if (aclRules blocklist).length > 0 then
    if aclContainsV6 (aclRules blocklist) ipv6 then false
    else if v4 ≠ 0 ∧ aclContainsV4 (aclRules blocklist) v4 then false
    else true
  else true

end Check

/-! ### What a rule covers -/

/-- The bits of an address, from the most significant one on. -/
def IpAddr.bit : IpAddr → ℕ → Bool
  | .v4 ip => ip.getMsbD
  | .v6 ipv6 => bitAt ipv6

/-- The number of bits of an address. -/
def IpAddr.width : IpAddr → ℕ
  | .v4 _ => 32
  | .v6 _ => 128

/-- The block of the addresses that begin with the same `n` bits as `addr`. -/
def IpAddr.InBlock (x : IpAddr) (n : ℕ) (addr : IpAddr) : Prop :=
  x.width = addr.width ∧ AgreeTo n x.bit addr.bit

/-- The addresses a rule is for. -/
def IpAclRule.Covers (rule : IpAclRule) (x : IpAddr) : Prop :=
  x.InBlock rule.prefixLen.toNat rule.addr

/-- The comparison the lists use. -/
def IpAclRule.matches (rule : IpAclRule) : IpAddr → Bool
  | .v4 ip => matchV4 rule ip
  | .v6 ipv6 => matchV6 rule ipv6

/-- `mask_v4` and `mask_v6`. -/
def IpAddr.mask (addr : IpAddr) (prefixLen : ℤ) : IpAddr :=
  match addr with
  | .v4 ip => .v4 (maskV4 ip prefixLen)
  | .v6 ipv6 => .v6 (maskV6 ipv6 prefixLen)

/-! ### Masks -/

/-- `mask_v4` keeps the first bits. -/
theorem maskV4_eq (addr : BitVec 32) {n : ℕ} (hn : n ≤ 32) :
    maskV4 addr n = addr &&& leadingMask 32 n := by
  unfold maskV4
  split_ifs with hzero hall
  · obtain rfl : n = 0 := by omega
    simp
  · obtain rfl : n = 32 := by omega
    rw [leadingMask_self, BitVec.and_allOnes]
  · have hshift : (32 - (n : ℤ)).toNat = 32 - n := by omega
    rw [hshift]
    rfl

/-- The mask for some bits of a byte. -/
theorem toBitVec_shift (k : Fin 8) :
    ((0xFF : UInt8) <<< UInt8.ofNat k).toBitVec = leadingMask 8 (8 - k) := by
  revert k
  decide

/-- The mask of `match_v6` keeps the first bits of a byte. -/
theorem matchV6Mask_eq (bits : ℤ) :
    (matchV6Mask bits).toBitVec = leadingMask 8 (min 8 bits.toNat) := by
  unfold matchV6Mask
  split_ifs with hall hsome
  · have hmin : min 8 bits.toNat = 8 := by omega
    rw [hmin]
    rfl
  · have hk : (8 - bits).toNat < 8 := by omega
    have hmin : min 8 bits.toNat = 8 - (8 - bits).toNat := by omega
    rw [hmin]
    exact toBitVec_shift ⟨(8 - bits).toNat, hk⟩
  · have hmin : min 8 bits.toNat = 0 := by omega
    rw [hmin]
    simp

/-- A byte of `mask_v6` is what the mask of `match_v6` leaves of it. -/
theorem maskV6Byte_eq (bits : ℤ) (b : UInt8) : maskV6Byte bits b = b &&& matchV6Mask bits := by
  unfold maskV6Byte matchV6Mask
  split_ifs with hall hsome
  · exact (UInt8.toBitVec_inj.mp (BitVec.and_allOnes (x := b.toBitVec))).symm
  · rfl
  · simp

theorem maskV6_getD (addr : Bytes) (prefixLen : ℤ) {i : ℕ} (hi : i < 16) :
    (maskV6 addr prefixLen).getD i 0 =
      addr.getD i 0 &&& matchV6Mask (prefixLen - i * 8) := by
  unfold maskV6
  rw [List.getD_eq_getElem _ _ (by simpa using hi)]
  simp only [List.getElem_map, List.getElem_range]
  exact maskV6Byte_eq _ _

/-- One byte of a comparison under the masks. -/
theorem matchV6_byte (x a : UInt8) (bits : ℤ) :
    x &&& matchV6Mask bits = a &&& matchV6Mask bits ↔
      AgreeTo (min 8 bits.toNat) x.toBitVec.getMsbD a.toBitVec.getMsbD := by
  rw [agreeTo_iff_and (Nat.min_le_left 8 bits.toNat), ← UInt8.toBitVec_inj, UInt8.toBitVec_and,
    UInt8.toBitVec_and, matchV6Mask_eq]

/-- **A comparison under the mask is one of the first bits.** -/
theorem matches_mask_iff (addr x : IpAddr) {n : ℕ} (hn : n ≤ addr.width) :
    (IpAclRule.mk n (addr.mask n)).matches x = true ↔ x.InBlock n addr := by
  cases addr with
  | v4 ip =>
    cases x with
    | v4 y =>
      simp only [IpAclRule.matches, IpAddr.mask, matchV4, IpAddr.InBlock, IpAddr.width,
        IpAddr.bit, decide_eq_true_eq, true_and]
      have hwidth : n ≤ 32 := hn
      rw [maskV4_eq ip hwidth, maskV4_eq y hwidth, agreeTo_iff_and hwidth]
    | v6 y => simp [IpAclRule.matches, IpAddr.mask, matchV6, IpAddr.InBlock, IpAddr.width]
  | v6 ipv6 =>
    cases x with
    | v4 y => simp [IpAclRule.matches, IpAddr.mask, matchV4, IpAddr.InBlock, IpAddr.width]
    | v6 y =>
      have hbyte (i : ℕ) (hi : i < 16) :
          y.getD i 0 &&& matchV6Mask (n - i * 8) = (maskV6 ipv6 n).getD i 0 ↔
            AgreeTo (min 8 (n - i * 8)) (y.getD i 0).toBitVec.getMsbD
              (ipv6.getD i 0).toBitVec.getMsbD := by
        have hbits : ((n : ℤ) - i * 8).toNat = n - i * 8 := by omega
        rw [maskV6_getD ipv6 n hi, matchV6_byte, hbits]
      simp only [IpAclRule.matches, IpAddr.mask, matchV6, IpAddr.InBlock, IpAddr.width,
        IpAddr.bit, true_and, List.all_eq_true, List.mem_range, decide_eq_true_eq]
      rw [agreeTo_iff_bytes]
      constructor
      · intro h k
        by_cases hk : k < 16
        · exact (hbyte k hk).mp (h k hk)
        · -- Sixteen bytes are all the bits there can be.
          intro i hi
          have hwidth : n ≤ 128 := hn
          omega
      · intro h i hi
        exact (hbyte i hi).mpr (h i)

theorem IpAddr.mask_width (addr : IpAddr) (n : ℤ) : (addr.mask n).width = addr.width := by
  cases addr <;> rfl

/-- A mask keeps the bits it is for. -/
theorem IpAddr.mask_agrees (addr : IpAddr) {n : ℕ} (hn : n ≤ addr.width) :
    AgreeTo n (addr.mask n).bit addr.bit := by
  cases addr with
  | v4 ip =>
    have hwidth : n ≤ 32 := hn
    show AgreeTo n (maskV4 ip n).getMsbD ip.getMsbD
    rw [maskV4_eq ip hwidth]
    exact agreeTo_and hwidth ip
  | v6 ipv6 =>
    refine (agreeTo_iff_bytes (maskV6 ipv6 n) ipv6).mpr fun k => ?_
    by_cases hk : k < 16
    · have hbits : ((n : ℤ) - k * 8).toNat = n - k * 8 := by omega
      rw [maskV6_getD ipv6 n hk, UInt8.toBitVec_and, matchV6Mask_eq, hbits]
      exact agreeTo_and (Nat.min_le_left _ _) _
    · intro i hi
      have hwidth : n ≤ 128 := hn
      omega

section Built

variable {inetPton4 : Bytes → Option (BitVec 32)} {inetPton6 : Bytes → Option Bytes}

variable (inetPton4 inetPton6) in
/-- The address a text writes. -/
def writtenAddr (s : Bytes) : Option IpAddr :=
  match inetPton4 s with
  | some ip => some (.v4 ip)
  | none => (inetPton6 s).map .v6

/-- A rule is made of the address and the length. -/
theorem cidrRule_eq (s : Bytes) (explicitPrefix : Option ℤ) :
    cidrRule inetPton4 inetPton6 s explicitPrefix =
      (writtenAddr inetPton4 inetPton6 s).bind fun addr =>
        if explicitPrefix.getD addr.width < 0 ∨ explicitPrefix.getD addr.width > addr.width then none
        else some ⟨explicitPrefix.getD addr.width, addr.mask (explicitPrefix.getD addr.width)⟩ := by
  unfold cidrRule writtenAddr
  cases inetPton4 s with
  | some ip => rfl
  | none =>
    cases inetPton6 s with
    | some ipv6 => rfl
    | none => rfl

/-- A rule is an address under the mask for its length. -/
theorem ipAclParseCidr_form {s : Bytes} {rule : IpAclRule}
    (h : ipAclParseCidr inetPton4 inetPton6 s = some rule) :
    ∃ addr : IpAddr, ∃ n ≤ addr.width, rule = ⟨n, addr.mask n⟩ := by
  have hrule : ∃ t explicitPrefix, cidrRule inetPton4 inetPton6 t explicitPrefix = some rule := by
    unfold ipAclParseCidr at h
    split at h
    · exact ⟨_, _, h⟩
    · split at h
      · cases h
      · exact ⟨_, _, h⟩
  obtain ⟨t, explicitPrefix, hrule⟩ := hrule
  rw [cidrRule_eq] at hrule
  obtain ⟨addr, -, hrule⟩ := Option.bind_eq_some_iff.mp hrule
  generalize explicitPrefix.getD addr.width = m at hrule
  split_ifs at hrule with hrange
  obtain rfl := Option.some.inj hrule
  rw [not_or, not_lt, not_lt] at hrange
  obtain ⟨n, rfl⟩ := Int.eq_ofNat_of_zero_le hrange.1
  exact ⟨addr, n, by omega, rfl⟩

/-- **The comparison with a rule is whether it covers the address.** -/
theorem IpAcl.matches_iff (acl : IpAcl inetPton4 inetPton6) {rule : IpAclRule}
    (hrule : rule ∈ acl.rules) (x : IpAddr) : rule.matches x = true ↔ rule.Covers x := by
  obtain ⟨s, hs⟩ := acl.built rule hrule
  obtain ⟨addr, n, hn, rfl⟩ := ipAclParseCidr_form hs
  rw [matches_mask_iff addr x hn]
  unfold IpAclRule.Covers IpAddr.InBlock
  rw [addr.mask_width, Int.toNat_natCast]
  exact and_congr_right fun _ => (addr.mask_agrees hn).symm.congr_right

end Built

/-! ### IPv4 addresses in IPv6 addresses -/

/-- An IPv6 address that stands for an IPv4 address: `::ffff:` and its bits. -/
def MapsTo (ipv6 : Bytes) (ip : BitVec 32) : Prop :=
  ipv6.take 12 = v4mappedBytes ∧ AgreeTo 32 ip.getMsbD fun i => bitAt ipv6 (96 + i)

/-- A byte moved to its place in a word. -/
theorem getMsbD_octet (x : BitVec 8) {j : ℕ} (hj : j < 4) (i : ℕ) :
    (x.setWidth 32 <<< (24 - 8 * j)).getMsbD i = (decide (i / 8 = j) && x.getMsbD (i % 8)) := by
  rw [BitVec.getMsbD_shiftLeft, BitVec.getMsbD_setWidth]
  by_cases hlow : i / 8 = j
  · have hpos : i + (24 - 8 * j) + 8 - 32 = i % 8 := by omega
    have hin : 32 - 8 ≤ i + (24 - 8 * j) := by omega
    simp [hpos, hin, hlow]
  · by_cases hbefore : i < 8 * j
    · have hout : ¬ 32 - 8 ≤ i + (24 - 8 * j) := by omega
      simp [hout, hlow]
    · rw [BitVec.getMsbD_of_ge _ _ (by omega)]
      simp [hlow]

/-- The address `v6_to_v4_mapped` forms has the bits it is to have. -/
theorem getMsbD_v6ToV4Mapped {ipv6 : Bytes} (h : ipv6.take 12 = v4mappedBytes) :
    AgreeTo 32 (v6ToV4Mapped ipv6).getMsbD fun i => bitAt ipv6 (96 + i) := by
  intro i hi
  have hdiv : (96 + i) / 8 = 12 + i / 8 := by omega
  have hmod : (96 + i) % 8 = i % 8 := by omega
  have h0 := getMsbD_octet (ipv6.getD 12 0).toBitVec (j := 0) (by decide) i
  have h1 := getMsbD_octet (ipv6.getD 13 0).toBitVec (j := 1) (by decide) i
  have h2 := getMsbD_octet (ipv6.getD 14 0).toBitVec (j := 2) (by decide) i
  have h3 := getMsbD_octet (ipv6.getD 15 0).toBitVec (j := 3) (by decide) i
  rw [Nat.sub_self, BitVec.shiftLeft_zero] at h3
  unfold v6ToV4Mapped bitAt octet
  dsimp only
  rw [if_pos h, hdiv, hmod, BitVec.getMsbD_or, BitVec.getMsbD_or, BitVec.getMsbD_or, h0, h1, h2, h3]
  have hquot : i / 8 = 0 ∨ i / 8 = 1 ∨ i / 8 = 2 ∨ i / 8 = 3 := by omega
  rcases hquot with hq | hq | hq | hq <;> simp [hq]

/-- The address an IPv6 address stands for is the one of `v6_to_v4_mapped`. -/
theorem mapsTo_iff (ipv6 : Bytes) (ip : BitVec 32) :
    MapsTo ipv6 ip ↔ ipv6.take 12 = v4mappedBytes ∧ ip = v6ToV4Mapped ipv6 := by
  refine and_congr_right fun h => ⟨fun hip => ?_, ?_⟩
  · refine BitVec.eq_of_getMsbD_eq fun i hi => ?_
    exact (hip i hi).trans (getMsbD_v6ToV4Mapped h i hi).symm
  · rintro rfl
    exact getMsbD_v6ToV4Mapped h

/-- An address that is not 0 has been taken from one that stands for it. -/
theorem v6ToV4Mapped_ne {ipv6 : Bytes} (h : v6ToV4Mapped ipv6 ≠ 0) :
    ipv6.take 12 = v4mappedBytes := by
  by_contra hnot
  unfold v6ToV4Mapped at h
  rw [if_neg hnot] at h
  exact h rfl

/-! ### How the lists decide -/

/-- One of the rules covers an address. -/
def CoveredBy (rules : List IpAclRule) (x : IpAddr) : Prop := ∃ rule ∈ rules, rule.Covers x

/-- One of the rules covers an IPv6 address, or the IPv4 address it stands for. -/
def CoveredV6 (ipv6 : Bytes) (rules : List IpAclRule) : Prop :=
  CoveredBy rules (.v6 ipv6) ∨ ∃ ip, MapsTo ipv6 ip ∧ CoveredBy rules (.v4 ip)

section Decision

variable {inetPton4 : Bytes → Option (BitVec 32)} {inetPton6 : Bytes → Option Bytes}

theorem containsV4_iff (acl : Option (IpAcl inetPton4 inetPton6)) (ip : BitVec 32) :
    aclContainsV4 (aclRules acl) ip = true ↔ CoveredBy (aclRules acl) (.v4 ip) := by
  cases acl with
  | none => simp [aclRules, aclContainsV4, CoveredBy]
  | some acl =>
    unfold aclContainsV4 CoveredBy
    rw [List.any_eq_true]
    exact exists_congr fun rule => and_congr_right fun hrule => acl.matches_iff hrule (.v4 ip)

theorem containsV6_iff (acl : Option (IpAcl inetPton4 inetPton6)) (ipv6 : Bytes) :
    aclContainsV6 (aclRules acl) ipv6 = true ↔ CoveredBy (aclRules acl) (.v6 ipv6) := by
  cases acl with
  | none => simp [aclRules, aclContainsV6, CoveredBy]
  | some acl =>
    unfold aclContainsV6 CoveredBy
    rw [List.any_eq_true]
    exact exists_congr fun rule => and_congr_right fun hrule => acl.matches_iff hrule (.v6 ipv6)

variable (allowlist blocklist : Option (IpAcl inetPton4 inetPton6))

/-- **What the lists are for**: an address is to be covered by the allow list, or not to be covered
by the block list where nothing is in the allow list. -/
def Admitted (covered : List IpAclRule → Prop) : Prop :=
  if aclRules allowlist ≠ [] then covered (aclRules allowlist)
  else ¬ covered (aclRules blocklist)

/-- The list that decides. -/
def decidingRules : List IpAclRule :=
  if aclRules allowlist ≠ [] then aclRules allowlist else aclRules blocklist

/-- `ip_acl_check_v4` by what is covered. -/
theorem ipAclCheckV4_iff (ip : BitVec 32) :
    ipAclCheckV4 allowlist blocklist ip = true ↔
      Admitted allowlist blocklist fun rules => CoveredBy rules (.v4 ip) := by
  have hblock := containsV4_iff blocklist ip
  unfold ipAclCheckV4 Admitted
  simp only [gt_iff_lt, List.length_pos_iff]
  by_cases hallow : aclRules allowlist ≠ []
  · rw [if_pos hallow, if_pos hallow, containsV4_iff]
  · rw [if_neg hallow, if_neg hallow, ← hblock]
    by_cases hrules : aclRules blocklist ≠ []
    · rw [if_pos hrules]
      simp
    · rw [if_neg hrules, not_not.mp hrules]
      simp [aclContainsV4]

/-- What two returns in a row make of two conditions. -/
theorem returns_true_iff (p q : Prop) [Decidable p] [Decidable q] :
    (if p then true else if q then true else false) = true ↔ p ∨ q := by
  by_cases hp : p <;> by_cases hq : q <;> simp [hp, hq]

theorem returns_false_iff (p q : Prop) [Decidable p] [Decidable q] :
    (if p then false else if q then false else true) = true ↔ ¬ (p ∨ q) := by
  by_cases hp : p <;> by_cases hq : q <;> simp [hp, hq]

/-- `ip_acl_check_v6` by what is covered: of the IPv4 address the code forms only if it is not
0. -/
theorem ipAclCheckV6_iff (ipv6 : Bytes) :
    ipAclCheckV6 allowlist blocklist ipv6 = true ↔
      Admitted allowlist blocklist fun rules => CoveredBy rules (.v6 ipv6) ∨
        v6ToV4Mapped ipv6 ≠ 0 ∧ CoveredBy rules (.v4 (v6ToV4Mapped ipv6)) := by
  unfold ipAclCheckV6 Admitted
  simp only [gt_iff_lt, List.length_pos_iff, ← containsV4_iff, ← containsV6_iff]
  by_cases hallow : aclRules allowlist ≠ []
  · rw [if_pos hallow, if_pos hallow]
    exact returns_true_iff _ _
  · rw [if_neg hallow, if_neg hallow]
    by_cases hrules : aclRules blocklist ≠ []
    · rw [if_pos hrules]
      exact returns_false_iff _ _
    · rw [if_neg hrules, not_not.mp hrules]
      simp [aclContainsV4, aclContainsV6]

/-- Whether a list covers an IPv6 address is found out except for the one that stands for the IPv4
address 0. -/
theorem coveredV6_iff (ipv6 : Bytes) (rules : List IpAclRule) :
    ((CoveredBy rules (.v6 ipv6) ∨
        v6ToV4Mapped ipv6 ≠ 0 ∧ CoveredBy rules (.v4 (v6ToV4Mapped ipv6))) ↔
      CoveredV6 ipv6 rules) ↔
      ¬ (MapsTo ipv6 0 ∧ CoveredBy rules (.v4 0) ∧ ¬ CoveredBy rules (.v6 ipv6)) := by
  have hmaps : (∃ ip, MapsTo ipv6 ip ∧ CoveredBy rules (.v4 ip)) ↔
      ipv6.take 12 = v4mappedBytes ∧ CoveredBy rules (.v4 (v6ToV4Mapped ipv6)) := by
    constructor
    · rintro ⟨ip, hip, hcovered⟩
      obtain ⟨htake, rfl⟩ := (mapsTo_iff ipv6 ip).mp hip
      exact ⟨htake, hcovered⟩
    · rintro ⟨htake, hcovered⟩
      exact ⟨_, (mapsTo_iff ipv6 _).mpr ⟨htake, rfl⟩, hcovered⟩
  have hzero : MapsTo ipv6 0 ↔ ipv6.take 12 = v4mappedBytes ∧ 0 = v6ToV4Mapped ipv6 :=
    mapsTo_iff ipv6 0
  unfold CoveredV6
  rw [hmaps, hzero]
  by_cases hv4 : v6ToV4Mapped ipv6 = 0
  · rw [hv4]
    by_cases htake : ipv6.take 12 = v4mappedBytes
    · by_cases hv6 : CoveredBy rules (.v6 ipv6)
      · simp [hv6]
      · simp [hv6, htake]
    · simp [htake]
  · rw [and_iff_right hv4, and_iff_right (v6ToV4Mapped_ne hv4)]
    exact iff_of_true Iff.rfl fun h => hv4 h.1.2.symm

/-- **An address is admitted if the lists say so, unless it is `::ffff:0.0.0.0`** and the list that
decides has a rule for 0.0.0.0 and none for the IPv6 address itself: for every two lists, every IPv4
address and every IPv6 address. -/
theorem ipAclCheck_iff (ip : BitVec 32) (ipv6 : Bytes) :
    ((ipAclCheckV4 allowlist blocklist ip = true ↔
        Admitted allowlist blocklist fun rules => CoveredBy rules (.v4 ip)) ∧
      (ipAclCheckV6 allowlist blocklist ipv6 = true ↔
        Admitted allowlist blocklist (CoveredV6 ipv6))) ↔
      ¬ (MapsTo ipv6 0 ∧ CoveredBy (decidingRules allowlist blocklist) (.v4 0) ∧
        ¬ CoveredBy (decidingRules allowlist blocklist) (.v6 ipv6)) := by
  rw [and_iff_right (ipAclCheckV4_iff allowlist blocklist ip), ipAclCheckV6_iff,
    ← coveredV6_iff ipv6 (decidingRules allowlist blocklist)]
  unfold Admitted decidingRules
  by_cases hallow : aclRules allowlist ≠ []
  · rw [if_pos hallow, if_pos hallow, if_pos hallow]
  · rw [if_neg hallow, if_neg hallow, if_neg hallow]
    exact not_iff_not

end Decision

/-- What `inet_pton` makes of the address of no host. -/
def samplePton4 (s : Bytes) : Option (BitVec 32) := if s = ascii "0.0.0.0" then some 0 else none

/-- The rule of `0.0.0.0/0`. -/
def sampleRule : IpAclRule := ⟨0, .v4 0⟩

theorem sampleRule_built : ∀ rule ∈ [sampleRule],
    ∃ s, ipAclParseCidr samplePton4 (fun _ => none) s = some rule := by
  intro rule h
  obtain rfl := List.mem_singleton.mp h
  exact ⟨ascii "0.0.0.0/0", by decide⟩

/-- A list that blocks every IPv4 address. -/
def sampleBlocklist : IpAcl samplePton4 (fun _ => none) := ⟨[sampleRule], sampleRule_built⟩

/-- `::ffff:0.0.0.0` is admitted though every IPv4 address is blocked. -/
theorem ipAclCheckV6_zero : ¬ (ipAclCheckV6 none (some sampleBlocklist)
    (v4mappedBytes ++ [0, 0, 0, 0]) = true ↔
      Admitted none (some sampleBlocklist) (CoveredV6 (v4mappedBytes ++ [0, 0, 0, 0]))) := by
  have hcovered : CoveredV6 (v4mappedBytes ++ [0, 0, 0, 0]) [sampleRule] := by
    refine Or.inr ⟨0, (mapsTo_iff _ _).mpr ⟨by decide, by decide⟩, sampleRule,
      List.mem_singleton_self _, rfl, ?_⟩
    intro i hi
    exact absurd hi (Nat.not_lt_zero i)
  intro h
  exact h.mp (by decide) hcovered

end Server
end Teleproto3
