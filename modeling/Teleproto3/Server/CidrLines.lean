/-
# The lines of a list of addresses

`ip_acl_parse_cidr` accepts an address, with or without a slash and the number of bits behind it.
The number is read by `strtol` and cut to an `int`, and white space ends it whatever comes behind:
`PassesForLength` names the texts that are taken for a length though they are none, and
`readsCidr_iff` says that every other line is accepted exactly if it is an address or an address
and a length, and that its rule is for the block it writes.
-/

import Teleproto3.Server.IpAcl

namespace Teleproto3
namespace Server

open Lib

/-! ### What a line says -/

section Lines

variable {inetPton4 : Bytes → Option (BitVec 32)} {inetPton6 : Bytes → Option Bytes}

/-- A decimal number and nothing else. -/
structure IsDecimal (t : Bytes) (n : ℕ) : Prop where
  ne_nil : t ≠ []
  digits : ∀ c ∈ t, isDigit c = true
  value : decimal t = n

variable (inetPton4 inetPton6) in
/-- A line with an address, which is a block of its own, or with an address and a length. -/
inductive Cidr : Bytes → ℕ → IpAddr → Prop
  | host {s : Bytes} {addr : IpAddr} (hs : 0x2F ∉ s)
      (haddr : writtenAddr inetPton4 inetPton6 s = some addr) : Cidr s addr.width addr
  | block {s t : Bytes} {n : ℕ} {addr : IpAddr} (hs : 0x2F ∉ s)
      (haddr : writtenAddr inetPton4 inetPton6 s = some addr) (ht : IsDecimal t n)
      (hn : n ≤ addr.width) : Cidr (s ++ 0x2F :: t) n addr

/-- Nothing follows, or white space. -/
def StopsAtSpace (s : Bytes) : Prop := ∀ c ∈ s.head?, isSpace c = true

/-- **A text that passes for a length though it is none**: there is no number in it, or there is
something around the number, or the number is another one as an `int`. -/
inductive PassesForLength (width : ℕ) : Bytes → Prop
  | nothing {t : Bytes} (ht : NoNumber t) (hstop : StopsAtSpace t) : PassesForLength width t
  | number (t : NumberText) (hstop : StopsAtSpace t.rest)
      (hlow : 0 ≤ wrap32 (max (-2 ^ 63) (min t.value (2 ^ 63 - 1))))
      (hhigh : wrap32 (max (-2 ^ 63) (min t.value (2 ^ 63 - 1))) ≤ width)
      (hnot : t.blank ≠ [] ∨ t.sign ≠ .none ∨ t.rest ≠ [] ∨ width < decimal t.digits) :
      PassesForLength width t.text

/-! ### How a line is read -/

/-- A decimal number as a text that begins with one. -/
def NumberText.ofDigits (t : Bytes) (hne : t ≠ []) (hall : ∀ c ∈ t, isDigit c = true) :
    NumberText where
  blank := []
  sign := .none
  digits := t
  rest := []
  blank_all := by simp
  digits_ne := hne
  digits_all := hall
  rest_head := by simp

theorem NumberText.ofDigits_text (t : Bytes) (hne : t ≠ []) (hall : ∀ c ∈ t, isDigit c = true) :
    (NumberText.ofDigits t hne hall).text = t := by
  simp [NumberText.ofDigits, NumberText.text, NumberSign.bytes]

theorem cidrPrefixLen_eq (t : Bytes) {n : ℤ} {rest : Bytes} (h : strtoll t = (n, rest)) (m : ℤ) :
    cidrPrefixLen t = some m ↔ StopsAtSpace rest ∧ m = wrap32 n := by
  unfold cidrPrefixLen StopsAtSpace
  rw [h]
  cases rest with
  | nil => simp [@eq_comm ℤ m]
  | cons c rest => cases hc : isSpace c <;> simp [hc, @eq_comm ℤ m]

/-- A length that is one is read as what it is. -/
theorem cidrPrefixLen_decimal {t : Bytes} {n : ℕ} (ht : IsDecimal t n) (hn : n < 2 ^ 31) :
    cidrPrefixLen t = some n := by
  have hread := strtoll_text (NumberText.ofDigits t ht.ne_nil ht.digits)
  rw [NumberText.ofDigits_text] at hread
  refine (cidrPrefixLen_eq t hread n).mpr ⟨fun c hc => (Option.not_mem_none c hc).elim, ?_⟩
  have hvalue : (NumberText.ofDigits t ht.ne_nil ht.digits).value = n :=
    congrArg Nat.cast ht.value
  rw [hvalue, wrap32_of_fits (by omega) (by omega)]
  omega

/-- **What is read as a length** is one, or passes for one. -/
theorem cidrPrefixLen_iff (t : Bytes) (width : ℕ) (hwidth : width < 2 ^ 31) :
    (∃ m, cidrPrefixLen t = some m ∧ 0 ≤ m ∧ m ≤ width) ↔
      (∃ n ≤ width, IsDecimal t n) ∨ PassesForLength width t := by
  constructor
  · rintro ⟨m, hm, hlow, hhigh⟩
    rcases numberText_or_noNumber t with ⟨u, rfl⟩ | hnone
    · obtain ⟨hstop, rfl⟩ := (cidrPrefixLen_eq _ (strtoll_text u) m).mp hm
      by_cases hnot : u.blank ≠ [] ∨ u.sign ≠ .none ∨ u.rest ≠ [] ∨ width < decimal u.digits
      · exact Or.inr (.number u hstop hlow hhigh hnot)
      · simp only [not_or, not_not, not_lt] at hnot
        obtain ⟨hblank, hsign, hrest, hle⟩ := hnot
        have htext : u.text = u.digits := by
          simp [NumberText.text, hblank, hsign, hrest, NumberSign.bytes]
        exact Or.inl ⟨_, hle, by rw [htext]; exact ⟨u.digits_ne, u.digits_all, rfl⟩⟩
    · obtain ⟨hstop, -⟩ := (cidrPrefixLen_eq _ (strtoll_none hnone) m).mp hm
      exact Or.inr (.nothing hnone hstop)
  · rintro (⟨n, hn, hdecimal⟩ | hpasses)
    · exact ⟨n, cidrPrefixLen_decimal hdecimal (by omega), by omega, by omega⟩
    · cases hpasses with
      | nothing hnone hstop =>
        exact ⟨_, (cidrPrefixLen_eq _ (strtoll_none hnone) _).mpr ⟨hstop, rfl⟩, by decide,
          by rw [wrap32_of_fits (by omega) (by omega)]; omega⟩
      | number u hstop hlow hhigh hnot =>
        exact ⟨_, (cidrPrefixLen_eq _ (strtoll_text u) _).mpr ⟨hstop, rfl⟩, hlow, hhigh⟩

/-- A text that passes for a length is none. -/
theorem PassesForLength.not_decimal {width : ℕ} {t : Bytes} (h : PassesForLength width t) :
    ¬ ∃ n ≤ width, IsDecimal t n := by
  rintro ⟨n, hn, hdecimal⟩
  cases h with
  | nothing hnone hstop =>
    have hnumber := (NumberText.ofDigits t hdecimal.ne_nil hdecimal.digits).not_noNumber
    rw [NumberText.ofDigits_text] at hnumber
    exact hnumber hnone
  | number u hstop hlow hhigh hnot =>
    obtain ⟨hblank, hsign, hrest⟩ := NumberText.of_all_digits hdecimal.digits
    have hdigits : decimal u.digits ≤ width := by
      have hvalue := hdecimal.value
      simp only [NumberText.text, hblank, hsign, hrest, NumberSign.bytes, List.nil_append,
        List.append_nil] at hvalue
      omega
    rcases hnot with h | h | h | h
    · exact h hblank
    · exact h hsign
    · exact h hrest
    · omega

/-- The first slash of a line. -/
theorem takeWhile_slash {s : Bytes} (hs : 0x2F ∉ s) (t : Bytes) :
    (s ++ 0x2F :: t).takeWhile (· ≠ 0x2F) = s ∧
      (s ++ 0x2F :: t).dropWhile (· ≠ 0x2F) = 0x2F :: t := by
  induction s with
  | nil => exact ⟨rfl, rfl⟩
  | cons c s ih =>
    rw [List.mem_cons, not_or] at hs
    obtain ⟨htake, hdrop⟩ := ih hs.2
    have hne : decide (c ≠ 0x2F) = true := by simpa using Ne.symm hs.1
    constructor
    · rw [List.cons_append, List.takeWhile_cons, if_pos hne, htake]
    · rw [List.cons_append, List.dropWhile_cons, if_pos hne, hdrop]

theorem slash_inj {s s' t t' : Bytes} (hs : 0x2F ∉ s) (hs' : 0x2F ∉ s')
    (h : s ++ 0x2F :: t = s' ++ 0x2F :: t') : s = s' ∧ t = t' := by
  have htake := (takeWhile_slash hs t).1
  rw [h, (takeWhile_slash hs' t').1] at htake
  subst htake
  exact ⟨rfl, (List.cons.inj (List.append_cancel_left h)).2⟩

variable (inetPton4 inetPton6) in
/-- A line without a slash is an address. -/
theorem ipAclParseCidr_host {s : Bytes} (hs : 0x2F ∉ s) :
    ipAclParseCidr inetPton4 inetPton6 s =
      (writtenAddr inetPton4 inetPton6 s).map fun addr => ⟨addr.width, addr.mask addr.width⟩ := by
  have hdrop : s.dropWhile (· ≠ 0x2F) = [] := by
    refine List.dropWhile_eq_nil_iff.mpr fun c hc => ?_
    have hne : c ≠ 0x2F := by
      rintro rfl
      exact hs hc
    simpa using hne
  unfold ipAclParseCidr
  rw [hdrop]
  dsimp only
  rw [cidrRule_eq]
  cases writtenAddr inetPton4 inetPton6 s with
  | none => rfl
  | some addr =>
    rw [Option.bind_some, Option.getD_none, if_neg (by omega)]
    rfl

variable (inetPton4 inetPton6) in
/-- A line with a slash is an address and what is read behind it. -/
theorem ipAclParseCidr_slash {s : Bytes} (hs : 0x2F ∉ s) (t : Bytes) :
    ipAclParseCidr inetPton4 inetPton6 (s ++ 0x2F :: t) =
      (cidrPrefixLen t).bind fun n => (writtenAddr inetPton4 inetPton6 s).bind fun addr =>
        if n < 0 ∨ n > addr.width then none else some ⟨n, addr.mask n⟩ := by
  obtain ⟨htake, hdrop⟩ := takeWhile_slash hs t
  unfold ipAclParseCidr
  rw [hdrop, htake]
  dsimp only
  cases cidrPrefixLen t with
  | none => rfl
  | some n => exact cidrRule_eq s (some n)

variable (inetPton4 inetPton6) in
theorem Cidr.slash_iff {s t : Bytes} (hs : 0x2F ∉ s) (n : ℕ) (addr : IpAddr) :
    Cidr inetPton4 inetPton6 (s ++ 0x2F :: t) n addr ↔
      writtenAddr inetPton4 inetPton6 s = some addr ∧ IsDecimal t n ∧ n ≤ addr.width := by
  constructor
  · intro h
    generalize hline : s ++ 0x2F :: t = line at h
    cases h with
    | host hs' haddr => exact absurd (hline ▸ by simp) hs'
    | block hs' haddr ht hn =>
      obtain ⟨rfl, rfl⟩ := slash_inj hs hs' hline
      exact ⟨haddr, ht, hn⟩
  · rintro ⟨haddr, ht, hn⟩
    exact .block hs haddr ht hn

/-- A line writes one block only. -/
theorem Cidr.unique {line : Bytes} {n m : ℕ} {addr addr' : IpAddr}
    (h : Cidr inetPton4 inetPton6 line n addr) (h' : Cidr inetPton4 inetPton6 line m addr') :
    n = m ∧ addr = addr' := by
  cases h with
  | host hs haddr =>
    cases h' with
    | host hs' haddr' =>
      obtain rfl := Option.some.inj (haddr.symm.trans haddr')
      exact ⟨rfl, rfl⟩
    | block hs' haddr' ht hn => simp at hs
  | block hs haddr ht hn =>
    obtain ⟨haddr', ht', -⟩ := (Cidr.slash_iff _ _ hs m addr').mp h'
    obtain rfl := Option.some.inj (haddr.symm.trans haddr')
    exact ⟨ht.value.symm.trans ht'.value, rfl⟩

/-! ### Lines that are read as they are written -/

variable (inetPton4 inetPton6) in
/-- A line is accepted if it is an address or an address and a length, and its rule is then for the
block that is written. -/
structure ReadsCidr (s : Bytes) : Prop where
  accepts : (ipAclParseCidr inetPton4 inetPton6 s).isSome = true ↔
    ∃ n addr, Cidr inetPton4 inetPton6 s n addr
  covers : ∀ rule, ipAclParseCidr inetPton4 inetPton6 s = some rule →
    ∃ n addr, Cidr inetPton4 inetPton6 s n addr ∧ ∀ x, rule.matches x = true ↔ x.InBlock n addr

theorem IpAddr.width_lt (addr : IpAddr) : addr.width < 2 ^ 31 := by
  cases addr with
  | v4 ip => exact (by decide : 32 < 2 ^ 31)
  | v6 ipv6 => exact (by decide : 128 < 2 ^ 31)

theorem readsCidr_host {s : Bytes} (hs : 0x2F ∉ s) : ReadsCidr inetPton4 inetPton6 s := by
  have hparse := ipAclParseCidr_host inetPton4 inetPton6 hs
  cases haddr : writtenAddr inetPton4 inetPton6 s with
  | none =>
    rw [haddr] at hparse
    refine ⟨?_, ?_⟩
    · rw [hparse]
      refine iff_of_false (by simp) ?_
      rintro ⟨n, addr, h⟩
      cases h with
      | host hs' haddr' => simp [haddr] at haddr'
      | block hs' haddr' ht hn => simp at hs
    · intro rule h
      simp [hparse] at h
  | some addr =>
    rw [haddr] at hparse
    refine ⟨?_, ?_⟩
    · rw [hparse]
      exact iff_of_true rfl ⟨_, _, .host hs haddr⟩
    · intro rule h
      obtain rfl := Option.some.inj (hparse.symm.trans h)
      exact ⟨_, _, .host hs haddr, fun x => matches_mask_iff addr x le_rfl⟩

/-- What stands before the slash is no address. -/
theorem readsCidr_slash_of_none {s : Bytes} (hs : 0x2F ∉ s)
    (haddr : writtenAddr inetPton4 inetPton6 s = none) (t : Bytes) :
    ReadsCidr inetPton4 inetPton6 (s ++ 0x2F :: t) := by
  have hnone : ipAclParseCidr inetPton4 inetPton6 (s ++ 0x2F :: t) = none := by
    rw [ipAclParseCidr_slash inetPton4 inetPton6 hs t, haddr]
    cases cidrPrefixLen t <;> rfl
  refine ⟨?_, ?_⟩
  · rw [hnone]
    refine iff_of_false (by simp) ?_
    rintro ⟨n, addr, h⟩
    have haddr' := ((Cidr.slash_iff inetPton4 inetPton6 hs n addr).mp h).1
    simp [haddr] at haddr'
  · intro rule h
    simp [hnone] at h

section Slash

variable {s : Bytes} {addr : IpAddr} (hs : 0x2F ∉ s)
  (haddr : writtenAddr inetPton4 inetPton6 s = some addr) (t : Bytes)

include hs haddr

/-- The rule of a line with a slash. -/
theorem ipAclParseCidr_slash_eq_some_iff (rule : IpAclRule) :
    ipAclParseCidr inetPton4 inetPton6 (s ++ 0x2F :: t) = some rule ↔
      ∃ m, cidrPrefixLen t = some m ∧ 0 ≤ m ∧ m ≤ addr.width ∧ rule = ⟨m, addr.mask m⟩ := by
  rw [ipAclParseCidr_slash inetPton4 inetPton6 hs t, haddr]
  cases cidrPrefixLen t with
  | none => simp
  | some m =>
    rw [Option.bind_some, Option.bind_some]
    by_cases hrange : m < 0 ∨ m > addr.width
    · rw [if_pos hrange]
      refine iff_of_false (by simp) ?_
      rintro ⟨m', hm', hlow, hhigh, -⟩
      obtain rfl := Option.some.inj hm'
      omega
    · rw [if_neg hrange]
      constructor
      · intro h
        exact ⟨m, rfl, by omega, by omega, (Option.some.inj h).symm⟩
      · rintro ⟨m', hm', -, -, rfl⟩
        rw [Option.some.inj hm']

/-- What a line with a slash writes. -/
theorem exists_cidr_slash_iff :
    (∃ n addr', Cidr inetPton4 inetPton6 (s ++ 0x2F :: t) n addr') ↔
      ∃ n ≤ addr.width, IsDecimal t n := by
  constructor
  · rintro ⟨n, addr', h⟩
    obtain ⟨haddr', ht, hn⟩ := (Cidr.slash_iff inetPton4 inetPton6 hs n addr').mp h
    obtain rfl := Option.some.inj (haddr.symm.trans haddr')
    exact ⟨n, hn, ht⟩
  · rintro ⟨n, hn, ht⟩
    exact ⟨n, addr, (Cidr.slash_iff inetPton4 inetPton6 hs n addr).mpr ⟨haddr, ht, hn⟩⟩

/-- **A line with a slash whose length is none unless it is written so.** -/
theorem readsCidr_slash_of_some (hlength : ¬ PassesForLength addr.width t) :
    ReadsCidr inetPton4 inetPton6 (s ++ 0x2F :: t) := by
  have hdecimal : (∃ m, cidrPrefixLen t = some m ∧ 0 ≤ m ∧ m ≤ addr.width) ↔
      ∃ n ≤ addr.width, IsDecimal t n :=
    (cidrPrefixLen_iff t addr.width addr.width_lt).trans (or_iff_left hlength)
  refine ⟨?_, ?_⟩
  · rw [exists_cidr_slash_iff hs haddr t, ← hdecimal, Option.isSome_iff_exists]
    constructor
    · rintro ⟨rule, hrule⟩
      obtain ⟨m, hm, hlow, hhigh, -⟩ :=
        (ipAclParseCidr_slash_eq_some_iff hs haddr t rule).mp hrule
      exact ⟨m, hm, hlow, hhigh⟩
    · rintro ⟨m, hm, hlow, hhigh⟩
      exact ⟨_, (ipAclParseCidr_slash_eq_some_iff hs haddr t _).mpr ⟨m, hm, hlow, hhigh, rfl⟩⟩
  · intro rule hrule
    obtain ⟨m, hm, hlow, hhigh, rfl⟩ :=
      (ipAclParseCidr_slash_eq_some_iff hs haddr t rule).mp hrule
    obtain ⟨n, hn, ht⟩ := hdecimal.mp ⟨m, hm, hlow, hhigh⟩
    have hlt := addr.width_lt
    obtain rfl : m = n := Option.some.inj (hm.symm.trans (cidrPrefixLen_decimal ht (by omega)))
    exact ⟨n, addr, (Cidr.slash_iff inetPton4 inetPton6 hs n addr).mpr ⟨haddr, ht, hn⟩,
      fun x => matches_mask_iff addr x hn⟩

end Slash

/-- A line with a slash is read as it is written unless its length only passes for one. -/
theorem readsCidr_slash_iff {s t : Bytes} (hs : 0x2F ∉ s) :
    ReadsCidr inetPton4 inetPton6 (s ++ 0x2F :: t) ↔
      ∀ addr, writtenAddr inetPton4 inetPton6 s = some addr → ¬ PassesForLength addr.width t := by
  cases haddr : writtenAddr inetPton4 inetPton6 s with
  | none => exact iff_of_true (readsCidr_slash_of_none hs haddr t) (by simp)
  | some addr =>
    constructor
    · intro h addr' haddr' hpasses
      obtain rfl := Option.some.inj haddr'
      obtain ⟨m, hm, hlow, hhigh⟩ :=
        (cidrPrefixLen_iff t addr.width addr.width_lt).mpr (Or.inr hpasses)
      have haccepted : (ipAclParseCidr inetPton4 inetPton6 (s ++ 0x2F :: t)).isSome = true := by
        rw [(ipAclParseCidr_slash_eq_some_iff hs haddr t _).mpr ⟨m, hm, hlow, hhigh, rfl⟩]
        rfl
      exact hpasses.not_decimal ((exists_cidr_slash_iff hs haddr t).mp (h.accepts.mp haccepted))
    · intro h
      exact readsCidr_slash_of_some hs haddr t (h addr rfl)

variable (inetPton4 inetPton6) in
/-- **A line is read as it is written, unless what stands behind its slash passes for a length
though it is none**: for every line. -/
theorem readsCidr_iff (line : Bytes) :
    ReadsCidr inetPton4 inetPton6 line ↔
      ¬ ∃ s t addr, line = s ++ 0x2F :: t ∧ 0x2F ∉ s ∧
        writtenAddr inetPton4 inetPton6 s = some addr ∧ PassesForLength addr.width t := by
  by_cases hslash : 0x2F ∈ line
  · obtain ⟨s, t, rfl, hs⟩ := List.eq_append_cons_of_mem hslash
    rw [readsCidr_slash_iff hs]
    constructor
    · rintro h ⟨s', t', addr, heq, hs', haddr, hpasses⟩
      obtain ⟨rfl, rfl⟩ := slash_inj hs hs' heq
      exact h addr haddr hpasses
    · intro h addr haddr hpasses
      exact h ⟨s, t, addr, rfl, hs, haddr, hpasses⟩
  · refine iff_of_true (readsCidr_host hslash) ?_
    rintro ⟨s, t, addr, rfl, -, -, -⟩
    exact hslash (by simp)

/-- With nothing behind the slash a line for one address becomes a rule for all of them. -/
theorem readsCidr_empty :
    ¬ ReadsCidr (fun s => if s = ascii "1.2.3.4" then some 0x01020304 else none) (fun _ => none)
      (ascii "1.2.3.4" ++ [0x2F]) := by
  intro h
  refine (readsCidr_slash_iff (by decide)).mp h (.v4 0x01020304) (by decide) ?_
  exact .nothing (by simp [NoNumber, strtollSign]) (by simp [StopsAtSpace])

/-! ### Files -/

end Lines

end Server
end Teleproto3
