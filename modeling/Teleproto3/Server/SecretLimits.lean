/-
# The limits of a configured secret

`parse_secrets` takes `limit` and `max_ips` as integers, which it cuts to an `int`, and `quota` and
`rate_limit` as integers or as sizes, which `parse_byte_size` reads with `strtoll` and multiplies
without a check.  Zero means that there is no limit.

`Writes` says which number a value stands for.  A number is stored as it is, or the secret is
refused, exactly for the values of `IntFits` and `SizeFits` (`secretLimits_iff`): an integer that is
no `int`, a size beyond the largest `long long`, one whose product wraps around to a number that is
not negative, and a size where an integer is expected become another number, zero among them.
-/

import Teleproto3.Server.NumberText

namespace Teleproto3
namespace Server

open Lib

/-! ### The number a value stands for -/

/-- The letters of a size, with the power of 1024 they stand for. -/
def sizeLetters : List (UInt8 × ℕ) := [(0x4B, 1), (0x4D, 2), (0x47, 3), (0x54, 4)]

/-- Nothing, or a `B`. -/
def OptionalB (s : Bytes) : Prop := s = [] ∨ ∃ c, s = [c] ∧ toUpper c = 0x42

/-- What may follow the number of a size, with the power of 1024 it stands for. -/
inductive SizeSuffix : Bytes → ℕ → Prop
  | plain {s : Bytes} (hs : OptionalB s) : SizeSuffix s 0
  | letter {c : UInt8} {k : ℕ} {s : Bytes} (hc : (toUpper c, k) ∈ sizeLetters) (hs : OptionalB s) :
      SizeSuffix (c :: s) k

/-- The number a value writes, where it is an integer or a size. -/
inductive Writes : TomlDatum → ℤ → Prop
  | int64 (n : ℤ) : Writes (.int64 n) n
  | size {str : Bytes} {k : ℕ} (t : NumberText) (ht : cString str = t.text)
      (hk : SizeSuffix t.rest k) : Writes (.string str) (t.value * 1024 ^ k)

/-- **A value for `limit` or `max_ips` that is stored or refused**: an integer that is negative or
fits an `int`.  A size is passed over, and is no other number only if it is zero. -/
def IntFits : TomlDatum → Prop
  | .int64 n => n < 2 ^ 31
  | .string str => ∀ t k, cString str = NumberText.text t → SizeSuffix t.rest k → t.value = 0
  | _ => True

/-- A size that is stored or refused: a negative one; one without a letter that fits a `long long`;
one with a letter that is beyond it before it is multiplied, fits when it is multiplied, or is
negative as a `long long` then. -/
def SizeNumberFits (n : ℤ) (k : ℕ) : Prop :=
  n < 0 ∨ if k = 0 then n < 2 ^ 63
    else 2 ^ 63 ≤ n ∨ n * 1024 ^ k < 2 ^ 63 ∨ 2 ^ 63 ≤ n * 1024 ^ k % 2 ^ 64

/-- **A value for `quota` or `rate_limit` that is stored or refused.** -/
def SizeFits : TomlDatum → Prop
  | .string str => ∀ t k, cString str = NumberText.text t → SizeSuffix t.rest k →
      SizeNumberFits t.value k
  | _ => True

/-! ### Sizes -/

/-- What wraps around is another number, or a negative one. -/
theorem wrap64_eq_iff {x : ℤ} (h0 : 0 ≤ x) :
    (0 ≤ wrap64 x → wrap64 x = x) ↔ x < 2 ^ 63 ∨ 2 ^ 63 ≤ x % 2 ^ 64 := by
  unfold wrap64
  rw [Int.bmod_def]
  split_ifs <;> omega

theorem sizeFactor_letter {c : UInt8} {k : ℕ} (h : (toUpper c, k) ∈ sizeLetters) :
    sizeFactor (toUpper c) = some (1024 ^ k) := by
  unfold sizeLetters at h
  simp only [List.mem_cons, Prod.mk.injEq, List.not_mem_nil, or_false] at h
  rcases h with ⟨hc, rfl⟩ | ⟨hc, rfl⟩ | ⟨hc, rfl⟩ | ⟨hc, rfl⟩ <;> rw [hc] <;> rfl

/-- A letter stands for a power that is not zero. -/
theorem sizeLetters_pos {c : UInt8} {k : ℕ} (h : (c, k) ∈ sizeLetters) : 1 ≤ k ∧ k ≤ 4 := by
  unfold sizeLetters at h
  simp only [List.mem_cons, Prod.mk.injEq, List.not_mem_nil, or_false] at h
  omega

/-- The largest `long long` is negative when it is multiplied. -/
theorem wrap64_max_mul {k : ℕ} (h1 : 1 ≤ k) (h4 : k ≤ 4) :
    wrap64 ((2 ^ 63 - 1) * 1024 ^ k) < 0 := by
  have hk : k = 1 ∨ k = 2 ∨ k = 3 ∨ k = 4 := by omega
  rcases hk with rfl | rfl | rfl | rfl <;> decide

/-- **What `parse_byte_size` makes of a size.** -/
theorem parseByteSize_size (t : NumberText) {k : ℕ} (hk : SizeSuffix t.rest k) :
    parseByteSize t.text =
      if t.value < 0 then -1
      else if k = 0 then min t.value (2 ^ 63 - 1)
      else wrap64 (min t.value (2 ^ 63 - 1) * 1024 ^ k) := by
  have hne : ¬ t.rest = t.text := by
    intro heq
    have hlen := congrArg List.length heq
    have hpos := List.length_pos_of_ne_nil t.digits_ne
    unfold NumberText.text at hlen
    simp only [List.length_append] at hlen
    omega
  unfold parseByteSize
  rw [strtoll_text]
  dsimp only
  by_cases hneg : t.value < 0
  · rw [if_pos hneg, if_pos (Or.inr (by omega))]
  · have hclamp : max (-2 ^ 63) (min t.value (2 ^ 63 - 1)) = min t.value (2 ^ 63 - 1) := by omega
    rw [if_neg hneg, hclamp, if_neg (not_or.mpr ⟨hne, by omega⟩)]
    generalize min t.value (2 ^ 63 - 1) = v
    generalize t.rest = rest at hk
    cases hk with
    | plain hs =>
      rw [if_pos rfl]
      rcases hs with rfl | ⟨c, rfl, hc⟩
      · simp
      · have hfactor : sizeFactor 0x42 = none := rfl
        simp [hc, hfactor]
    | letter hc hs =>
      have hk : k ≠ 0 := Nat.pos_iff_ne_zero.mp (sizeLetters_pos hc).1
      rw [if_neg hk]
      rcases hs with rfl | ⟨b, rfl, hb⟩
      · simp [sizeFactor_letter hc]
      · simp [sizeFactor_letter hc, hb]

/-- **The sizes that are stored or refused.** -/
theorem parseByteSize_fits_iff (t : NumberText) {k : ℕ} (hk : SizeSuffix t.rest k) :
    (0 ≤ parseByteSize t.text → parseByteSize t.text = t.value * 1024 ^ k) ↔
      SizeNumberFits t.value k := by
  rw [parseByteSize_size t hk]
  unfold SizeNumberFits
  by_cases hneg : t.value < 0
  · rw [if_pos hneg]
    exact iff_of_true (fun h => absurd h (by decide)) (Or.inl hneg)
  rw [if_neg hneg, or_iff_right hneg]
  by_cases hzero : k = 0
  · rw [if_pos hzero, if_pos hzero, hzero, pow_zero, mul_one]
    omega
  rw [if_neg hzero, if_neg hzero]
  have hk4 : k ≤ 4 := by
    generalize t.rest = rest at hk
    cases hk with
    | plain hs => exact absurd rfl hzero
    | letter hc hs => exact (sizeLetters_pos hc).2
  by_cases hlarge : 2 ^ 63 ≤ t.value
  · have hmin : min t.value (2 ^ 63 - 1) = 2 ^ 63 - 1 := by omega
    have hwrap := wrap64_max_mul (k := k) (by omega) hk4
    rw [hmin]
    exact iff_of_true (fun h => absurd h (not_le.mpr hwrap)) (Or.inl hlarge)
  · have hmin : min t.value (2 ^ 63 - 1) = t.value := by omega
    rw [hmin, or_iff_right hlarge]
    exact wrap64_eq_iff (mul_nonneg (not_lt.mp hneg) (by positivity))

/-! ### Settings -/

/-- A setting as it is read is the number its value writes. -/
def ReadsExactly (read : TomlDatum → Except Bytes ℤ) (stored : ℤ → ℤ) (d : TomlDatum) : Prop :=
  ∀ n v, read d = .ok n → Writes d v → stored n = v

/-- A number that is stored as an `int`. -/
theorem secretNumber_exact_iff (i : ℕ) (name : Bytes) (d : TomlDatum) :
    ReadsExactly (secretNumber i name) wrap32 d ↔ IntFits d := by
  cases d with
  | int64 m =>
    show _ ↔ m < 2 ^ 31
    constructor
    · intro h
      by_cases hneg : m < 0
      · omega
      · have hread : secretNumber i name (.int64 m) = .ok m := if_neg hneg
        have hexact := h m m hread (.int64 m)
        have hlt := wrap32_lt m
        omega
    · intro hlt n v hread hv
      cases hv
      simp only [secretNumber] at hread
      split_ifs at hread with hneg
      obtain rfl := Except.ok.inj hread
      exact wrap32_of_fits (by omega) hlt
  | string str =>
    show _ ↔ ∀ t k, cString str = NumberText.text t → SizeSuffix t.rest k → t.value = 0
    constructor
    · intro h t k ht hk
      have hexact : 0 = t.value * 1024 ^ k := h 0 _ rfl (.size t ht hk)
      have hpos : (0 : ℤ) < 1024 ^ k := by positivity
      exact (mul_eq_zero.mp hexact.symm).resolve_right hpos.ne'
    · intro h n v hread hv
      obtain rfl := Except.ok.inj hread
      cases hv with
      | size t ht hk => rw [h t _ ht hk, zero_mul]; rfl
  | _ => exact iff_of_true (fun n v hread hv => by cases hv) trivial

/-- A number of bytes. -/
theorem secretBytes_exact_iff (i : ℕ) (name : Bytes) (d : TomlDatum) :
    ReadsExactly (secretBytes i name) id d ↔ SizeFits d := by
  cases d with
  | int64 m =>
    refine iff_of_true (fun n v hread hv => ?_) trivial
    cases hv
    simp only [secretBytes, secretNumber] at hread
    split_ifs at hread with hneg
    exact (Except.ok.inj hread).symm
  | string str =>
    show _ ↔ ∀ t k, cString str = NumberText.text t → SizeSuffix t.rest k →
      SizeNumberFits t.value k
    constructor
    · intro h t k ht hk
      refine (parseByteSize_fits_iff t hk).mp fun hpos => ?_
      have hread : secretBytes i name (.string str) = .ok (parseByteSize (cString str)) := by
        rw [← ht] at hpos
        simp only [secretBytes]
        rw [if_neg (not_lt.mpr hpos), ht]
      exact ht ▸ h _ _ hread (.size t ht hk)
    · intro h n v hread hv
      cases hv with
      | size t ht hk =>
        simp only [secretBytes] at hread
        split_ifs at hread with hneg
        obtain rfl := Except.ok.inj hread
        rw [ht] at hneg ⊢
        exact (parseByteSize_fits_iff t hk).mpr (h t _ ht hk) (not_lt.mp hneg)
  | _ => exact iff_of_true (fun n v hread hv => by cases hv) trivial

/-! ### Secrets -/

/-- What an entry that is accepted stores of its limits. -/
theorem parseSecret_limits {i : ℕ} {entry : TomlDatum} {cfg : SecretConfig}
    (h : parseSecret i entry = .ok cfg) :
    (∃ n, secretNumber i (ascii "limit") (tomlGet entry (ascii "limit")) = .ok n ∧
      cfg.limit = wrap32 n) ∧
    secretBytes i (ascii "quota") (tomlGet entry (ascii "quota")) = .ok cfg.quota ∧
    secretBytes i (ascii "rate_limit") (tomlGet entry (ascii "rate_limit")) = .ok cfg.rateLimit ∧
    ∃ n, secretNumber i (ascii "max_ips") (tomlGet entry (ascii "max_ips")) = .ok n ∧
      cfg.maxIps = wrap32 n := by
  unfold parseSecret at h
  split at h
  · obtain ⟨key, -, h⟩ := bind_ok_iff.mp h
    obtain ⟨label, -, h⟩ := bind_ok_iff.mp h
    obtain ⟨limit, hlimit, h⟩ := bind_ok_iff.mp h
    obtain ⟨quota, hquota, h⟩ := bind_ok_iff.mp h
    obtain ⟨rateLimit, hrate, h⟩ := bind_ok_iff.mp h
    obtain ⟨maxIps, hips, h⟩ := bind_ok_iff.mp h
    obtain ⟨expires, -, h⟩ := bind_ok_iff.mp h
    obtain rfl := Except.ok.inj h
    exact ⟨⟨limit, hlimit, rfl⟩, hquota, hrate, maxIps, hips, rfl⟩
  · simp at h

/-- The secrets of a file are those of its entries, in their order. -/
theorem parseSecretList_get {i j : ℕ} {entries : List TomlDatum} {cfgs : List SecretConfig}
    (h : parseSecretList i entries = .ok cfgs) {entry : TomlDatum} {cfg : SecretConfig}
    (hentry : entries[j]? = some entry) (hcfg : cfgs[j]? = some cfg) :
    parseSecret (i + j) entry = .ok cfg := by
  induction entries generalizing i j cfgs with
  | nil => simp at hentry
  | cons e entries ih =>
    obtain ⟨first, hfirst, h⟩ := bind_ok_iff.mp h
    obtain ⟨rest, hrest, h⟩ := bind_ok_iff.mp h
    obtain rfl := Except.ok.inj h
    cases j with
    | zero =>
      obtain rfl := Option.some.inj hentry
      obtain rfl := Option.some.inj hcfg
      exact hfirst
    | succ j =>
      rw [List.getElem?_cons_succ] at hentry hcfg
      have hj := ih hrest hentry hcfg
      rwa [Nat.add_assoc, Nat.add_comm 1 j] at hj

/-- **A setting is stored exactly or refused**: in every file that is accepted, where an entry gives
this value for it, what is stored is the number the value writes. -/
def StoredExactly (name : Bytes) (stored : SecretConfig → ℤ) (d : TomlDatum) : Prop :=
  ∀ toptab (elem : List TomlDatum) (cfgs : List SecretConfig),
    tomlGet toptab (ascii "secret") = .array elem → parseSecrets toptab = .ok cfgs →
      ∀ (i : ℕ) entry cfg, elem[i]? = some entry → cfgs[i]? = some cfg →
        tomlGet entry name = d → ∀ v, Writes d v → stored cfg = v

/-- A file with one secret that has one setting. -/
def oneSecret (name : Bytes) (d : TomlDatum) : TomlDatum :=
  .table [(ascii "key", .string (List.replicate 32 0x30)), (name, d)]

def oneSecretFile (name : Bytes) (d : TomlDatum) : TomlDatum :=
  .table [(ascii "secret", .array [oneSecret name d])]

/-- The secret that a file with one secret and no settings writes. -/
def bareSecret : SecretConfig := ⟨List.replicate 16 0, [], 0, 0, 0, 0, 0⟩

/-- A file with one secret is accepted if its setting is. -/
theorem oneSecretFile_ok {name : Bytes} {d : TomlDatum} {cfg : SecretConfig}
    (h : parseSecret 0 (oneSecret name d) = .ok cfg) :
    parseSecrets (oneSecretFile name d) = .ok [cfg] := by
  have hget : tomlGet (oneSecretFile name d) (ascii "secret") = .array [oneSecret name d] := rfl
  unfold parseSecrets
  rw [hget]
  show parseSecretList 0 [oneSecret name d] = _
  rw [parseSecretList, h]
  rfl

theorem oneSecret_limit {d : TomlDatum} {n : ℤ} (h : secretNumber 0 (ascii "limit") d = .ok n) :
    parseSecret 0 (oneSecret (ascii "limit") d) = .ok { bareSecret with limit := wrap32 n } := by
  have hget : tomlGet (oneSecret (ascii "limit") d) (ascii "limit") = d := rfl
  show (secretNumber 0 (ascii "limit") (tomlGet (oneSecret (ascii "limit") d) (ascii "limit"))).bind
    _ = _
  rw [hget, h]
  rfl

theorem oneSecret_quota {d : TomlDatum} {n : ℤ} (h : secretBytes 0 (ascii "quota") d = .ok n) :
    parseSecret 0 (oneSecret (ascii "quota") d) = .ok { bareSecret with quota := n } := by
  have hget : tomlGet (oneSecret (ascii "quota") d) (ascii "quota") = d := rfl
  show (secretBytes 0 (ascii "quota") (tomlGet (oneSecret (ascii "quota") d) (ascii "quota"))).bind
    _ = _
  rw [hget, h]
  rfl

theorem oneSecret_rateLimit {d : TomlDatum} {n : ℤ} (h : secretBytes 0 (ascii "rate_limit") d = .ok n) :
    parseSecret 0 (oneSecret (ascii "rate_limit") d) = .ok { bareSecret with rateLimit := n } := by
  have hget : tomlGet (oneSecret (ascii "rate_limit") d) (ascii "rate_limit") = d := rfl
  show (secretBytes 0 (ascii "rate_limit") (tomlGet (oneSecret (ascii "rate_limit") d) (ascii "rate_limit"))).bind
    _ = _
  rw [hget, h]
  rfl

theorem oneSecret_maxIps {d : TomlDatum} {n : ℤ} (h : secretNumber 0 (ascii "max_ips") d = .ok n) :
    parseSecret 0 (oneSecret (ascii "max_ips") d) = .ok { bareSecret with maxIps := wrap32 n } := by
  have hget : tomlGet (oneSecret (ascii "max_ips") d) (ascii "max_ips") = d := rfl
  show (secretNumber 0 (ascii "max_ips") (tomlGet (oneSecret (ascii "max_ips") d) (ascii "max_ips"))).bind
    _ = _
  rw [hget, h]
  rfl

/-- A setting is stored exactly or refused if it is read so. -/
theorem storedExactly_iff {name : Bytes} {stored : SecretConfig → ℤ}
    {read : ℕ → TomlDatum → Except Bytes ℤ} {cut : ℤ → ℤ} {d : TomlDatum} {fits : Prop}
    (hread : ∀ i entry cfg, parseSecret i entry = .ok cfg →
      ∃ n, read i (tomlGet entry name) = .ok n ∧ stored cfg = cut n)
    (hone : ∀ n, read 0 d = .ok n →
      ∃ cfg, parseSecret 0 (oneSecret name d) = .ok cfg ∧ stored cfg = cut n)
    (hget : tomlGet (oneSecret name d) name = d)
    (hfits : ∀ i, ReadsExactly (read i) cut d ↔ fits) : StoredExactly name stored d ↔ fits := by
  rw [← hfits 0]
  constructor
  · intro h n v hn hv
    obtain ⟨cfg, hcfg, hstored⟩ := hone n hn
    rw [← hstored]
    exact h (oneSecretFile name d) [oneSecret name d] [cfg] rfl (oneSecretFile_ok hcfg) 0
      (oneSecret name d) cfg rfl rfl hget v hv
  · intro h toptab elem cfgs harray hparse i entry cfg hentry hcfg hd v hv
    have hlist : parseSecretList 0 elem = .ok cfgs := by
      unfold parseSecrets at hparse
      rw [harray] at hparse
      dsimp only at hparse
      split_ifs at hparse
      exact hparse
    obtain ⟨n, hn, hstored⟩ := hread _ entry cfg (parseSecretList_get hlist hentry hcfg)
    rw [hd] at hn
    rw [hstored]
    exact (hfits _).mpr ((hfits 0).mp h) n v hn hv

/-- **The values that are stored exactly or refused**, for each of the four limits: whatever else the
entry and the file hold. -/
theorem secretLimits_iff (d : TomlDatum) :
    (StoredExactly (ascii "limit") SecretConfig.limit d ↔ IntFits d) ∧
    (StoredExactly (ascii "max_ips") SecretConfig.maxIps d ↔ IntFits d) ∧
    (StoredExactly (ascii "quota") SecretConfig.quota d ↔ SizeFits d) ∧
    (StoredExactly (ascii "rate_limit") SecretConfig.rateLimit d ↔ SizeFits d) := by
  refine ⟨?_, ?_, ?_, ?_⟩
  · refine storedExactly_iff (fun i entry cfg h => (parseSecret_limits h).1)
      (fun n h => ⟨_, oneSecret_limit h, rfl⟩) rfl fun i => secretNumber_exact_iff i _ d
  · refine storedExactly_iff (fun i entry cfg h => (parseSecret_limits h).2.2.2)
      (fun n h => ⟨_, oneSecret_maxIps h, rfl⟩) rfl fun i => secretNumber_exact_iff i _ d
  · refine storedExactly_iff (fun i entry cfg h => ⟨_, (parseSecret_limits h).2.1, rfl⟩)
      (fun n h => ⟨_, oneSecret_quota h, rfl⟩) rfl fun i => secretBytes_exact_iff i _ d
  · refine storedExactly_iff (fun i entry cfg h => ⟨_, (parseSecret_limits h).2.2.1, rfl⟩)
      (fun n h => ⟨_, oneSecret_rateLimit h, rfl⟩) rfl fun i => secretBytes_exact_iff i _ d

theorem sampleSize_blank : ∀ c ∈ ([] : Bytes), isSpace c = true := by simp

theorem sampleSize_digits : ∀ c ∈ ascii "16777216", isDigit c = true := by decide +kernel

theorem sampleSize_ne : ascii "16777216" ≠ [] := by decide

theorem sampleSize_rest : ∀ c ∈ (ascii "T").head?, isDigit c = false := by decide +kernel

/-- The number in front of the letter of a size that is too large. -/
def sampleSize : NumberText where
  blank := []
  sign := .none
  digits := ascii "16777216"
  rest := ascii "T"
  blank_all := sampleSize_blank
  digits_ne := sampleSize_ne
  digits_all := sampleSize_digits
  rest_head := sampleSize_rest

/-- A limit of `2 ^ 32` connections and a quota of `16777216T`, which is `2 ^ 64` bytes, are stored
as 0, so that there is no limit and no quota. -/
theorem secretLimits_wrapped :
    ¬ (StoredExactly (ascii "limit") SecretConfig.limit (.int64 (2 ^ 32)) ∨
      StoredExactly (ascii "quota") SecretConfig.quota (.string (ascii "16777216T"))) := by
  rintro (h | h)
  · have hlimit := h (oneSecretFile (ascii "limit") (.int64 (2 ^ 32))) [_] [_] rfl
      (oneSecretFile_ok (oneSecret_limit rfl)) 0 _ _ rfl rfl rfl _ (.int64 (2 ^ 32))
    exact absurd hlimit (by decide)
  · have hwrites : Writes (.string (ascii "16777216T")) (sampleSize.value * 1024 ^ 4) :=
      .size sampleSize rfl (.letter (by decide) (Or.inl rfl))
    have hquota := h (oneSecretFile (ascii "quota") (.string (ascii "16777216T"))) [_] [_] rfl
      (oneSecretFile_ok (oneSecret_quota rfl)) 0 _ _ rfl rfl rfl _ hwrites
    exact absurd hquota (by decide)

end Server
end Teleproto3
