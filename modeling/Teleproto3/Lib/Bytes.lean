/-
# Strings of bytes on a wire

Little-endian and big-endian numbers, the first `CR LF` of a string, and the case split that
every parser of a stream needs: a prefix of `a ++ b` either stops inside `a` or
is `a` followed by a prefix of `b`.
-/

import Mathlib.Data.List.GetD
import Teleproto3.Lib.Memory

namespace Teleproto3
namespace Lib

/-- A prefix of `a ++ b` stops inside `a`, or is `a` followed by a prefix of `b`. -/
theorem prefix_append_cases {α : Type*} {p a b : List α} (h : p <+: a ++ b) :
    (p <+: a ∧ p.length < a.length) ∨ ∃ q, p = a ++ q ∧ q <+: b := by
  rcases List.prefix_or_prefix_of_prefix h (List.prefix_append a b) with hpa | hap
  · rcases Nat.lt_or_ge p.length a.length with hlt | hge
    · exact Or.inl ⟨hpa, hlt⟩
    · have heq : p = a := hpa.eq_of_length (Nat.le_antisymm hpa.length_le hge)
      exact Or.inr ⟨[], by rw [heq, List.append_nil], List.nil_prefix⟩
  · obtain ⟨q, rfl⟩ := hap
    exact Or.inr ⟨q, rfl, (List.prefix_append_right_inj a).mp h⟩

/-- The concatenation over a list with one more element at its end. -/
theorem flatMap_concat {α β : Type*} (f : α → List β) (l : List α) (a : α) :
    (l ++ [a]).flatMap f = l.flatMap f ++ f a := by
  rw [List.flatMap_append, List.flatMap_singleton]

/-- A prefix has the bytes of the whole. -/
theorem getD_of_prefix {α : Type*} {p l : List α} (h : p <+: l) {i : ℕ} (hi : i < p.length)
    (d : α) : p.getD i d = l.getD i d := by
  obtain ⟨t, rfl⟩ := h
  rw [List.getD_append _ _ _ _ hi]

/-! ### Little-endian numbers -/

/-- The four bytes of a number below `2 ^ 32`, the low byte first. -/
def le32 (n : ℕ) : Bytes :=
  [UInt8.ofNat n, UInt8.ofNat (n / 256), UInt8.ofNat (n / 65536), UInt8.ofNat (n / 16777216)]

/-- The number the first four bytes spell, the low byte first. -/
def readLe32 : Bytes → ℕ
  | a :: b :: c :: d :: _ => a.toNat + 256 * b.toNat + 65536 * c.toNat + 16777216 * d.toNat
  | _ => 0

@[simp] theorem le32_length (n : ℕ) : (le32 n).length = 4 := rfl

/-- Reading back what was written, with anything behind it. -/
theorem readLe32_le32_append (n : ℕ) (hn : n < 2 ^ 32) (rest : Bytes) :
    readLe32 (le32 n ++ rest) = n := by
  simp only [le32, readLe32, List.cons_append, UInt8.toNat_ofNat']
  omega

theorem readLe32_lt (bs : Bytes) : readLe32 bs < 2 ^ 32 := by
  unfold readLe32
  split
  · next a b c d _ =>
    have h1 := a.toNat_lt
    have h2 := b.toNat_lt
    have h3 := c.toNat_lt
    have h4 := d.toNat_lt
    omega
  · decide

/-- The eight bytes of a number, the low byte first. -/
def le64 (n : ℕ) : Bytes := le32 (n % 2 ^ 32) ++ le32 (n / 2 ^ 32)

/-- The number the first eight bytes spell, the low byte first. -/
def readLe64 (bs : Bytes) : ℕ := readLe32 bs + 2 ^ 32 * readLe32 (bs.drop 4)

@[simp] theorem le64_length (n : ℕ) : (le64 n).length = 8 := rfl

/-- The low `w` bytes of a number, the high byte first. -/
def beBytes : ℕ → ℕ → Bytes
  | 0, _ => []
  | w + 1, n => beBytes w (n / 256) ++ [UInt8.ofNat n]

/-- The number a string of bytes spells, the high byte first. -/
def beValue (bs : Bytes) : ℕ := bs.foldl (fun v b => v * 256 + b.toNat) 0

@[simp] theorem beBytes_length (w n : ℕ) : (beBytes w n).length = w := by
  induction w generalizing n with
  | zero => rfl
  | succ w ih => simp only [beBytes, List.length_append, ih, List.length_singleton]

/-- A number of so many bytes is below the power of 256. -/
theorem beValue_lt (bs : Bytes) : beValue bs < 256 ^ bs.length := by
  have hfold (v : ℕ) : bs.foldl (fun v b => v * 256 + b.toNat) v < (v + 1) * 256 ^ bs.length := by
    induction bs generalizing v with
    | nil => simp
    | cons b bs ih =>
      have hb := b.toNat_lt
      calc (b :: bs).foldl (fun v b => v * 256 + b.toNat) v
          < (v * 256 + b.toNat + 1) * 256 ^ bs.length := ih _
        _ ≤ ((v + 1) * 256) * 256 ^ bs.length := Nat.mul_le_mul_right _ (by omega)
        _ = (v + 1) * 256 ^ (b :: bs).length := by
          rw [List.length_cons, Nat.pow_succ, Nat.mul_assoc, Nat.mul_comm 256]
  have hzero := hfold 0
  rw [Nat.zero_add, Nat.one_mul] at hzero
  exact hzero

/-- The high bytes and the low bytes of a number. -/
theorem beBytes_add (v w n : ℕ) :
    beBytes (v + w) n = beBytes v (n / 256 ^ w) ++ beBytes w n := by
  induction w generalizing n with
  | zero => simp [beBytes]
  | succ w ih =>
    rw [show v + (w + 1) = (v + w) + 1 from rfl, beBytes, ih, beBytes, List.append_assoc,
      Nat.div_div_eq_div_mul, Nat.pow_succ, Nat.mul_comm 256]

/-- The bytes of a number are those of what is left of it. -/
theorem beValue_beBytes_mod (w n : ℕ) : beValue (beBytes w n) = n % 256 ^ w := by
  induction w generalizing n with
  | zero => simp [beBytes, beValue, Nat.mod_one]
  | succ w ih =>
    have hrec := ih (n / 256)
    simp only [beValue] at hrec ⊢
    simp only [beBytes, List.foldl_append, hrec, List.foldl_cons, List.foldl_nil,
      UInt8.toNat_ofNat']
    have hsplit : n % 256 ^ (w + 1) = n % 256 + 256 * (n / 256 % 256 ^ w) := by
      rw [Nat.pow_succ, Nat.mul_comm _ 256, Nat.mod_mul]
    omega

/-- A number that fits is read back. -/
theorem beValue_beBytes (w n : ℕ) (hn : n < 256 ^ w) : beValue (beBytes w n) = n := by
  rw [beValue_beBytes_mod, Nat.mod_eq_of_lt hn]

/-! ### The first `CR LF` -/

/-- `CR LF`. -/
def crlf : Bytes := [13, 10]

/-- The index of the first `CR LF`. -/
def findCrlf : Bytes → Option ℕ
  | a :: b :: rest => if a = 13 ∧ b = 10 then some 0 else (findCrlf (b :: rest)).map (· + 1)
  | _ => none

@[simp] theorem crlf_length : crlf.length = 2 := rfl

/-- A `CR LF` found lies inside the string. -/
theorem findCrlf_lt {bs : Bytes} {i : ℕ} (h : findCrlf bs = some i) : i + 2 ≤ bs.length := by
  induction bs generalizing i with
  | nil => exact nomatch h
  | cons a bs ih =>
    cases bs with
    | nil => exact nomatch h
    | cons b rest =>
      rw [findCrlf] at h
      split_ifs at h with hab
      · cases h
        simp only [List.length_cons]
        omega
      · obtain ⟨j, hj, rfl⟩ := Option.map_eq_some_iff.mp h
        have := ih hj
        simp only [List.length_cons] at this ⊢
        omega

theorem findCrlf_cons (a b : UInt8) (rest : Bytes) :
    findCrlf (a :: b :: rest) =
      if a = 13 ∧ b = 10 then some 0 else (findCrlf (b :: rest)).map (· + 1) := rfl

/-- What is found in the first `n` bytes is what is found in all of them, where it ends in
time. -/
theorem findCrlf_take (bs : Bytes) (n : ℕ) :
    findCrlf (bs.take n) = (findCrlf bs).filter fun i => i + 2 ≤ n := by
  induction bs generalizing n with
  | nil =>
    rw [List.take_nil]
    rfl
  | cons a bs ih =>
    have hshort (hn : n < 2) : (findCrlf (a :: bs)).filter (fun i => i + 2 ≤ n) = none := by
      rw [Option.filter_eq_none_iff]
      intro i _
      simp only [decide_eq_true_eq]
      omega
    match n, bs with
    | 0, _ => exact (hshort (by decide)).symm
    | 1, _ => exact (hshort (by decide)).symm
    | n + 2, [] => rfl
    | n + 2, b :: rest =>
      have hrest := ih (n + 1)
      rw [List.take_succ_cons] at hrest
      rw [List.take_succ_cons, List.take_succ_cons, findCrlf_cons, findCrlf_cons]
      by_cases hab : a = 13 ∧ b = 10
      · rw [if_pos hab, if_pos hab]
        rfl
      · rw [if_neg hab, if_neg hab, hrest]
        cases findCrlf (b :: rest) with
        | none => rfl
        | some i => by_cases hi : i + 2 ≤ n + 1 <;> simp [Option.filter, hi] <;> omega

/-- A line end found in the bytes so far is the one found in all. -/
theorem findCrlf_append {bs : Bytes} {i : ℕ} (h : findCrlf bs = some i) (rest : Bytes) :
    findCrlf (bs ++ rest) = some i := by
  have htake := findCrlf_take (bs ++ rest) bs.length
  rw [List.take_left, h] at htake
  obtain ⟨hfind, -⟩ := Option.filter_eq_some_iff.mp htake.symm
  exact hfind

/-- There is none in a part of a string without one. -/
theorem findCrlf_of_append {as bs : Bytes} (h : findCrlf (as ++ bs) = none) :
    findCrlf bs = none := by
  induction as with
  | nil => exact h
  | cons a as ih =>
    cases hrest : as ++ bs with
    | nil =>
      rw [(List.append_eq_nil_iff.mp hrest).2]
      rfl
    | cons b rest =>
      rw [List.cons_append, hrest, findCrlf_cons] at h
      split_ifs at h
      exact ih (hrest ▸ Option.map_eq_none_iff.mp h)

/-- The line in front of a line end. -/
theorem findCrlf_split {bs : Bytes} {i : ℕ} (h : findCrlf bs = some i) :
    findCrlf (bs.take i) = none ∧ ∃ rest, bs = bs.take i ++ crlf ++ rest := by
  constructor
  · rw [findCrlf_take, h]
    exact Option.filter_some_neg (by simp)
  · induction bs generalizing i with
    | nil => exact nomatch h
    | cons a bs ih =>
      cases bs with
      | nil => exact nomatch h
      | cons b rest =>
        rw [findCrlf_cons] at h
        split_ifs at h with hab
        · cases h
          exact ⟨rest, by rw [hab.1, hab.2]; rfl⟩
        · obtain ⟨j, hj, rfl⟩ := Option.map_eq_some_iff.mp h
          obtain ⟨u, hu⟩ := ih hj
          refine ⟨u, ?_⟩
          rw [List.take_succ_cons, List.cons_append, List.cons_append, ← hu]

/-- A string without a `CR` in front of a string without a `CR LF`. -/
theorem findCrlf_append_of_notMem (as bs : Bytes) (ha : (13 : UInt8) ∉ as)
    (hb : findCrlf bs = none) : findCrlf (as ++ bs) = none := by
  induction as with
  | nil => exact hb
  | cons a as ih =>
    have ha13 : a ≠ 13 := fun h => ha (h ▸ List.mem_cons_self)
    have hrest := ih fun h => ha (List.mem_cons_of_mem _ h)
    cases hcase : as ++ bs with
    | nil =>
      rw [List.cons_append, hcase]
      rfl
    | cons b rest =>
      rw [List.cons_append, hcase, findCrlf, if_neg (fun h => ha13 h.1), ← hcase, hrest]
      rfl

/-- A line without a `CR LF` in it ends where the first `CR LF` behind it starts. -/
theorem findCrlf_line (line rest : Bytes) (h : findCrlf line = none) :
    findCrlf (line ++ crlf ++ rest) = some line.length := by
  induction line with
  | nil => rfl
  | cons a line ih =>
    cases line with
    | nil =>
      have ha : ¬ (a = 13 ∧ (13 : UInt8) = 10) := fun hc => absurd hc.2 (by decide)
      simp only [crlf, List.cons_append, List.nil_append, findCrlf, if_neg ha]
      rfl
    | cons b line =>
      rw [findCrlf] at h
      split_ifs at h with hab
      have hrest := ih (Option.map_eq_none_iff.mp h)
      simp only [List.cons_append] at hrest ⊢
      rw [findCrlf, if_neg hab, hrest]
      rfl

/-- With the line's `CR` alone behind it there is still no `CR LF`, nor in any prefix. -/
theorem findCrlf_of_prefix_line (line p : Bytes) (h : findCrlf line = none)
    (hp : p <+: line ++ [13]) : findCrlf p = none := by
  induction line generalizing p with
  | nil =>
    rcases List.prefix_cons_iff.mp hp with rfl | ⟨t, rfl, ht⟩
    · rfl
    · rw [List.prefix_nil.mp ht]
      rfl
  | cons a line ih =>
    rcases List.prefix_cons_iff.mp hp with rfl | ⟨t, rfl, ht⟩
    · rfl
    · cases t with
      | nil => rfl
      | cons b t =>
        have hline : findCrlf line = none := by
          cases line with
          | nil => rfl
          | cons c line =>
            rw [findCrlf] at h
            split_ifs at h with hac
            exact Option.map_eq_none_iff.mp h
        have hab : ¬ (a = 13 ∧ b = 10) := by
          intro hab
          cases line with
          | nil =>
            rcases List.prefix_cons_iff.mp ht with hnil | ⟨u, hu, -⟩
            · exact nomatch hnil
            · rw [(List.cons.inj hu).1] at hab
              exact absurd hab.2 (by decide)
          | cons c line =>
            have hbc : b = c := by
              rcases List.prefix_cons_iff.mp ht with hnil | ⟨u, hu, -⟩
              · exact nomatch hnil
              · exact (List.cons.inj hu).1
            rw [hbc] at hab
            rw [findCrlf, if_pos hab] at h
            exact nomatch h
        rw [findCrlf, if_neg hab, ih _ hline ht]
        rfl

end Lib
end Teleproto3
