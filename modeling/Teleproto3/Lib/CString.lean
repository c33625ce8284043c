/-
# Strings that end at a zero byte

The string functions of C on a buffer that ends with a zero byte: what they see of the
buffer is `cString`, the bytes before the first zero.  `findSub` is the position of the
first occurrence of one string in another, and `startsWithFold` and `findSubFold` are the
comparisons that do not tell the cases of a letter apart.

A string found stays where it was found when more bytes are appended
(`findSub_append`), which is what makes a decision taken on a part of a stream the
decision on the whole.
-/

import Teleproto3.Lib.Memory

namespace Teleproto3
namespace Lib

/-- A string literal of the program, a byte for each character. -/
def ascii (s : String) : Bytes := s.toList.map fun ch => UInt8.ofNat ch.toNat

/-- The string a buffer holds. -/
def cString (bs : Bytes) : Bytes := bs.takeWhile (· ≠ 0)

/-- The position of the first occurrence of `needle`. -/
def findSub (needle : Bytes) : Bytes → Option ℕ
  | [] => if needle.isPrefixOf [] then some 0 else none
  | b :: bs => if needle.isPrefixOf (b :: bs) then some 0 else (findSub needle bs).map (· + 1)

/-- `isspace` in the locale of C. -/
def isSpace (b : UInt8) : Bool := b = 0x20 ∨ 0x09 ≤ b ∧ b ≤ 0x0D

/-- `isdigit`. -/
def isDigit (b : UInt8) : Bool := 0x30 ≤ b ∧ b ≤ 0x39

/-- `tolower` on a byte. -/
def toLower (b : UInt8) : UInt8 := if 0x41 ≤ b ∧ b ≤ 0x5A then b + 0x20 else b

/-- `toupper` on a byte. -/
def toUpper (b : UInt8) : UInt8 := if 0x61 ≤ b ∧ b ≤ 0x7A then b - 0x20 else b

/-- `strncasecmp (s, needle, strlen (needle)) == 0`. -/
def startsWithFold (needle s : Bytes) : Bool :=
  (needle.map toLower).isPrefixOf (s.map toLower)

/-- The position `strcasestr` finds. -/
def findSubFold (needle s : Bytes) : Option ℕ := findSub (needle.map toLower) (s.map toLower)

/-- What is found lies inside the string, at the position found. -/
theorem findSub_some {needle : Bytes} {bs : Bytes} {i : ℕ} (h : findSub needle bs = some i) :
    needle <+: bs.drop i ∧ i + needle.length ≤ bs.length := by
  induction bs generalizing i with
  | nil =>
    rw [findSub] at h
    split_ifs at h with hp
    cases h
    have hpre := List.isPrefixOf_iff_prefix.mp hp
    exact ⟨hpre, by have := hpre.length_le; omega⟩
  | cons b bs ih =>
    rw [findSub] at h
    split_ifs at h with hp
    · cases h
      have hpre := List.isPrefixOf_iff_prefix.mp hp
      exact ⟨hpre, by have := hpre.length_le; omega⟩
    · obtain ⟨j, hj, rfl⟩ := Option.map_eq_some_iff.mp h
      obtain ⟨hpre, hle⟩ := ih hj
      exact ⟨hpre, by simp only [List.length_cons]; omega⟩

/-- **A string found stays found**, at the same position, with more bytes behind. -/
theorem findSub_append {needle : Bytes} {bs : Bytes} {i : ℕ} (h : findSub needle bs = some i)
    (more : Bytes) : findSub needle (bs ++ more) = some i := by
  induction bs generalizing i with
  | nil =>
    rw [findSub] at h
    split_ifs at h with hp
    cases h
    have hnil : needle = [] := List.prefix_nil.mp (List.isPrefixOf_iff_prefix.mp hp)
    rw [hnil]
    cases more <;> rfl
  | cons b bs ih =>
    rw [findSub] at h
    rw [List.cons_append, findSub]
    split_ifs at h with hp
    · cases h
      have hpre : needle <+: b :: (bs ++ more) :=
        (List.isPrefixOf_iff_prefix.mp hp).trans (List.prefix_append (b :: bs) more)
      rw [if_pos (List.isPrefixOf_iff_prefix.mpr hpre)]
    · obtain ⟨j, hj, rfl⟩ := Option.map_eq_some_iff.mp h
      have hlen := (findSub_some hj).2
      have hnot : ¬ needle.isPrefixOf (b :: (bs ++ more)) = true := by
        intro hq
        refine hp (List.isPrefixOf_iff_prefix.mpr ?_)
        refine List.prefix_of_prefix_length_le (List.isPrefixOf_iff_prefix.mp hq)
          (List.prefix_append (b :: bs) more) ?_
        simp only [List.length_cons]
        omega
      rw [if_neg hnot, ih hj]
      rfl

/-- A string is not found where its first occurrence is not complete. -/
theorem findSub_of_prefix {needle q bs : Bytes} {i : ℕ} (h : findSub needle bs = some i)
    (hq : q <+: bs) (hlt : q.length < i + needle.length) : findSub needle q = none := by
  obtain ⟨more, rfl⟩ := hq
  cases hfind : findSub needle q with
  | none => rfl
  | some j =>
    have hj : j = i := Option.some.inj ((findSub_append hfind more).symm.trans h)
    have := (findSub_some hfind).2
    omega

/-- What begins with a string that lacks one of its bytes begins with it whatever follows. -/
theorem prefix_append_iff_of_notMem {needle bs : Bytes} {b : UInt8} (hb : b ∈ bs)
    (hn : b ∉ needle) (more : Bytes) : needle <+: bs ++ more ↔ needle <+: bs := by
  constructor
  · intro h
    rcases le_total needle.length bs.length with hle | hle
    · exact List.prefix_of_prefix_length_le h (List.prefix_append bs more) hle
    · have hpre := List.prefix_of_prefix_length_le (List.prefix_append bs more) h hle
      exact absurd (hpre.subset hb) hn
  · exact fun h => h.trans (List.prefix_append bs more)

/-- The string of a longer buffer starts with the string of the shorter one. -/
theorem cString_append (bs more : Bytes) :
    cString (bs ++ more) = if (0 : UInt8) ∈ bs then cString bs else bs ++ cString more := by
  induction bs with
  | nil => rfl
  | cons b bs ih =>
    unfold cString at ih ⊢
    by_cases hb : b = 0
    · rw [if_pos (by rw [hb]; exact List.mem_cons_self), List.cons_append,
        List.takeWhile_cons_of_neg (by simpa using hb),
        List.takeWhile_cons_of_neg (by simpa using hb)]
    · rw [List.cons_append, List.takeWhile_cons_of_pos (by simpa using hb),
        List.takeWhile_cons_of_pos (by simpa using hb), ih]
      have hmem : (0 : UInt8) ∈ b :: bs ↔ (0 : UInt8) ∈ bs := by
        rw [List.mem_cons]
        exact ⟨fun h => h.resolve_left fun h0 => hb h0.symm, Or.inr⟩
      by_cases h0 : (0 : UInt8) ∈ bs
      · rw [if_pos h0, if_pos (hmem.mpr h0)]
      · rw [if_neg h0, if_neg fun h => h0 (hmem.mp h)]
        rfl

theorem cString_prefix (bs : Bytes) : cString bs <+: bs := List.takeWhile_prefix _

end Lib
end Teleproto3
