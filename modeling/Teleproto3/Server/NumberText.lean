/-
# Texts that begin with a number

`strtoll` skips white space, takes a sign and as many digits as there are, and says where it has
stopped.  `NumberText` is a text taken apart in this way: every text either is one
(`strtoll_text`), or has no number at its front and is left as it is (`strtoll_none`).

The number a text writes is any integer; what `strtoll` returns for it is the nearest `long long`.
-/

import Mathlib.Data.List.TakeWhile
import Teleproto3.Server.TomlConfig

namespace Teleproto3
namespace Server

open Lib

/-! ### Taking a text apart -/

/-- The sign in front of a number. -/
inductive NumberSign
  | none
  | plus
  | minus
  deriving DecidableEq, Repr

/-- How the sign is written. -/
def NumberSign.bytes : NumberSign → Bytes
  | .none => []
  | .plus => [0x2B]
  | .minus => [0x2D]

/-- White space, a sign, digits, and what follows the last digit. -/
structure NumberText where
  blank : Bytes
  sign : NumberSign
  digits : Bytes
  rest : Bytes
  blank_all : ∀ c ∈ blank, isSpace c = true
  digits_ne : digits ≠ []
  digits_all : ∀ c ∈ digits, isDigit c = true
  rest_head : ∀ c ∈ rest.head?, isDigit c = false

namespace NumberText

variable (t : NumberText)

/-- The text itself. -/
def text : Bytes := t.blank ++ (t.sign.bytes ++ (t.digits ++ t.rest))

/-- The number it writes. -/
def value : ℤ := if t.sign = .minus then -(decimal t.digits : ℤ) else decimal t.digits

end NumberText

/-- No number stands at the front of a text. -/
def NoNumber (s : Bytes) : Prop :=
  ∀ c ∈ (strtollSign (s.dropWhile isSpace)).2.head?, isDigit c = false

/-! ### Reading it -/

theorem isSpace_of_isDigit {c : UInt8} (h : isDigit c = true) : isSpace c = false := by
  unfold isDigit at h
  unfold isSpace
  simp only [decide_eq_true_eq, decide_eq_false_iff_not, not_or, not_and, UInt8.le_iff_toNat_le,
    ← UInt8.toNat_inj] at h ⊢
  simp only [UInt8.reduceToNat] at h ⊢
  omega

/-- A digit is no sign. -/
theorem strtollSign_digits {ds s : Bytes} (hne : ds ≠ []) (hds : ∀ c ∈ ds, isDigit c = true) :
    strtollSign (ds ++ s) = (false, ds ++ s) := by
  cases ds with
  | nil => exact absurd rfl hne
  | cons d ds =>
    have hd := hds d List.mem_cons_self
    have hminus : d ≠ 0x2D := by
      rintro rfl
      exact absurd hd (by decide)
    have hplus : d ≠ 0x2B := by
      rintro rfl
      exact absurd hd (by decide)
    rw [List.cons_append, strtollSign, if_neg hminus, if_neg hplus]

/-- What the loop over white space leaves. -/
theorem dropWhile_blank {bs s : Bytes} (hbs : ∀ c ∈ bs, isSpace c = true)
    (hs : ∀ c ∈ s.head?, isSpace c = false) : (bs ++ s).dropWhile isSpace = s := by
  induction bs with
  | nil =>
    cases s with
    | nil => rfl
    | cons c s => exact List.dropWhile_cons_of_neg (by simp [hs c rfl])
  | cons b bs ih =>
    rw [List.cons_append, List.dropWhile_cons_of_pos (hbs b List.mem_cons_self)]
    exact ih fun c hc => hbs c (List.mem_cons_of_mem b hc)

theorem takeWhile_digits {ds s : Bytes} (hds : ∀ c ∈ ds, isDigit c = true)
    (hs : ∀ c ∈ s.head?, isDigit c = false) :
    (ds ++ s).takeWhile isDigit = ds ∧ (ds ++ s).dropWhile isDigit = s := by
  induction ds with
  | nil =>
    cases s with
    | nil => exact ⟨rfl, rfl⟩
    | cons c s =>
      have hc : ¬ isDigit c = true := by simp [hs c rfl]
      exact ⟨List.takeWhile_cons_of_neg hc, List.dropWhile_cons_of_neg hc⟩
  | cons d ds ih =>
    obtain ⟨htake, hdrop⟩ := ih fun c hc => hds c (List.mem_cons_of_mem d hc)
    have hd := hds d List.mem_cons_self
    constructor
    · rw [List.cons_append, List.takeWhile_cons_of_pos hd, htake]
    · rw [List.cons_append, List.dropWhile_cons_of_pos hd, hdrop]

/-- What `strtollSign` makes of a sign and digits. -/
theorem strtollSign_bytes (sign : NumberSign) {ds s : Bytes} (hne : ds ≠ [])
    (hds : ∀ c ∈ ds, isDigit c = true) :
    strtollSign (sign.bytes ++ (ds ++ s)) = (decide (sign = .minus), ds ++ s) := by
  cases sign with
  | none => simpa [NumberSign.bytes] using strtollSign_digits (s := s) hne hds
  | plus => rfl
  | minus => rfl

/-- Behind the white space stands a sign or a digit. -/
theorem NumberText.head_not_space (t : NumberText) :
    ∀ c ∈ (t.sign.bytes ++ (t.digits ++ t.rest)).head?, isSpace c = false := by
  intro c hc
  cases hsign : t.sign with
  | none =>
    rw [hsign] at hc
    cases hdigits : t.digits with
    | nil => exact absurd hdigits t.digits_ne
    | cons d ds =>
      rw [hdigits] at hc
      obtain rfl : d = c := Option.some.inj hc
      exact isSpace_of_isDigit (t.digits_all d (hdigits ▸ List.mem_cons_self))
  | plus =>
    rw [hsign] at hc
    obtain rfl : 0x2B = c := Option.some.inj hc
    decide
  | minus =>
    rw [hsign] at hc
    obtain rfl : 0x2D = c := Option.some.inj hc
    decide

/-- **The number at the front of a text**, or the nearest there is. -/
theorem strtoll_text (t : NumberText) :
    strtoll t.text = (max (-2 ^ 63) (min t.value (2 ^ 63 - 1)), t.rest) := by
  obtain ⟨htake, hdrop⟩ := takeWhile_digits (s := t.rest) t.digits_all t.rest_head
  unfold strtoll NumberText.text
  rw [dropWhile_blank t.blank_all t.head_not_space,
    strtollSign_bytes t.sign t.digits_ne t.digits_all]
  dsimp only
  rw [htake, hdrop, if_neg t.digits_ne]
  unfold NumberText.value LLONG_MAX
  by_cases hminus : t.sign = .minus
  · simp only [hminus, decide_true, if_true]
    congr 1
    omega
  · simp only [hminus, decide_false, if_false, Bool.false_eq_true]
    congr 1
    omega

/-- A text without a number is left as it is. -/
theorem strtoll_none {s : Bytes} (h : NoNumber s) : strtoll s = (0, s) := by
  have hdigits : (strtollSign (s.dropWhile isSpace)).2.takeWhile isDigit = [] :=
    (takeWhile_digits (List.forall_mem_nil _) h).1
  unfold strtoll
  dsimp only
  rw [if_pos hdigits]

/-- A number at the front of a text is not overlooked. -/
theorem NumberText.not_noNumber (t : NumberText) : ¬ NoNumber t.text := by
  intro h
  have hread := (strtoll_none h).symm.trans (strtoll_text t)
  have hlen := congrArg List.length (Prod.mk.inj hread).2
  have hpos := List.length_pos_of_ne_nil t.digits_ne
  unfold NumberText.text at hlen
  simp only [List.length_append] at hlen
  omega

/-- A text of digits has nothing around its number. -/
theorem NumberText.of_all_digits {t : NumberText} (h : ∀ c ∈ t.text, isDigit c = true) :
    t.blank = [] ∧ t.sign = .none ∧ t.rest = [] := by
  unfold NumberText.text at h
  refine ⟨?_, ?_, ?_⟩
  · refine List.eq_nil_iff_forall_not_mem.mpr fun c hc => ?_
    have hdigit := h c (by simp [hc])
    simpa [isSpace_of_isDigit hdigit] using t.blank_all c hc
  · cases hsign : t.sign with
    | none => rfl
    | plus => exact absurd (h 0x2B (by simp [hsign, NumberSign.bytes])) (by decide)
    | minus => exact absurd (h 0x2D (by simp [hsign, NumberSign.bytes])) (by decide)
  · cases hrest : t.rest with
    | nil => rfl
    | cons c rest =>
      have hdigit := h c (by simp [hrest])
      simpa [hdigit] using t.rest_head c (by simp [hrest])

/-- What a sign leaves of a text is behind the sign. -/
theorem strtollSign_eq (s : Bytes) : ∃ sign : NumberSign, s = sign.bytes ++ (strtollSign s).2 := by
  cases s with
  | nil => exact ⟨.none, rfl⟩
  | cons c s =>
    rw [strtollSign]
    split_ifs with hminus hplus
    · exact ⟨.minus, by rw [hminus]; rfl⟩
    · exact ⟨.plus, by rw [hplus]; rfl⟩
    · exact ⟨.none, rfl⟩

/-- **Every text begins with a number or has none at its front.** -/
theorem numberText_or_noNumber (s : Bytes) : (∃ t : NumberText, s = t.text) ∨ NoNumber s := by
  obtain ⟨sign, hsign⟩ := strtollSign_eq (s.dropWhile isSpace)
  generalize htail : (strtollSign (s.dropWhile isSpace)).2 = u at hsign
  by_cases hdigits : u.takeWhile isDigit = []
  · right
    intro c hc
    rw [htail] at hc
    cases u with
    | nil => simp at hc
    | cons d u =>
      obtain rfl : d = c := Option.some.inj hc
      by_contra hd
      rw [List.takeWhile_cons_of_pos (by simpa using hd)] at hdigits
      simp at hdigits
  · left
    refine ⟨⟨s.takeWhile isSpace, sign, u.takeWhile isDigit, u.dropWhile isDigit,
      fun c hc => List.mem_takeWhile_imp hc, hdigits, fun c hc => List.mem_takeWhile_imp hc, ?_⟩,
      ?_⟩
    · intro c hc
      have hnot := List.head?_dropWhile_not isDigit u
      rw [hc] at hnot
      simpa using hnot
    · unfold NumberText.text
      dsimp only
      rw [List.takeWhile_append_dropWhile, ← hsign, List.takeWhile_append_dropWhile]

end Server
end Teleproto3
