/-
# UTF-8

A string of bytes is UTF-8 where it is the encoding of some characters.  A character is a Unicode
scalar value and its encoding the core library's.

`IsCharBytes` says which bytes encode one character in terms of their ranges, as the grammar of
RFC 3629 does (`exists_utf8EncodeChar_iff`).  A scanner that goes from character to character
needs no more than this and `isUtf8_cons_iff`.
-/

import Mathlib.Data.List.Basic
import Teleproto3.Lib.Memory

namespace Teleproto3
namespace Lib

/-- **Well-formed UTF-8**: the encoding of some characters. -/
def IsUtf8 (bs : Bytes) : Prop := ∃ cs : List Char, bs = cs.flatMap String.utf8EncodeChar

/-- `UTF8-tail`. -/
def IsTail (b : UInt8) : Prop := 0x80 ≤ b.toNat ∧ b.toNat ≤ 0xBF

instance (b : UInt8) : Decidable (IsTail b) := by
  unfold IsTail
  infer_instance

/-- The bytes of one character: `UTF8-1`, `UTF8-2`, `UTF8-3` and `UTF8-4`. -/
def IsCharBytes : Bytes → Prop
  | [a] => a.toNat ≤ 0x7F
  | [a, b] => 0xC2 ≤ a.toNat ∧ a.toNat ≤ 0xDF ∧ IsTail b
  | [a, b, c] =>
    0xE0 ≤ a.toNat ∧ a.toNat ≤ 0xEF ∧ (a.toNat = 0xE0 → 0xA0 ≤ b.toNat) ∧
      (a.toNat = 0xED → b.toNat ≤ 0x9F) ∧ IsTail b ∧ IsTail c
  | [a, b, c, d] =>
    0xF0 ≤ a.toNat ∧ a.toNat ≤ 0xF4 ∧ (a.toNat = 0xF0 → 0x90 ≤ b.toNat) ∧
      (a.toNat = 0xF4 → b.toNat ≤ 0x8F) ∧ IsTail b ∧ IsTail c ∧ IsTail d
  | _ => False

theorem isUtf8_nil : IsUtf8 [] := ⟨[], rfl⟩

/-- A scalar value is a character. -/
theorem exists_char {n : ℕ} (h : n < 0xD800 ∨ 0xDFFF < n ∧ n < 0x110000) :
    ∃ c : Char, c.val.toNat = n := by
  have hn : (UInt32.ofNat n).toNat = n := UInt32.toNat_ofNat_of_lt' (by
    show n < 2 ^ 32
    omega)
  refine ⟨⟨UInt32.ofNat n, ?_⟩, hn⟩
  show (UInt32.ofNat n).toNat.isValidChar
  rw [hn]
  exact h

/-- What a character is encoded as has the ranges of the grammar. -/
theorem isCharBytes_utf8EncodeChar (c : Char) : IsCharBytes (String.utf8EncodeChar c) := by
  have hvalid : c.val.toNat < 0xD800 ∨ 0xDFFF < c.val.toNat ∧ c.val.toNat < 0x110000 := c.valid
  unfold String.utf8EncodeChar
  dsimp only
  split_ifs with h1 h2 h3
  all_goals
    simp only [IsCharBytes, IsTail, UInt8.toNat_ofNat']
    omega

/-- Bytes in the ranges of the grammar encode a character. -/
theorem exists_of_isCharBytes {bs : Bytes} (h : IsCharBytes bs) :
    ∃ c, String.utf8EncodeChar c = bs := by
  match bs, h with
  | [a], h =>
    unfold IsCharBytes at h
    obtain ⟨c, hc⟩ := exists_char (n := a.toNat) (by omega)
    refine ⟨c, ?_⟩
    unfold String.utf8EncodeChar
    dsimp only
    rw [hc, if_pos h, UInt8.ofNat_toNat]
  | [a, b], h =>
    unfold IsCharBytes IsTail at h
    obtain ⟨c, hc⟩ := exists_char (n := (a.toNat - 0xC0) * 64 + (b.toNat - 0x80)) (by omega)
    refine ⟨c, ?_⟩
    unfold String.utf8EncodeChar
    dsimp only
    rw [hc, if_neg (by omega), if_pos (by omega)]
    simp only [List.cons.injEq, ← UInt8.toNat_inj, UInt8.toNat_ofNat', and_true]
    omega
  | [a, b, d], h =>
    unfold IsCharBytes IsTail at h
    obtain ⟨c, hc⟩ := exists_char
      (n := (a.toNat - 0xE0) * 4096 + (b.toNat - 0x80) * 64 + (d.toNat - 0x80)) (by omega)
    refine ⟨c, ?_⟩
    unfold String.utf8EncodeChar
    dsimp only
    rw [hc, if_neg (by omega), if_neg (by omega), if_pos (by omega)]
    simp only [List.cons.injEq, ← UInt8.toNat_inj, UInt8.toNat_ofNat', and_true]
    omega
  | [a, b, d, e], h =>
    unfold IsCharBytes IsTail at h
    obtain ⟨c, hc⟩ := exists_char
      (n := (a.toNat - 0xF0) * 262144 + (b.toNat - 0x80) * 4096 + (d.toNat - 0x80) * 64 +
        (e.toNat - 0x80)) (by omega)
    refine ⟨c, ?_⟩
    unfold String.utf8EncodeChar
    dsimp only
    rw [hc, if_neg (by omega), if_neg (by omega), if_neg (by omega)]
    simp only [List.cons.injEq, ← UInt8.toNat_inj, UInt8.toNat_ofNat', and_true]
    omega

/-- **The grammar.** -/
theorem exists_utf8EncodeChar_iff {bs : Bytes} :
    (∃ c, String.utf8EncodeChar c = bs) ↔ IsCharBytes bs := by
  constructor
  · rintro ⟨c, rfl⟩
    exact isCharBytes_utf8EncodeChar c
  · exact exists_of_isCharBytes

/-- **One character after the other.** -/
theorem isUtf8_cons_iff {a : UInt8} {bs : Bytes} :
    IsUtf8 (a :: bs) ↔ ∃ t rest, bs = t ++ rest ∧ IsCharBytes (a :: t) ∧ IsUtf8 rest := by
  constructor
  · rintro ⟨cs, hcs⟩
    cases cs with
    | nil => exact nomatch hcs
    | cons c cs =>
      have hc := isCharBytes_utf8EncodeChar c
      rw [List.flatMap_cons] at hcs
      cases hbytes : String.utf8EncodeChar c with
      | nil =>
        rw [hbytes] at hc
        exact hc.elim
      | cons b t =>
        rw [hbytes] at hc hcs
        obtain ⟨rfl, rfl⟩ := List.cons.inj hcs
        exact ⟨t, _, rfl, hc, ⟨cs, rfl⟩⟩
  · rintro ⟨t, rest, rfl, hc, ⟨cs, rfl⟩⟩
    obtain ⟨d, hd⟩ := exists_of_isCharBytes hc
    refine ⟨d :: cs, ?_⟩
    rw [List.flatMap_cons, hd]
    rfl

/-! ### By the first byte -/

section FirstByte

variable {a : UInt8} {t : Bytes}

theorem isCharBytes_one (h : a.toNat ≤ 0x7F) : IsCharBytes (a :: t) ↔ t = [] := by
  match t with
  | [] => exact ⟨fun _ => rfl, fun _ => h⟩
  | [b] | [b, c] | [b, c, d] =>
    refine ⟨fun hc => ?_, fun heq => (nomatch heq)⟩
    unfold IsCharBytes at hc
    omega
  | b :: c :: d :: e :: t => exact ⟨fun hc => hc.elim, fun heq => (nomatch heq)⟩

theorem not_isCharBytes (h : 0x80 ≤ a.toNat ∧ a.toNat ≤ 0xC1 ∨ 0xF5 ≤ a.toNat) :
    ¬ IsCharBytes (a :: t) := by
  intro hc
  match t with
  | [] | [b] | [b, c] | [b, c, d] =>
    unfold IsCharBytes at hc
    omega
  | b :: c :: d :: e :: t => exact hc

theorem isCharBytes_two (h : 0xC2 ≤ a.toNat ∧ a.toNat ≤ 0xDF) :
    IsCharBytes (a :: t) ↔ ∃ b, t = [b] ∧ IsTail b := by
  constructor
  · intro hc
    match t with
    | [b] => exact ⟨b, rfl, hc.2.2⟩
    | [] | [b, c] | [b, c, d] =>
      unfold IsCharBytes at hc
      omega
    | b :: c :: d :: e :: t => exact hc.elim
  · rintro ⟨b, rfl, hb⟩
    exact ⟨h.1, h.2, hb⟩

theorem isCharBytes_three (h : 0xE0 ≤ a.toNat ∧ a.toNat ≤ 0xEF) :
    IsCharBytes (a :: t) ↔ ∃ b c, t = [b, c] ∧ (a.toNat = 0xE0 → 0xA0 ≤ b.toNat) ∧
      (a.toNat = 0xED → b.toNat ≤ 0x9F) ∧ IsTail b ∧ IsTail c := by
  constructor
  · intro hc
    match t with
    | [b, c] => exact ⟨b, c, rfl, hc.2.2⟩
    | [] | [b] | [b, c, d] =>
      unfold IsCharBytes at hc
      omega
    | b :: c :: d :: e :: t => exact hc.elim
  · rintro ⟨b, c, rfl, hbc⟩
    exact ⟨h.1, h.2, hbc⟩

theorem isCharBytes_four (h : 0xF0 ≤ a.toNat ∧ a.toNat ≤ 0xF4) :
    IsCharBytes (a :: t) ↔ ∃ b c d, t = [b, c, d] ∧ (a.toNat = 0xF0 → 0x90 ≤ b.toNat) ∧
      (a.toNat = 0xF4 → b.toNat ≤ 0x8F) ∧ IsTail b ∧ IsTail c ∧ IsTail d := by
  constructor
  · intro hc
    match t with
    | [b, c, d] => exact ⟨b, c, d, rfl, hc.2.2⟩
    | [] | [b] | [b, c] =>
      unfold IsCharBytes at hc
      omega
    | b :: c :: d :: e :: t => exact hc.elim
  · rintro ⟨b, c, d, rfl, hbcd⟩
    exact ⟨h.1, h.2, hbcd⟩

/-- Behind the first byte of a character there are only tails. -/
theorem IsCharBytes.isTail (h : IsCharBytes (a :: t)) : ∀ b ∈ t, IsTail b := by
  match t with
  | [] => exact fun b hb => nomatch hb
  | [b] =>
    have hb := h.2.2
    simpa using hb
  | [b, c] =>
    obtain ⟨-, -, -, -, hb, hc⟩ := h
    simpa using ⟨hb, hc⟩
  | [b, c, d] =>
    obtain ⟨-, -, -, -, hb, hc, hd⟩ := h
    simpa using ⟨hb, hc, hd⟩
  | b :: c :: d :: e :: t => exact h.elim

end FirstByte

end Lib
end Teleproto3
