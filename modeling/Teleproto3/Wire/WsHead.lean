/-
# Heads of WebSocket frames

The bytes of a frame up to its masking key: the first byte, with the opcode and the reserved bits,
and the payload length in one of its three forms, with the MASK bit on top of it.  Nothing is asked
of the opcode, the bits or the length, and a length need not stand in its shortest form: any bytes
are a head with something behind it, or the beginning of one (`WsHead.cases`).
-/

import Teleproto3.Lib.Bytes

namespace Teleproto3
namespace Wire

open Lib

/-- A payload length as a head spells it. -/
inductive WsLength
  | seven (n : ℕ) (h : n < 126)
  | sixteen (n : ℕ) (h : n < 65536)
  | sixtyFour (n : ℕ) (h : n < 2 ^ 64)
  deriving DecidableEq, Repr

namespace WsLength

/-- The length. -/
def value : WsLength → ℕ
  | seven n _ => n
  | sixteen n _ => n
  | sixtyFour n _ => n

/-- The seven bits of the second byte. -/
def code : WsLength → ℕ
  | seven n _ => n
  | sixteen _ _ => 126
  | sixtyFour _ _ => 127

/-- The bytes behind the second. -/
def more : WsLength → Bytes
  | seven _ _ => []
  | sixteen n _ => beBytes 2 n
  | sixtyFour n _ => beBytes 8 n

theorem code_lt (l : WsLength) : l.code < 128 := by
  cases l <;> simp only [code] <;> omega

theorem value_lt (l : WsLength) : l.value < 2 ^ 64 := by
  cases l <;> simp only [value] <;> omega

theorem more_length_le (l : WsLength) : l.more.length ≤ 8 := by
  cases l <;> simp [more]

end WsLength

/-- A head. -/
structure WsHead where
  first : UInt8
  masked : Bool
  length : WsLength
  deriving DecidableEq, Repr

namespace WsHead

variable (h : WsHead)

/-- The low half of the first byte. -/
def opcode : ℕ := h.first.toNat % 16

/-- The second byte. -/
def second : UInt8 := UInt8.ofNat ((if h.masked then 128 else 0) + h.length.code)

/-- The bytes of a head. -/
def bytes : Bytes := h.first :: h.second :: h.length.more

/-- How many there are. -/
def size : ℕ := 2 + h.length.more.length

@[simp] theorem bytes_length : h.bytes.length = h.size := by
  rw [bytes, size, List.length_cons, List.length_cons]
  omega

theorem size_bounds : 2 ≤ h.size ∧ h.size ≤ 10 := by
  have := h.length.more_length_le
  rw [size]
  omega

theorem second_toNat : h.second.toNat = (if h.masked then 128 else 0) + h.length.code := by
  have := h.length.code_lt
  rw [second, UInt8.toNat_ofNat']
  split_ifs <;> omega

theorem getD_zero (rest : Bytes) : (h.bytes ++ rest).getD 0 0 = h.first := rfl

theorem getD_one (rest : Bytes) : (h.bytes ++ rest).getD 1 0 = h.second := rfl

theorem drop_two (rest : Bytes) : (h.bytes ++ rest).drop 2 = h.length.more ++ rest := rfl

theorem masked_iff : h.second.toNat / 128 = 1 ↔ h.masked = true := by
  have := h.length.code_lt
  rw [h.second_toNat]
  cases h.masked <;> simp <;> omega

theorem code_eq : h.second.toNat % 128 = h.length.code := by
  have := h.length.code_lt
  rw [h.second_toNat]
  split_ifs <;> omega

end WsHead

/-- The big-endian bytes of the number that bytes spell. -/
theorem beBytes_beValue (bs : Bytes) : beBytes bs.length (beValue bs) = bs := by
  induction bs using List.reverseRecOn with
  | nil => rfl
  | append_singleton bs b ih =>
    have hvalue : beValue (bs ++ [b]) = beValue bs * 256 + b.toNat := by
      simp only [beValue, List.foldl_append, List.foldl_cons, List.foldl_nil]
    have hb := b.toNat_lt
    have hdiv : (beValue bs * 256 + b.toNat) / 256 = beValue bs := by omega
    have hlow : UInt8.ofNat (beValue bs * 256 + b.toNat) = b := by
      refine UInt8.toNat_inj.mp ?_
      rw [UInt8.toNat_ofNat']
      omega
    rw [hvalue, List.length_append, List.length_singleton, beBytes, hdiv, hlow, ih]

namespace WsHead

/-- The beginning of a head: with zeros for what is missing it is one, whose length is far from
the largest there are. -/
structure PartOf (h : WsHead) (p : Bytes) : Prop where
  completes : h.bytes = p ++ List.replicate (h.size - p.length) 0
  short : p.length < h.size
  masked : h.masked = decide ((p.getD 1 0).toNat / 128 = 1)
  value_le : h.length.value + 256 ≤ 2 ^ 64

/-- The head that a second byte and the bytes behind it make. -/
theorem second_of {first b : UInt8} {l : WsLength} (hcode : l.code = b.toNat % 128) :
    (⟨first, decide (b.toNat / 128 = 1), l⟩ : WsHead).second = b := by
  have hb := b.toNat_lt
  refine UInt8.toNat_inj.mp ?_
  rw [second_toNat]
  simp only [hcode, decide_eq_true_eq]
  split_ifs <;> omega

/-- With the bytes of its length all there it is a head. -/
theorem of_more {a b : UInt8} {t : Bytes} {l : WsLength} (hcode : l.code = b.toNat % 128)
    (hmore : l.more = t.take l.more.length) :
    ∃ (h : WsHead) (rest : Bytes), a :: b :: t = h.bytes ++ rest := by
  refine ⟨⟨a, decide (b.toNat / 128 = 1), l⟩, t.drop l.more.length, ?_⟩
  rw [bytes, second_of hcode]
  simp only [List.cons_append]
  conv_rhs => rw [hmore, List.length_take_of_le (by rw [hmore]; exact List.length_take_le' _ _)]
  rw [List.take_append_drop]

/-- **Any bytes are a head with something behind it, or the beginning of one.** -/
theorem cases (bs : Bytes) :
    (∃ (h : WsHead) (rest : Bytes), bs = h.bytes ++ rest) ∨ ∃ h : WsHead, h.PartOf bs := by
  match bs with
  | [] => exact Or.inr ⟨⟨0, false, .seven 0 (by decide)⟩, rfl, by decide, rfl, by decide⟩
  | [a] =>
    exact Or.inr ⟨⟨a, false, .seven 0 (by decide)⟩, rfl, Nat.lt_succ_self 1, by simp,
      show 0 + 256 ≤ 2 ^ 64 by decide⟩
  | a :: b :: t =>
    have hb := b.toNat_lt
    -- A length of `n` bytes, of which some may be missing.
    have hlong (n : ℕ) (hn : n ≤ 8) (l : Bytes → WsLength)
        (hl : ∀ bs, bs.length = n → (l bs).code = b.toNat % 128 ∧ (l bs).more = bs ∧
          (l bs).value = beValue bs) :
        (∃ (h : WsHead) (rest : Bytes), a :: b :: t = h.bytes ++ rest) ∨
          ∃ h : WsHead, h.PartOf (a :: b :: t) := by
      by_cases hall : n ≤ t.length
      · obtain ⟨hcode, hmore, -⟩ := hl (t.take n) (List.length_take_of_le hall)
        refine Or.inl (of_more hcode ?_)
        rw [hmore, List.length_take_of_le hall]
      · obtain ⟨k, hk⟩ : ∃ k, n - t.length = k + 1 := ⟨n - t.length - 1, by omega⟩
        obtain ⟨hcode, hmore, hvalue⟩ := hl (t ++ List.replicate (n - t.length) 0) (by
          rw [List.length_append, List.length_replicate]
          omega)
        set h : WsHead :=
          ⟨a, decide (b.toNat / 128 = 1), l (t ++ List.replicate (n - t.length) 0)⟩ with hh
        have hsize : h.size = 2 + n := by
          rw [hh, size, hmore, List.length_append, List.length_replicate]
          omega
        refine Or.inr ⟨h, ?_, ?_, rfl, ?_⟩
        · rw [hsize, hh, bytes, second_of hcode, hmore]
          simp only [List.length_cons, List.cons_append, List.cons.injEq, true_and]
          congr 2
          omega
        · rw [hsize]
          simp only [List.length_cons]
          omega
        · -- The last byte is missing, so the length is a multiple of 256.
          have hlast : beValue (t ++ List.replicate (n - t.length) 0)
              = beValue (t ++ List.replicate k 0) * 256 := by
            rw [hk, List.replicate_succ', ← List.append_assoc]
            simp only [beValue, List.foldl_append, List.foldl_cons, List.foldl_nil,
              UInt8.toNat_zero, Nat.add_zero]
          have hlt := beValue_lt (t ++ List.replicate k 0)
          have hpow : 256 ^ (t ++ List.replicate k 0).length ≤ 256 ^ 7 := by
            refine Nat.pow_le_pow_right (by decide) ?_
            rw [List.length_append, List.length_replicate]
            omega
          show (l _).value + 256 ≤ 2 ^ 64
          rw [hvalue, hlast]
          omega
    by_cases h126 : b.toNat % 128 = 126
    · refine hlong 2 (by decide) (fun bs => if h : beValue bs < 65536
        then .sixteen (beValue bs) h else .seven 0 (by decide)) fun bs hbs => ?_
      have hlt := beValue_lt bs
      rw [hbs] at hlt
      have hlt' : beValue bs < 65536 := hlt
      rw [dif_pos hlt', h126]
      refine ⟨rfl, ?_, rfl⟩
      have hbytes := beBytes_beValue bs
      rwa [hbs] at hbytes
    · by_cases h127 : b.toNat % 128 = 127
      · refine hlong 8 (le_refl _) (fun bs => if h : beValue bs < 2 ^ 64
          then .sixtyFour (beValue bs) h else .seven 0 (by decide)) fun bs hbs => ?_
        have hlt := beValue_lt bs
        rw [hbs] at hlt
        have hlt' : beValue bs < 2 ^ 64 := hlt
        rw [dif_pos hlt', h127]
        refine ⟨rfl, ?_, rfl⟩
        have hbytes := beBytes_beValue bs
        rwa [hbs] at hbytes
      · exact Or.inl (of_more (l := .seven (b.toNat % 128) (by omega)) rfl rfl)

/-! ### Reading a head -/

/-- The head that bytes begin with, and what stands behind it. -/
def read : Bytes → Option (WsHead × Bytes)
  | a :: b :: t =>
    if b.toNat % 128 = 126 then
      if h : beValue (t.take 2) < 65536 ∧ 2 ≤ t.length then
        some (⟨a, decide (b.toNat / 128 = 1), .sixteen (beValue (t.take 2)) h.1⟩, t.drop 2)
      else none
    else if b.toNat % 128 = 127 then
      if h : beValue (t.take 8) < 2 ^ 64 ∧ 8 ≤ t.length then
        some (⟨a, decide (b.toNat / 128 = 1), .sixtyFour (beValue (t.take 8)) h.1⟩, t.drop 8)
      else none
    else if h : b.toNat % 128 < 126 then
      some (⟨a, decide (b.toNat / 128 = 1), .seven (b.toNat % 128) h⟩, t)
    else none
  | _ => none

/-- A head is read as it was written. -/
theorem read_bytes (h : WsHead) (rest : Bytes) : read (h.bytes ++ rest) = some (h, rest) := by
  have hcode := h.code_eq
  have hmasked : decide (h.second.toNat / 128 = 1) = h.masked := by
    rw [Bool.eq_iff_iff, decide_eq_true_iff]
    exact h.masked_iff
  rw [bytes, List.cons_append, List.cons_append, read]
  obtain ⟨first, masked, l⟩ := h
  cases l with
  | seven n hn =>
    simp only [WsLength.code] at hcode
    rw [if_neg (by omega), if_neg (by omega), dif_pos (by omega)]
    simp only [hcode, hmasked]
    rfl
  | sixteen n hn =>
    have hvalue : beValue ((beBytes 2 n ++ rest).take 2) = n := by
      rw [List.take_left' (beBytes_length 2 n), beValue_beBytes 2 n hn]
    simp only [WsLength.code] at hcode
    rw [if_pos hcode, dif_pos ⟨by simp only [WsLength.more, hvalue, hn], by simp [WsLength.more]⟩]
    simp only [WsLength.more, hvalue, hmasked, List.drop_left' (beBytes_length 2 n)]
  | sixtyFour n hn =>
    have hvalue : beValue ((beBytes 8 n ++ rest).take 8) = n := by
      rw [List.take_left' (beBytes_length 8 n), beValue_beBytes 8 n hn]
    simp only [WsLength.code] at hcode
    rw [if_neg (by omega), if_pos hcode,
      dif_pos ⟨by simp only [WsLength.more, hvalue, hn], by simp [WsLength.more]⟩]
    simp only [WsLength.more, hvalue, hmasked, List.drop_left' (beBytes_length 8 n)]

/-- Of the beginning of a head none is read. -/
theorem read_part {h : WsHead} {bs : Bytes} (hpart : h.PartOf bs) : read bs = none := by
  have hshort := hpart.short
  cases hread : read bs with
  | none => rfl
  | some p =>
    obtain ⟨h', rest⟩ := p
    -- What is read of a part would be read of the whole head, with something behind it.
    have hbytes : bs = h'.bytes ++ rest := by
      match bs, hread with
      | a :: b :: t, hread =>
        rw [read] at hread
        split_ifs at hread with h126 hall h127 hall hseven
        · obtain ⟨rfl, rfl⟩ := Prod.mk.inj (Option.some.inj hread)
          have hvalue := beBytes_beValue (t.take 2)
          rw [List.length_take_of_le hall.2] at hvalue
          simp only [bytes, second_of (l := .sixteen _ hall.1) h126.symm, WsLength.more, hvalue,
            List.cons_append, List.take_append_drop]
        · obtain ⟨rfl, rfl⟩ := Prod.mk.inj (Option.some.inj hread)
          have hvalue := beBytes_beValue (t.take 8)
          rw [List.length_take_of_le hall.2] at hvalue
          simp only [bytes, second_of (l := .sixtyFour _ hall.1) h127.symm, WsLength.more, hvalue,
            List.cons_append, List.take_append_drop]
        · obtain ⟨rfl, rfl⟩ := Prod.mk.inj (Option.some.inj hread)
          simp only [bytes, second_of (l := .seven _ hseven) rfl, WsLength.more,
            List.cons_append, List.nil_append]
    have hwhole := read_bytes h []
    rw [List.append_nil, hpart.completes, hbytes, List.append_assoc, read_bytes] at hwhole
    have hnil := congrArg List.length (Prod.mk.inj (Option.some.inj hwhole)).2
    rw [hbytes] at hshort
    simp only [List.length_append, List.length_replicate, List.length_nil] at hnil hshort
    omega

/-- **What is read is what stands there.** -/
theorem read_eq_some_iff {bs rest : Bytes} {h : WsHead} :
    read bs = some (h, rest) ↔ bs = h.bytes ++ rest := by
  constructor
  · intro hread
    rcases cases bs with ⟨h', rest', rfl⟩ | ⟨h', hpart⟩
    · rw [read_bytes] at hread
      obtain ⟨rfl, rfl⟩ := Prod.mk.inj (Option.some.inj hread)
      rfl
    · rw [read_part hpart] at hread
      exact absurd hread (by simp)
  · rintro rfl
    exact read_bytes h rest

end WsHead

end Wire
end Teleproto3
