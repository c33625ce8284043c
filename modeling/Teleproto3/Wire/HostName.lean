/-
# The names of hosts

`t3_secret_validate_host` of `lib/src/t3_secret.c` against the grammar of a name: labels of 1 to
63 letters, digits and hyphens with no hyphen at an edge, dots between them, and 1 to 253
characters in all.

The scanner goes through the name once, with the length of the label it is in and the last byte;
`validateLabels_iff` is its invariant.
-/

import Teleproto3.Lib.Separated
import Teleproto3.Wire.Secret

namespace Teleproto3
namespace Wire

open Lib

/-- A label of a name. -/
structure IsLabel (label : Bytes) : Prop where
  ne_nil : label ≠ []
  length_le : label.length ≤ 63
  bytes : ∀ c ∈ label, IsLabelByte c
  head : label.head? ≠ some 0x2D
  last : label.getLast? ≠ some 0x2D

/-- **The grammar of a name**: labels with dots between them. -/
structure IsHostName (name : Bytes) : Prop where
  length : 1 ≤ name.length ∧ name.length ≤ 253
  labels : ∃ labels, name = [0x2E].intercalate labels ∧ ∀ l ∈ labels, IsLabel l

/-- A dot is no byte of a label. -/
theorem IsLabel.no_dot (l : Bytes) (h : IsLabel l) : (0x2E : UInt8) ∉ l :=
  fun hc => absurd (h.bytes _ hc) (by decide)

/-- What was read of a label: it may be the front of one. -/
structure IsLabelFront (cur : Bytes) : Prop where
  length_le : cur.length ≤ 63
  bytes : ∀ c ∈ cur, IsLabelByte c
  head : cur.head? ≠ some 0x2D

/-- A label is a front that is not empty and does not end in a hyphen. -/
theorem isLabel_iff {cur : Bytes} :
    IsLabel cur ↔ IsLabelFront cur ∧ cur ≠ [] ∧ cur.getLast? ≠ some 0x2D :=
  ⟨fun h => ⟨⟨h.length_le, h.bytes, h.head⟩, h.ne_nil, h.last⟩,
    fun ⟨hfront, hne, hlast⟩ => ⟨hne, hfront.length_le, hfront.bytes, hfront.head, hlast⟩⟩

/-- The front of a label is one. -/
theorem IsLabel.front {cur label : Bytes} (h : IsLabel label) (hcur : cur <+: label) :
    IsLabelFront cur := by
  obtain ⟨t, rfl⟩ := hcur
  refine ⟨?_, fun c hc => h.bytes c (List.mem_append_left t hc), fun hhead => h.head ?_⟩
  · have hle := h.length_le
    rw [List.length_append] at hle
    omega
  · cases cur with
    | nil => simp at hhead
    | cons a cur => exact hhead

/-- Whether the last byte is a hyphen. -/
theorem last_hyphen_iff {cur : Bytes} {prev : UInt8} (hne : cur ≠ [])
    (hprev : cur ≠ [] → cur.getLast? = some prev) : cur.getLast? ≠ some 0x2D ↔ prev ≠ 0x2D := by
  rw [hprev hne]
  simp

/-- The end of a label: what the scanner has read is one. -/
theorem isLabel_of_front {cur : Bytes} {prev : UInt8} (hcur : IsLabelFront cur)
    (hprev : cur ≠ [] → cur.getLast? = some prev) :
    IsLabel cur ↔ ¬ (cur.length = 0 ∨ prev = 0x2D) := by
  rw [isLabel_iff, not_or, List.length_eq_zero_iff]
  constructor
  · rintro ⟨-, hne, hlast⟩
    exact ⟨hne, (last_hyphen_iff hne hprev).mp hlast⟩
  · rintro ⟨hne, hlast⟩
    exact ⟨hcur, hne, (last_hyphen_iff hne hprev).mpr hlast⟩

/-- One more byte of a label. -/
theorem isLabelFront_concat {cur : Bytes} {c : UInt8} (hcur : IsLabelFront cur) :
    IsLabelFront (cur ++ [c]) ↔
      ¬ (cur.length = 0 ∧ c = 0x2D) ∧ IsLabelByte c ∧ ¬ cur.length + 1 > 63 := by
  have hhead : (cur ++ [c]).head? ≠ some 0x2D ↔ ¬ (cur.length = 0 ∧ c = 0x2D) := by
    cases cur with
    | nil => simp
    | cons a cur => simpa using hcur.head
  have hlength : (cur ++ [c]).length ≤ 63 ↔ ¬ cur.length + 1 > 63 := by
    rw [List.length_append, List.length_singleton, not_lt]
  constructor
  · intro h
    exact ⟨hhead.mp h.head, h.bytes c (by simp), hlength.mp h.length_le⟩
  · rintro ⟨h, hc, hlen⟩
    refine ⟨hlength.mpr hlen, fun b hb => ?_, hhead.mpr h⟩
    rcases List.mem_append.mp hb with hb | hb
    · exact hcur.bytes b hb
    · rw [List.mem_singleton.mp hb]
      exact hc

/-- **What the scanner accepts**, with `cur` read of a label and `prev` its last byte: labels with
dots between them, of which `cur` begins the first, and no more bytes than there may be. -/
theorem validateLabels_iff {total : ℕ} {prev : UInt8} {cur p : Bytes} (hcur : IsLabelFront cur)
    (hprev : cur ≠ [] → cur.getLast? = some prev) :
    validateLabels total cur.length prev p = .ok ↔
      (p = [] ∨ total + p.length ≤ 253) ∧ Joins 0x2E IsLabel cur p := by
  induction p generalizing total prev cur with
  | nil =>
    rw [joins_nil IsLabel.no_dot, isLabel_of_front hcur hprev, validateLabels]
    split_ifs with h
    · exact iff_of_false (by simp) fun hj => hj.2 h
    · exact iff_of_true rfl ⟨Or.inl rfl, h⟩
  | cons c p ih =>
    have hmore : (p = [] ∨ total + 1 + p.length ≤ 253) ∧ ¬ total + 1 > 253 ↔
        (c :: p = [] ∨ total + (c :: p).length ≤ 253) := by
      cases p with
      | nil => simp
      | cons b p => simp; omega
    rw [← hmore, validateLabels]
    by_cases hlong : total + 1 > 253
    · simp [hlong]
    rw [if_neg hlong]
    simp only [hlong, not_false_eq_true, and_true]
    by_cases hdot : c = 0x2E
    · subst hdot
      have hnil : IsLabelFront [] := ⟨Nat.zero_le _, by simp, by simp⟩
      rw [if_pos rfl, joins_sep IsLabel.no_dot, isLabel_of_front hcur hprev]
      have hlen := hcur.length_le
      by_cases hend : cur.length = 0 ∨ prev = 0x2D
      · rw [if_pos (hend.imp_right Or.inr)]
        exact iff_of_false (by simp) fun hj => hj.2.1 hend
      · have hgo : ¬ (cur.length = 0 ∨ cur.length > 63 ∨ prev = 0x2D) := by
          rintro (hempty | hover | hhyphen)
          · exact hend (Or.inl hempty)
          · exact absurd hlen (not_le.mpr hover)
          · exact hend (Or.inr hhyphen)
        have hih : validateLabels (total + 1) 0 0x2E p = .ok ↔
            (p = [] ∨ total + 1 + p.length ≤ 253) ∧ Joins 0x2E IsLabel [] p :=
          ih hnil fun h => absurd rfl h
        rw [if_neg hgo, hih]
        simp only [hend, not_false_eq_true, true_and]
    · rw [if_neg hdot, joins_cons hdot]
      by_cases hfront : IsLabelFront (cur ++ [c])
      · obtain ⟨hhyphen, hbyte, hlen⟩ := (isLabelFront_concat hcur).mp hfront
        rw [if_neg hhyphen, if_neg (not_not.mpr hbyte), if_neg hlen]
        have hlength : (cur ++ [c]).length = cur.length + 1 := by simp
        rw [← hlength]
        exact ih hfront fun _ => List.getLast?_concat
      · have hno : ¬ Joins 0x2E IsLabel (cur ++ [c]) p := by
          rintro ⟨part, parts, hpart, hall, -⟩
          exact hfront ((hall part List.mem_cons_self).front hpart)
        have hstop := mt (isLabelFront_concat hcur).mpr hfront
        refine iff_of_false ?_ fun hj => hno hj.2
        split_ifs with h1 h2 h3
        · simp
        · simp
        · exact absurd ⟨h1, h2, h3⟩ hstop
        · simp

/-- A name from its first byte on. -/
theorem validateLabels_start {name : Bytes} (hne : name ≠ []) :
    validateLabels 0 0 0 name = .ok ↔ IsHostName name := by
  have hnil : IsLabelFront [] := ⟨Nat.zero_le _, by simp, by simp⟩
  have hiff : validateLabels 0 0 0 name = .ok ↔
      (name = [] ∨ 0 + name.length ≤ 253) ∧ Joins 0x2E IsLabel [] name :=
    validateLabels_iff hnil fun h => absurd rfl h
  rw [hiff]
  constructor
  · rintro ⟨hlength, part, parts, -, hall, heq⟩
    have hpos := List.length_pos_iff.mpr hne
    exact ⟨⟨hpos, by simpa using hlength.resolve_left hne⟩, part :: parts, heq, hall⟩
  · rintro ⟨⟨-, hlength⟩, labels, rfl, hall⟩
    refine ⟨Or.inr (by simpa using hlength), ?_⟩
    cases labels with
    | nil => exact absurd rfl hne
    | cons part parts => exact ⟨part, parts, List.nil_prefix, hall, rfl⟩

/-- **The names accepted are those of the grammar.** -/
theorem t3SecretValidateHost_iff (host : CStr) :
    t3SecretValidateHost (some host) = .ok ↔ IsHostName host.bytes := by
  simp only [t3SecretValidateHost]
  by_cases hne : host.bytes = []
  · rw [if_pos hne]
    refine iff_of_false (by simp) fun h => ?_
    have hpos := h.length.1
    simp [hne] at hpos
  rw [if_neg hne]
  by_cases hascii : ∃ c ∈ host.bytes, c > 0x7F
  · rw [if_pos hascii]
    refine iff_of_false (by simp) fun h => ?_
    -- A name of the grammar passes the scanner, which lets no such byte through.
    obtain ⟨c, hc, hbig⟩ := hascii
    have hplain := (validateLabels_ok ((validateLabels_start hne).mpr h) c hc).plain.2.1
    simp only [gt_iff_lt, UInt8.lt_iff_toNat_lt, UInt8.reduceToNat] at hbig
    omega
  · rw [if_neg hascii]
    exact validateLabels_start hne

/-- The longest label, and one byte more. -/
example : validateLabels 0 0 0 (List.replicate 63 0x61) = .ok ∧
    validateLabels 0 0 0 (List.replicate 64 0x61) = .hostInvalid := by decide

end Wire
end Teleproto3
