/-
# Parties under keys

A list of parties, each of which may stand under a key, and the number of those that stand under
one key: `tally`.  The laws say how the numbers move when a party comes, goes, or is replaced
by another.

`List.countP` is the count behind it; only a key's worth of it moves at a time, which is what
a table of counters has to follow.
-/

import Mathlib.Data.List.Basic

namespace Teleproto3
namespace Lib

variable {α κ : Type*} [DecidableEq κ] (key : α → Option κ)

/-- The number of parties under a key. -/
def tally (l : List α) (k : κ) : ℕ := l.countP fun a => key a = some k

/-- A party counts where it stands. -/
def weight (a : α) (k : κ) : ℕ := if key a = some k then 1 else 0

@[simp] theorem tally_nil (k : κ) : tally key [] k = 0 := rfl

theorem weight_self {a : α} {k : κ} (h : key a = some k) : weight key a k = 1 := if_pos h

theorem weight_of_ne {a : α} {k : κ} (h : key a ≠ some k) : weight key a k = 0 := if_neg h

theorem weight_of_none {a : α} (h : key a = none) (k : κ) : weight key a k = 0 := by
  refine if_neg fun heq => ?_
  rw [h] at heq
  exact nomatch heq

theorem weight_congr {a b : α} (h : key a = key b) (k : κ) : weight key a k = weight key b k := by
  unfold weight
  rw [h]

theorem tally_cons (a : α) (l : List α) (k : κ) :
    tally key (a :: l) k = tally key l k + weight key a k := by
  simp only [tally, weight, List.countP_cons, decide_eq_true_eq]

theorem tally_append (l l' : List α) (k : κ) :
    tally key (l ++ l') k = tally key l k + tally key l' k := List.countP_append

/-- A party comes. -/
theorem tally_concat (l : List α) (a : α) (k : κ) :
    tally key (l ++ [a]) k = tally key l k + weight key a k := by
  rw [tally_append, tally_cons, tally_nil, Nat.zero_add]

/-- A party goes. -/
theorem tally_eraseIdx {l : List α} {i : ℕ} {a : α} (h : l[i]? = some a) (k : κ) :
    tally key l k = tally key (l.eraseIdx i) k + weight key a k := by
  induction l generalizing i with
  | nil => exact nomatch h
  | cons b l ih =>
    cases i with
    | zero =>
      rw [List.getElem?_cons_zero] at h
      rw [Option.some.inj h]
      exact tally_cons key a l k
    | succ i =>
      rw [List.getElem?_cons_succ] at h
      rw [List.eraseIdx_cons_succ, tally_cons, tally_cons, ih h]
      omega

/-- A party is replaced. -/
theorem tally_set {l : List α} {i : ℕ} {a : α} (h : l[i]? = some a) (b : α) (k : κ) :
    tally key (l.set i b) k + weight key a k = tally key l k + weight key b k := by
  induction l generalizing i with
  | nil => exact nomatch h
  | cons c l ih =>
    cases i with
    | zero =>
      rw [List.getElem?_cons_zero] at h
      rw [Option.some.inj h, List.set_cons_zero, tally_cons, tally_cons]
      omega
    | succ i =>
      rw [List.getElem?_cons_succ] at h
      have hrest := ih h
      rw [List.set_cons_succ, tally_cons, tally_cons]
      omega

/-- Who stands under a key is counted. -/
theorem tally_pos {l : List α} {a : α} {k : κ} (ha : a ∈ l) (h : key a = some k) :
    0 < tally key l k :=
  List.countP_pos_iff.mpr ⟨a, ha, decide_eq_true h⟩

/-- Nobody under a key, nothing to count. -/
theorem tally_eq_zero {l : List α} {k : κ} (h : ∀ a ∈ l, key a ≠ some k) : tally key l k = 0 :=
  List.countP_eq_zero.mpr fun a ha => by simpa using h a ha

/-- Who keeps their keys keeps their number. -/
theorem tally_map {f : α → α} (hf : ∀ a, key (f a) = key a) (l : List α) (k : κ) :
    tally key (l.map f) k = tally key l k := by
  unfold tally
  rw [List.countP_map]
  refine List.countP_congr fun a _ => ?_
  simp only [Function.comp_apply, hf]

end Lib
end Teleproto3
