/-
# Plans for cutting a payload

`t3_split_plan` of `lib/src/t3_padding.c`, in the arithmetic of `size_t`, with the sampler
`t3__rng_range` it draws the lengths from.

A plan that is reported is a partition of the length, and none of the subtractions on the way
wraps around (`t3SplitPlan_sound`).  The bounds of a draw look one chunk ahead (`cutLow` and
`cutHigh`), so a plan may run into a dead end although there is a partition, and a range of
`2 ^ 32` lengths or more leaves the sampler without a word to accept: `t3SplitPlan_complete_iff`
and `t3SplitPlan_samples_iff` say exactly for which arguments neither can happen.
-/

import Mathlib.Algebra.Order.BigOperators.Group.List
import Teleproto3.Client.Padding
import Teleproto3.Lib.Cutting

namespace Teleproto3
namespace Client

open Lib Wire

/-! ### The arithmetic -/

/-- `a - b` of `size_t`. -/
def subSize (a b : ℕ) : ℕ := (a + 2 ^ 64 - b) % 2 ^ 64

/-- `a * b` of `size_t`. -/
def mulSize (a b : ℕ) : ℕ := a * b % 2 ^ 64

/-- `max_possible` and `max_rem_cover`: what so many chunks can take. -/
def coverSize (slots maxChunk : ℕ) : ℕ :=
  if slots > 0 ∧ maxChunk > SIZE_MAX / slots then SIZE_MAX else mulSize slots maxChunk

/-- `range` of `t3__rng_range`. -/
def rngRangeSize (lo hi : ℕ) : ℕ := (subSize hi lo + 1) % 2 ^ 64

/-- `cutoff` of `t3__rng_range`. -/
def rngCutoff (lo hi : ℕ) : ℕ :=
  let bucketCount := (2 ^ 32 - 1) / rngRangeSize lo hi % 2 ^ 32
  bucketCount * (rngRangeSize lo hi % 2 ^ 32) % 2 ^ 32

/-! ### The planner -/

/-- The lengths `t3_split_plan` is called with. -/
structure SplitArgs where
  totalLen : ℕ
  minChunk : ℕ
  maxChunk : ℕ
  maxChunks : ℕ
  totalLen_lt : totalLen < 2 ^ 64
  minChunk_lt : minChunk < 2 ^ 64
  maxChunk_lt : maxChunk < 2 ^ 64
  maxChunks_lt : maxChunks < 2 ^ 64

/-- The locals of the loop, and what has been computed so far: each subtraction, and each range
handed to the sampler. -/
structure SplitState (C : Type*) where
  i : ℕ
  remLen : ℕ
  plan : List ℕ
  ctx : C
  subs : List (ℕ × ℕ)
  draws : List (ℕ × ℕ)

/-- How far a call has got: its result, unless the sampler still draws, and the count put out. -/
structure SplitRun (C : Type*) where
  result : Option T3Result
  outCount : Option ℕ
  state : SplitState C

section Planner

variable {C : Type*} (rng : Rng C) (a : SplitArgs) (turns : ℕ)

/-- `rem_slots`. -/
def SplitArgs.remSlots (i : ℕ) : ℕ := subSize (subSize a.maxChunks 1) i

/-- `L`. -/
def SplitArgs.chunkLow (remLen remSlots : ℕ) : ℕ :=
  let maxRemCover := coverSize remSlots a.maxChunk
  if remLen > maxRemCover then
    let low := subSize remLen maxRemCover
    if low < a.minChunk then a.minChunk else low
  else a.minChunk

/-- `H`. -/
def SplitArgs.chunkHigh (remLen : ℕ) : ℕ :=
  let high := subSize remLen a.minChunk
  if high < a.maxChunk then high else a.maxChunk

/-- The subtractions behind `L` and `H`. -/
def SplitArgs.chunkSubs (remLen remSlots : ℕ) : List (ℕ × ℕ) :=
  let maxRemCover := coverSize remSlots a.maxChunk
  (if remLen > maxRemCover then [(remLen, maxRemCover)] else []) ++ [(remLen, a.minChunk)]

/-- The end of the loop: `plan[i] = rem_len`, and the plan is complete. -/
def finishChunk (s : SplitState C) : SplitRun C :=
  ⟨some .ok, some (s.i + 1), { s with plan := s.plan.set s.i s.remLen, remLen := 0 }⟩

/-- The part of a turn that draws a chunk. -/
def splitChunk (s : SplitState C) : Turn (SplitState C) (SplitRun C) :=
  let remSlots := a.remSlots s.i
  let low := a.chunkLow s.remLen remSlots
  let high := a.chunkHigh s.remLen
  let subs := s.subs ++ a.chunkSubs s.remLen remSlots
  if high < low then .done ⟨some .internal, none, { s with subs := subs }⟩
  else
    let subs := subs ++ [(high, low)]
    let draws := s.draws ++ [(low, high)]
    match t3RngRange rng low high turns s.ctx with
    | .again ctx => .done ⟨none, none, { s with ctx := ctx, subs := subs, draws := draws }⟩
    | .done (.error e) => .done ⟨some e, none, { s with subs := subs, draws := draws }⟩
    | .done (.ok (c, ctx)) =>
      .again ⟨s.i + 1, subSize s.remLen c, s.plan.set s.i c, ctx, subs ++ [(s.remLen, c)], draws⟩

/-- The first lines of a turn. -/
def SplitState.begin (s : SplitState C) : SplitState C :=
  { s with subs := s.subs ++ [(a.maxChunks, 1), (subSize a.maxChunks 1, s.i)] }

/-- One turn of the loop. -/
def splitTurn (s : SplitState C) : Turn (SplitState C) (SplitRun C) :=
  let remSlots := a.remSlots s.i
  let s := s.begin a
  if s.remLen ≤ a.maxChunk then
    if remSlots = 0 ∨ s.remLen < mulSize 2 a.minChunk then .done (finishChunk s)
    else
      match rng.fill s.ctx 1 with
      | none => .done ⟨some .rng, none, s⟩
      | some (randChoice, ctx) =>
        let s := { s with ctx := ctx }
        if (randChoice.getD 0 0).toNat % 2 = 0 then .done (finishChunk s)
        else splitChunk rng a turns s
  else splitChunk rng a turns s

/-- `t3_split_plan` behind the tests of its pointers, with at most `turns` turns of the loop of each
draw. -/
def t3SplitPlan (callbacksBound : Bool) (plan : List ℕ) (ctx : C) : SplitRun C :=
  let s : SplitState C := ⟨0, a.totalLen, plan, ctx, [], []⟩
  if callbacksBound = false then ⟨some .invalidArg, none, s⟩
  else if a.totalLen < 1 ∨ a.minChunk < 1 ∨ a.maxChunk < a.minChunk ∨ a.totalLen < a.minChunk then
    ⟨some .invalidArg, none, s⟩
  else if a.maxChunks = 0 then ⟨some .invalidArg, none, s⟩
  else if coverSize a.maxChunks a.maxChunk < a.totalLen then ⟨some .bufTooSmall, none, s⟩
  else
    match loopFor (splitTurn rng a turns) a.maxChunks s with
    | .done run => run
    | .again s => if s.remLen > 0 then ⟨some .internal, none, s⟩ else ⟨some .ok, some 0, s⟩

end Planner

/-! ### What the arithmetic comes to -/

theorem subSize_eq {a b : ℕ} (h : b ≤ a) (ha : a < 2 ^ 64) : subSize a b = a - b := by
  unfold subSize
  rw [Nat.add_comm, Nat.add_sub_assoc h, Nat.add_mod_left, Nat.mod_eq_of_lt (by omega)]

/-- **What so many chunks can take**, or as much as a length can be. -/
theorem coverSize_eq (slots maxChunk : ℕ) :
    coverSize slots maxChunk = min (slots * maxChunk) SIZE_MAX := by
  unfold coverSize mulSize SIZE_MAX
  rcases Nat.eq_zero_or_pos slots with rfl | hslots
  · simp
  by_cases hbig : maxChunk > (2 ^ 64 - 1) / slots
  · have hlt := (Nat.div_lt_iff_lt_mul hslots).mp hbig
    rw [if_pos ⟨hslots, hbig⟩, Nat.mul_comm]
    omega
  · have hle := (Nat.le_div_iff_mul_le hslots).mp (not_lt.mp hbig)
    rw [if_neg fun h => hbig h.2, Nat.mul_comm, Nat.mod_eq_of_lt (by omega)]
    omega

namespace SplitArgs

variable {a : SplitArgs}

/-- The slots behind the one at hand. -/
theorem remSlots_eq {i : ℕ} (hi : i < a.maxChunks) : a.remSlots i = a.maxChunks - 1 - i := by
  have hlt := a.maxChunks_lt
  have hone := subSize_eq (a := a.maxChunks) (b := 1) (by omega) hlt
  rw [remSlots, hone, subSize_eq (by omega) (by omega)]

/-- `L` and `H` are the bounds of a part. -/
theorem chunkLow_eq {remLen slots : ℕ} (hrem : remLen < 2 ^ 64) :
    a.chunkLow remLen slots = cutLow a.minChunk a.maxChunk slots remLen := by
  unfold chunkLow cutLow
  simp only [coverSize_eq, SIZE_MAX]
  split_ifs with hover hlow
  · rw [subSize_eq (by omega) hrem] at hlow
    omega
  · rw [subSize_eq (by omega) hrem] at hlow ⊢
    omega
  · omega

theorem chunkHigh_eq {remLen : ℕ} (hmin : a.minChunk ≤ remLen) (hrem : remLen < 2 ^ 64) :
    a.chunkHigh remLen = cutHigh a.minChunk a.maxChunk remLen := by
  unfold chunkHigh cutHigh
  simp only [subSize_eq hmin hrem]
  split_ifs <;> omega

/-- None of the subtractions behind them wraps around. -/
theorem chunkSubs_le {remLen slots : ℕ} (hmin : a.minChunk ≤ remLen) :
    ∀ p ∈ a.chunkSubs remLen slots, p.2 ≤ p.1 := by
  intro p hp
  unfold chunkSubs at hp
  simp only [List.mem_append, List.mem_singleton] at hp
  rcases hp with hp | rfl
  · split_ifs at hp with hover
    · rw [List.mem_singleton.mp hp]
      exact hover.le
    · exact absurd hp List.not_mem_nil
  · exact hmin

end SplitArgs

/-! ### The sampler -/

/-- Of the words drawn from here on, one lies below the cutoff. -/
inductive YieldsBelow {C : Type*} (rng : Rng C) (cutoff : ℕ) : C → Prop
  | here {ctx ctx' : C} {bytes : Bytes} (hfill : rng.fill ctx 4 = some (bytes, ctx'))
    (hlow : readLe32 bytes < cutoff) : YieldsBelow rng cutoff ctx
  | later {ctx ctx' : C} {bytes : Bytes} (hfill : rng.fill ctx 4 = some (bytes, ctx'))
    (hrest : YieldsBelow rng cutoff ctx') : YieldsBelow rng cutoff ctx

/-- **What `t3__rng_range` asks of its callers, and gives for it**: the bounds in order and their
range in 32 bits; then it divides by no zero, some words are accepted, and it returns on every
stream that yields one of them. -/
structure Samples (lo hi : ℕ) : Prop where
  le : lo ≤ hi
  fits : hi - lo + 1 < 2 ^ 32
  range_ne : rngRangeSize lo hi ≠ 0
  cutoff_pos : 0 < rngCutoff lo hi
  ends : ∀ {C : Type} (rng : Rng C) (ctx : C), YieldsBelow rng (rngCutoff lo hi) ctx →
    ∃ turns r, t3RngRange rng lo hi turns ctx = .done r

theorem rngRangeSize_eq {lo hi : ℕ} (hlo : 1 ≤ lo) (hle : lo ≤ hi) (hhi : hi < 2 ^ 64) :
    rngRangeSize lo hi = hi - lo + 1 := by
  rw [rngRangeSize, subSize_eq hle hhi, Nat.mod_eq_of_lt (by omega)]

/-- The cutoff of the machine is that of the numbers, whatever the range is. -/
theorem rngCutoff_eq {lo hi : ℕ} (hlo : 1 ≤ lo) (hle : lo ≤ hi) (hhi : hi < 2 ^ 64) :
    rngCutoff lo hi = (2 ^ 32 - 1) / (hi - lo + 1) * (hi - lo + 1) := by
  unfold rngCutoff
  simp only [rngRangeSize_eq hlo hle hhi]
  generalize hi - lo + 1 = range
  have hdiv := Nat.div_le_self (2 ^ 32 - 1) range
  have hmul := Nat.div_mul_le_self (2 ^ 32 - 1) range
  have hbucket : (2 ^ 32 - 1) / range % 2 ^ 32 = (2 ^ 32 - 1) / range :=
    Nat.mod_eq_of_lt (by omega)
  rw [hbucket]
  by_cases hbig : range < 2 ^ 32
  · rw [Nat.mod_eq_of_lt hbig, Nat.mod_eq_of_lt (by omega)]
  · have hzero : (2 ^ 32 - 1) / range = 0 := Nat.div_eq_of_lt (by omega)
    rw [hzero, Nat.zero_mul, Nat.zero_mul, Nat.zero_mod]

/-- **The cutoff is above half of all words** where the range fits, and zero where it does not. -/
theorem cutoff_half {range : ℕ} (hpos : 1 ≤ range) (hfits : range < 2 ^ 32) :
    2 ^ 31 ≤ (2 ^ 32 - 1) / range * range := by
  have hsplit := Nat.div_add_mod' (2 ^ 32 - 1) range
  have hmod := Nat.mod_lt (2 ^ 32 - 1) hpos
  have hone : 1 ≤ (2 ^ 32 - 1) / range := Nat.div_pos (by omega) hpos
  have hle : range ≤ (2 ^ 32 - 1) / range * range := Nat.le_mul_of_pos_left range hone
  omega

section Turns

variable {C : Type*} {rng : Rng C} {range : ℕ} {ctx ctx' : C} {bytes : Bytes}

/-- A word below the cutoff is a length. -/
theorem t3RngTurn_low (lo : ℕ) (hfill : rng.fill ctx 4 = some (bytes, ctx'))
    (hlow : readLe32 bytes < (2 ^ 32 - 1) / range * range) :
    t3RngTurn rng lo range ctx = .done (.ok (lo + readLe32 bytes % range, ctx')) := by
  simp only [t3RngTurn, hfill]
  rw [if_neg (not_le.mpr hlow)]

/-- Any other is drawn again. -/
theorem t3RngTurn_high (lo : ℕ) (hfill : rng.fill ctx 4 = some (bytes, ctx'))
    (hhigh : (2 ^ 32 - 1) / range * range ≤ readLe32 bytes) :
    t3RngTurn rng lo range ctx = .again ctx' := by
  simp only [t3RngTurn, hfill]
  rw [if_pos hhigh]

end Turns

/-- **A stream that yields a low word ends the draw**, with the same length for every number of
turns that is large enough. -/
theorem t3RngRange_ends {C : Type*} {rng : Rng C} {lo hi : ℕ} {ctx : C}
    (h : YieldsBelow rng ((2 ^ 32 - 1) / (hi - lo + 1) * (hi - lo + 1)) ctx) :
    ∃ n p, ∀ turns, n ≤ turns → t3RngRange rng lo hi turns ctx = .done (.ok p) := by
  induction h with
  | @here ctx ctx' bytes hfill hlow =>
    refine ⟨1, (lo + readLe32 bytes % (hi - lo + 1), ctx'), fun turns hturns => ?_⟩
    obtain ⟨n, rfl⟩ := Nat.exists_eq_add_of_le' hturns
    exact loopFor_of_done (t3RngTurn_low lo hfill hlow) n
  | @later ctx ctx' bytes hfill _ ih =>
    rcases Nat.lt_or_ge (readLe32 bytes) ((2 ^ 32 - 1) / (hi - lo + 1) * (hi - lo + 1)) with
      hlow | hhigh
    · refine ⟨1, (lo + readLe32 bytes % (hi - lo + 1), ctx'), fun turns hturns => ?_⟩
      obtain ⟨n, rfl⟩ := Nat.exists_eq_add_of_le' hturns
      exact loopFor_of_done (t3RngTurn_low lo hfill hlow) n
    · obtain ⟨n, p, hn⟩ := ih
      refine ⟨n + 1, p, fun turns hturns => ?_⟩
      obtain ⟨k, rfl⟩ := Nat.exists_eq_add_of_le' hturns
      have hrest := hn (k + n) (by omega)
      rw [t3RngRange, ← Nat.add_assoc, loopFor_of_again (t3RngTurn_high lo hfill hhigh)]
      exact hrest

/-- Where the range fits, the sampler does what it is asked for. -/
theorem samples_of_fits {lo hi : ℕ} (hlo : 1 ≤ lo) (hle : lo ≤ hi) (hhi : hi < 2 ^ 64)
    (hfits : hi - lo + 1 < 2 ^ 32) : Samples lo hi := by
  have hcutoff := rngCutoff_eq hlo hle hhi
  refine ⟨hle, hfits, ?_, ?_, fun rng ctx h => ?_⟩
  · rw [rngRangeSize_eq hlo hle hhi]
    omega
  · have hhalf := cutoff_half (Nat.le_add_left 1 (hi - lo)) hfits
    omega
  · rw [hcutoff] at h
    obtain ⟨n, p, hn⟩ := t3RngRange_ends h
    exact ⟨n, _, hn n le_rfl⟩

/-- The sampler fails only where the generator does. -/
theorem t3RngRange_error {C : Type*} {rng : Rng C} {lo hi turns : ℕ} {ctx : C} {e : T3Result}
    (h : t3RngRange rng lo hi turns ctx = .done (.error e)) :
    e = .rng ∧ ∃ ctx', rng.fill ctx' 4 = none := by
  unfold t3RngRange at h
  induction turns generalizing ctx with
  | zero => simp at h
  | succ n ih =>
    cases hfill : rng.fill ctx 4 with
    | none =>
      have hdone : t3RngTurn rng lo (hi - lo + 1) ctx = .done (.error .rng) := by
        simp only [t3RngTurn, hfill]
      rw [loopFor_of_done hdone] at h
      exact ⟨(Except.error.inj (Turn.done.inj h)).symm, ctx, hfill⟩
    | some q =>
      rcases Nat.lt_or_ge (readLe32 q.1) ((2 ^ 32 - 1) / (hi - lo + 1) * (hi - lo + 1)) with
        hlow | hhigh
      · rw [loopFor_of_done (t3RngTurn_low lo hfill hlow)] at h
        exact absurd (Turn.done.inj h) (by simp)
      · rw [loopFor_of_again (t3RngTurn_high lo hfill hhigh)] at h
        exact ih h

/-- Where the range does not fit, no word is ever accepted. -/
theorem t3RngRange_spins {C : Type*} {rng : Rng C} {lo hi : ℕ} (hbig : 2 ^ 32 ≤ hi - lo + 1)
    (turns : ℕ) (ctx : C) (p : ℕ × C) : t3RngRange rng lo hi turns ctx ≠ .done (.ok p) := by
  unfold t3RngRange
  induction turns generalizing ctx with
  | zero => simp
  | succ n ih =>
    cases hfill : rng.fill ctx 4 with
    | none =>
      have hdone : t3RngTurn rng lo (hi - lo + 1) ctx = .done (.error .rng) := by
        simp only [t3RngTurn, hfill]
      rw [loopFor_of_done hdone]
      simp
    | some q =>
      have hzero : (2 ^ 32 - 1) / (hi - lo + 1) = 0 := Nat.div_eq_of_lt (by omega)
      have hcutoff : (2 ^ 32 - 1) / (hi - lo + 1) * (hi - lo + 1) ≤ readLe32 q.1 := by
        rw [hzero, Nat.zero_mul]
        exact Nat.zero_le _
      rw [loopFor_of_again (t3RngTurn_high lo hfill hcutoff)]
      exact ih q.2

/-! ### A generator with given answers -/

/-- The next of the given answers, where it has the length asked for, and zeros else. -/
def queueFill (q : List Bytes) (n : ℕ) : Option (Bytes × List Bytes) :=
  match q with
  | [] => some (List.replicate n 0, [])
  | b :: q => some (if b.length = n then b else List.replicate n 0, q)

theorem queueFill_length (q : List Bytes) (n : ℕ) (bs : Bytes) (q' : List Bytes)
    (h : queueFill q n = some (bs, q')) : bs.length = n := by
  cases q with
  | nil =>
    obtain ⟨rfl, -⟩ := Prod.mk.inj (Option.some.inj h)
    exact List.length_replicate
  | cons b q =>
    obtain ⟨rfl, -⟩ := Prod.mk.inj (Option.some.inj h)
    split_ifs with hlen
    · exact hlen
    · exact List.length_replicate

/-- A generator that gives these answers, and then zeros. -/
def queueRng : Rng (List Bytes) := ⟨queueFill, queueFill_length⟩

/-- A generator that does not fail. -/
def NeverFails {C : Type*} (rng : Rng C) : Prop := ∀ ctx n, rng.fill ctx n ≠ none

/-- A generator that yields a word below every cutoff the sampler may have, from wherever it is. -/
def Settles {C : Type*} (rng : Rng C) : Prop :=
  ∀ ctx cutoff, 2 ^ 31 ≤ cutoff → YieldsBelow rng cutoff ctx

theorem queueRng_neverFails : NeverFails queueRng := by
  intro q n
  cases q <;> simp [queueRng, queueFill]

theorem queueRng_settles : Settles queueRng := by
  intro q cutoff hcutoff
  induction q with
  | nil =>
    have hzero : readLe32 (List.replicate 4 0) = 0 := rfl
    exact .here rfl (by rw [hzero]; omega)
  | cons b q ih => exact .later rfl ih

/-! ### The loop -/

/-- The arguments that pass the checks in front of the loop. -/
structure SplitArgs.Passes (a : SplitArgs) : Prop where
  minChunk_pos : 1 ≤ a.minChunk
  minChunk_le : a.minChunk ≤ a.maxChunk
  le_totalLen : a.minChunk ≤ a.totalLen
  maxChunks_pos : 1 ≤ a.maxChunks
  totalLen_le : a.totalLen ≤ a.maxChunks * a.maxChunk

/-- **The invariant of the loop.**  What was cut off and what is left make up the length, what is
left can be one chunk and is no more than the slots can take, and no subtraction wrapped around. -/
structure Planned {C : Type*} (a : SplitArgs) (plan : List ℕ) (s : SplitState C) : Prop where
  cut : ∃ cut, s.plan = cut ++ plan.drop s.i ∧ cut.length = s.i ∧
    cut.sum + s.remLen = a.totalLen ∧ ∀ c ∈ cut, a.minChunk ≤ c ∧ c ≤ a.maxChunk
  rem_ge : a.minChunk ≤ s.remLen
  rem_le : s.remLen ≤ (a.maxChunks - s.i) * a.maxChunk
  subs : ∀ p ∈ s.subs, p.2 ≤ p.1

/-- **A plan that is reported**: 1 to `max_chunks` chunks within the bounds that make up the
length, nothing written behind them, and no subtraction that wrapped around. -/
structure SplitRun.Sound {C : Type*} (a : SplitArgs) (plan : List ℕ) (run : SplitRun C)
    (n : ℕ) : Prop where
  count : 1 ≤ n ∧ n ≤ a.maxChunks
  chunks : ∀ c ∈ run.state.plan.take n, a.minChunk ≤ c ∧ c ≤ a.maxChunk
  sum : (run.state.plan.take n).sum = a.totalLen
  behind : run.state.plan.drop n = plan.drop n
  subs : ∀ p ∈ run.state.subs, p.2 ≤ p.1

/-- A chunk is written behind those before it. -/
theorem set_cut {cut plan : List ℕ} {i : ℕ} (hlen : cut.length = i) (hi : i < plan.length)
    (c : ℕ) : (cut ++ plan.drop i).set i c = (cut ++ [c]) ++ plan.drop (i + 1) := by
  rw [List.set_append_right i c hlen.le, hlen, Nat.sub_self, List.drop_eq_getElem_cons hi,
    List.set_cons_zero, List.append_assoc]
  rfl

/-- The state after a chunk of `c`. -/
def SplitState.cutOff {C : Type*} (s : SplitState C) (a : SplitArgs) (low high c : ℕ) (ctx : C) :
    SplitState C :=
  ⟨s.i + 1, subSize s.remLen c, s.plan.set s.i c, ctx,
    s.subs ++ a.chunkSubs s.remLen (a.remSlots s.i) ++ [(high, low)] ++ [(s.remLen, c)],
    s.draws ++ [(low, high)]⟩

namespace Planned

variable {C : Type*} {rng : Rng C} {a : SplitArgs} {plan : List ℕ} {turns : ℕ} {s : SplitState C}

theorem rem_lt (h : Planned a plan s) : s.remLen < 2 ^ 64 := by
  obtain ⟨cut, -, -, hsum, -⟩ := h.cut
  have hlt := a.totalLen_lt
  omega

/-- The first lines of a turn. -/
theorem begin (h : Planned a plan s) (hi : s.i < a.maxChunks) : Planned a plan (s.begin a) := by
  have hone : subSize a.maxChunks 1 = a.maxChunks - 1 := subSize_eq (by omega) a.maxChunks_lt
  refine ⟨h.cut, h.rem_ge, h.rem_le, fun p hp => ?_⟩
  rcases List.mem_append.mp hp with hp | hp
  · exact h.subs p hp
  · simp only [List.mem_cons, List.not_mem_nil, or_false] at hp
    rcases hp with rfl | rfl
    · exact show 1 ≤ a.maxChunks by omega
    · rw [hone]
      exact show s.i ≤ a.maxChunks - 1 by omega

/-- Another state of the generator. -/
theorem withCtx (h : Planned a plan s) (ctx : C) : Planned a plan { s with ctx := ctx } :=
  ⟨h.cut, h.rem_ge, h.rem_le, h.subs⟩

/-- **A chunk within the bounds keeps the invariant.** -/
theorem cutOff (h : Planned a plan s) (hi : s.i < a.maxChunks) (hplan : a.maxChunks ≤ plan.length)
    {low high c : ℕ} (hlow : low = cutLow a.minChunk a.maxChunk (a.maxChunks - 1 - s.i) s.remLen)
    (hhigh : high = cutHigh a.minChunk a.maxChunk s.remLen) (hlc : low ≤ c) (hch : c ≤ high)
    (ctx : C) : Planned a plan (s.cutOff a low high c ctx) ∧
      (s.cutOff a low high c ctx).remLen = s.remLen - c := by
  have hge := h.rem_ge
  have hle := h.rem_le
  obtain ⟨hcm, hcM, hrest, hslots⟩ := cut_bounds hge (hlow ▸ hlc) (hhigh ▸ hch)
  have hsub : subSize s.remLen c = s.remLen - c := subSize_eq (by omega) h.rem_lt
  obtain ⟨cut, hcut, hlen, hsum, hall⟩ := h.cut
  refine ⟨⟨⟨cut ++ [c], ?_, ?_, ?_, ?_⟩, ?_, ?_, ?_⟩, hsub⟩
  · rw [SplitState.cutOff, hcut, set_cut hlen (by omega)]
  · simp [SplitState.cutOff, hlen]
  · simp only [SplitState.cutOff, hsub, List.sum_append, List.sum_singleton]
    omega
  · intro b hb
    rcases List.mem_append.mp hb with hb | hb
    · exact hall b hb
    · rw [List.mem_singleton.mp hb]
      exact ⟨hcm, hcM⟩
  · exact le_of_le_of_eq (by omega) hsub.symm
  · have hbehind : a.maxChunks - 1 - s.i = a.maxChunks - (s.i + 1) := by omega
    rw [hbehind] at hslots
    exact le_of_eq_of_le hsub hslots
  · intro p hp
    simp only [SplitState.cutOff, List.mem_append, List.mem_singleton] at hp
    rcases hp with ((hp | hp) | rfl) | rfl
    · exact h.subs p hp
    · exact SplitArgs.chunkSubs_le hge p hp
    · exact hlc.trans hch
    · exact show c ≤ s.remLen by omega

/-- **The last chunk completes the plan.** -/
theorem finish (h : Planned a plan s) (hi : s.i < a.maxChunks) (hplan : a.maxChunks ≤ plan.length)
    (hone : s.remLen ≤ a.maxChunk) : (finishChunk s).Sound a plan (s.i + 1) := by
  obtain ⟨cut, hcut, hlen, hsum, hall⟩ := h.cut
  have hset : (finishChunk s).state.plan = (cut ++ [s.remLen]) ++ plan.drop (s.i + 1) := by
    rw [finishChunk, hcut, set_cut hlen (by omega)]
  have hfront : (cut ++ [s.remLen]).length = s.i + 1 := by simp [hlen]
  refine ⟨⟨by omega, by omega⟩, ?_, ?_, ?_, h.subs⟩
  · rw [hset, List.take_left' hfront]
    intro c hc
    rcases List.mem_append.mp hc with hc | hc
    · exact hall c hc
    · rw [List.mem_singleton.mp hc]
      exact ⟨h.rem_ge, hone⟩
  · rw [hset, List.take_left' hfront, List.sum_append, List.sum_singleton]
    exact hsum
  · rw [hset, List.drop_left' hfront]

end Planned

section Steps

variable {C : Type*} {rng : Rng C} {a : SplitArgs} {plan : List ℕ} {turns : ℕ} {s : SplitState C}

/-- The bounds of the chunk at hand. -/
def SplitArgs.bounds (a : SplitArgs) (s : SplitState C) : ℕ × ℕ :=
  (cutLow a.minChunk a.maxChunk (a.maxChunks - 1 - s.i) s.remLen,
    cutHigh a.minChunk a.maxChunk s.remLen)

/-- `L` and `H` are these bounds. -/
theorem Planned.chunk_eq_bounds (h : Planned a plan s) (hi : s.i < a.maxChunks) :
    a.chunkLow s.remLen (a.remSlots s.i) = (a.bounds s).1 ∧
      a.chunkHigh s.remLen = (a.bounds s).2 := by
  rw [SplitArgs.remSlots_eq hi, SplitArgs.chunkLow_eq h.rem_lt,
    SplitArgs.chunkHigh_eq h.rem_ge h.rem_lt]
  exact ⟨rfl, rfl⟩

variable (rng a turns s) in
/-- **What drawing a chunk can do**: a dead end, where the bounds cross; else the sampler still
draws, or fails, or a chunk is cut off. -/
inductive ChunkStep : Turn (SplitState C) (SplitRun C) → Prop
  | dead {t : SplitState C} (hcross : (a.bounds s).2 < (a.bounds s).1)
    (hdraws : t.draws = s.draws) : ChunkStep (.done ⟨some .internal, none, t⟩)
  | waiting {t : SplitState C} {ctx : C} (hle : (a.bounds s).1 ≤ (a.bounds s).2)
    (hdraw : t3RngRange rng (a.bounds s).1 (a.bounds s).2 turns s.ctx = .again ctx)
    (hdraws : t.draws = s.draws ++ [a.bounds s]) : ChunkStep (.done ⟨none, none, t⟩)
  | failed {t : SplitState C} {ctx : C} (hle : (a.bounds s).1 ≤ (a.bounds s).2)
    (hfail : rng.fill ctx 4 = none) (hdraws : t.draws = s.draws ++ [a.bounds s]) :
    ChunkStep (.done ⟨some .rng, none, t⟩)
  | cut {c : ℕ} {ctx : C} (hle : (a.bounds s).1 ≤ (a.bounds s).2)
    (hdraw : t3RngRange rng (a.bounds s).1 (a.bounds s).2 turns s.ctx = .done (.ok (c, ctx))) :
    ChunkStep (.again (s.cutOff a (a.bounds s).1 (a.bounds s).2 c ctx))

theorem splitChunk_step (rng : Rng C) (turns : ℕ) (h : Planned a plan s) (hi : s.i < a.maxChunks) :
    ChunkStep rng a turns s (splitChunk rng a turns s) := by
  obtain ⟨hlow, hhigh⟩ := h.chunk_eq_bounds hi
  unfold splitChunk
  simp only [hlow, hhigh]
  by_cases hcross : (a.bounds s).2 < (a.bounds s).1
  · rw [if_pos hcross]
    exact .dead hcross rfl
  · rw [if_neg hcross]
    cases hdraw : t3RngRange rng (a.bounds s).1 (a.bounds s).2 turns s.ctx with
    | again ctx => exact .waiting (not_lt.mp hcross) hdraw rfl
    | done r =>
      cases r with
      | error e =>
        obtain ⟨rfl, ctx, hfail⟩ := t3RngRange_error hdraw
        exact .failed (not_lt.mp hcross) hfail rfl
      | ok p => exact .cut (not_lt.mp hcross) hdraw

/-- The chunk that is drawn is cut off. -/
theorem splitChunk_of_draw {c : ℕ} {ctx : C} (h : Planned a plan s) (hi : s.i < a.maxChunks)
    (hle : (a.bounds s).1 ≤ (a.bounds s).2)
    (hdraw : t3RngRange rng (a.bounds s).1 (a.bounds s).2 turns s.ctx = .done (.ok (c, ctx))) :
    splitChunk rng a turns s = .again (s.cutOff a (a.bounds s).1 (a.bounds s).2 c ctx) := by
  obtain ⟨hlow, hhigh⟩ := h.chunk_eq_bounds hi
  unfold splitChunk
  simp only [hlow, hhigh, if_neg (not_lt.mpr hle), hdraw, SplitState.cutOff]

/-- Whether the rest must be the last chunk. -/
def SplitArgs.MustFinish (a : SplitArgs) (s : SplitState C) : Prop :=
  s.remLen ≤ a.maxChunk ∧ (a.maxChunks - 1 - s.i = 0 ∨ s.remLen < mulSize 2 a.minChunk)

/-- **What a turn can do**, whatever number of turns a draw may take: it completes the plan, where
the rest is one chunk, or the generator fails, or a chunk is drawn, where it need not be the
last. -/
theorem splitTurn_cases (rng : Rng C) (hi : s.i < a.maxChunks) :
    (s.remLen ≤ a.maxChunk ∧ ∃ ctx, ∀ turns,
      splitTurn rng a turns s = .done (finishChunk { s.begin a with ctx := ctx })) ∨
    (rng.fill s.ctx 1 = none ∧ ∀ turns,
      splitTurn rng a turns s = .done ⟨some .rng, none, s.begin a⟩) ∨
    (¬ a.MustFinish s ∧ ∃ ctx, ∀ turns,
      splitTurn rng a turns s = splitChunk rng a turns { s.begin a with ctx := ctx }) := by
  have hslots := SplitArgs.remSlots_eq hi
  unfold SplitArgs.MustFinish
  simp only [splitTurn, hslots, SplitState.begin]
  by_cases hone : s.remLen ≤ a.maxChunk
  · simp only [if_pos hone]
    by_cases hmust : a.maxChunks - 1 - s.i = 0 ∨ s.remLen < mulSize 2 a.minChunk
    · simp only [if_pos hmust]
      exact Or.inl ⟨hone, s.ctx, fun _ => rfl⟩
    · simp only [if_neg hmust]
      cases hfill : rng.fill s.ctx 1 with
      | none => exact Or.inr (Or.inl ⟨rfl, fun _ => rfl⟩)
      | some p =>
        by_cases hcoin : (p.1.getD 0 0).toNat % 2 = 0
        · simp only [if_pos hcoin]
          exact Or.inl ⟨hone, p.2, fun _ => rfl⟩
        · simp only [if_neg hcoin]
          exact Or.inr (Or.inr ⟨fun h => hmust h.2, p.2, fun _ => rfl⟩)
  · simp only [if_neg hone]
    exact Or.inr (Or.inr ⟨fun h => hone h.1, s.ctx, fun _ => rfl⟩)

/-- A chunk that was drawn keeps the invariant. -/
theorem ChunkStep.again {t : Turn (SplitState C) (SplitRun C)} (hstep : ChunkStep rng a turns s t)
    (h : Planned a plan s) (hi : s.i < a.maxChunks) (hplan : a.maxChunks ≤ plan.length)
    {s' : SplitState C} (ht : t = .again s') :
    Planned a plan s' ∧ s'.i = s.i + 1 ∧ s'.draws = s.draws ++ [a.bounds s] ∧
      ∃ c, (a.bounds s).1 ≤ c ∧ c ≤ (a.bounds s).2 ∧ s'.remLen = s.remLen - c := by
  cases hstep with
  | dead => simp at ht
  | waiting => simp at ht
  | failed => simp at ht
  | @cut c ctx hle hdraw =>
    obtain ⟨hlc, hch⟩ := t3RngRange_bounds rng hle hdraw
    obtain ⟨hplanned, hrem⟩ := h.cutOff hi hplan rfl rfl hlc hch ctx
    rw [← Turn.again.inj ht]
    exact ⟨hplanned, rfl, rfl, c, hlc, hch, hrem⟩

/-- **A turn keeps the invariant**, and a turn that ends the loop with success leaves a sound
plan. -/
theorem splitTurn_planned (h : Planned a plan s) (hi : s.i < a.maxChunks)
    (hplan : a.maxChunks ≤ plan.length) :
    (∀ s', splitTurn rng a turns s = .again s' → Planned a plan s' ∧ s'.i = s.i + 1) ∧
      ∀ run, splitTurn rng a turns s = .done run → run.result = some .ok →
        ∃ n, run.outCount = some n ∧ run.Sound a plan n := by
  rcases splitTurn_cases rng hi with ⟨hone, ctx, heq⟩ | ⟨-, heq⟩ | ⟨-, ctx, heq⟩
  · rw [heq]
    refine ⟨fun s' h' => by simp at h', fun run hrun _ => ?_⟩
    rw [← Turn.done.inj hrun]
    exact ⟨s.i + 1, rfl, ((h.begin hi).withCtx ctx).finish hi hplan hone⟩
  · rw [heq]
    refine ⟨fun s' h' => by simp at h', fun run hrun hok => ?_⟩
    rw [← Turn.done.inj hrun] at hok
    simp at hok
  · have hbegin := (h.begin hi).withCtx ctx
    have hstep := splitChunk_step rng turns hbegin hi
    rw [heq]
    refine ⟨fun s' h' => ?_, fun run hrun hok => ?_⟩
    · obtain ⟨hplanned, hi', -⟩ := hstep.again hbegin hi hplan h'
      exact ⟨hplanned, hi'⟩
    · rw [hrun] at hstep
      cases hstep with
      | dead => simp at hok
      | waiting => simp at hok
      | failed => simp at hok

end Steps

/-! ### Soundness -/

section Runs

variable {C : Type*} {rng : Rng C} {a : SplitArgs} {turns : ℕ} {plan : List ℕ} {ctx : C}

/-- The loop starts with nothing cut off. -/
theorem planned_start (hpass : a.Passes) (plan : List ℕ) (ctx : C) :
    Planned a plan (⟨0, a.totalLen, plan, ctx, [], []⟩ : SplitState C) :=
  ⟨⟨[], rfl, rfl, by simp, fun c hc => absurd hc List.not_mem_nil⟩, hpass.le_totalLen,
    hpass.totalLen_le, fun p hp => absurd hp List.not_mem_nil⟩

/-- What the checks in front of the loop let through. -/
theorem t3SplitPlan_of_passes (hpass : a.Passes) (plan : List ℕ) (ctx : C) :
    t3SplitPlan rng a turns true plan ctx =
      match loopFor (splitTurn rng a turns) a.maxChunks
          ⟨0, a.totalLen, plan, ctx, [], []⟩ with
      | .done run => run
      | .again s => if s.remLen > 0 then ⟨some .internal, none, s⟩ else ⟨some .ok, some 0, s⟩ := by
  obtain ⟨hmin, hmax, htotal, hslots, hcover⟩ := hpass
  have hfits : ¬ coverSize a.maxChunks a.maxChunk < a.totalLen := by
    have hlt := a.totalLen_lt
    rw [coverSize_eq]
    unfold SIZE_MAX
    omega
  simp only [t3SplitPlan]
  rw [if_neg (by simp), if_neg (by omega), if_neg (by omega), if_neg hfits]

/-- What they do not let through comes to no draw and no plan. -/
theorem t3SplitPlan_of_not_passes (rng : Rng C) (turns : ℕ) {callbacksBound : Bool}
    (h : ¬ (callbacksBound = true ∧ a.Passes)) (plan : List ℕ) (ctx : C) :
    (t3SplitPlan rng a turns callbacksBound plan ctx).state.draws = [] ∧
      (t3SplitPlan rng a turns callbacksBound plan ctx).result ≠ none ∧
      (t3SplitPlan rng a turns callbacksBound plan ctx).result ≠ some .ok := by
  simp only [t3SplitPlan]
  split_ifs with hbound hargs hslots hcover
  · simp
  · simp
  · simp
  · simp
  · refine absurd ⟨by simpa using hbound, ?_⟩ h
    rw [coverSize_eq] at hcover
    exact ⟨by omega, by omega, by omega, by omega, by omega⟩

/-- **A plan that is reported is sound.** -/
theorem t3SplitPlan_sound (rng : Rng C) (a : SplitArgs) (turns : ℕ) (callbacksBound : Bool)
    (plan : List ℕ) (ctx : C) (hplan : a.maxChunks ≤ plan.length)
    (h : (t3SplitPlan rng a turns callbacksBound plan ctx).result = some .ok) :
    ∃ n, (t3SplitPlan rng a turns callbacksBound plan ctx).outCount = some n ∧
      (t3SplitPlan rng a turns callbacksBound plan ctx).Sound a plan n := by
  by_cases hpass : callbacksBound = true ∧ a.Passes
  · obtain ⟨rfl, hpass⟩ := hpass
    rw [t3SplitPlan_of_passes hpass] at h ⊢
    obtain ⟨hagain, hdone⟩ := loopFor_inv_left
      (J := fun n s => Planned a plan s ∧ s.i + n = a.maxChunks)
      (Q := fun run => run.result = some .ok → ∃ n, run.outCount = some n ∧ run.Sound a plan n)
      (fun n s s' hJ hstep => by
        obtain ⟨hplanned, hi⟩ := (splitTurn_planned hJ.1 (by omega) hplan).1 s' hstep
        exact ⟨hplanned, by omega⟩)
      (fun n s run hJ hstep => (splitTurn_planned hJ.1 (by omega) hplan).2 run hstep)
      (⟨planned_start hpass plan ctx, Nat.zero_add _⟩ : _ ∧ _)
    cases hloop : loopFor (splitTurn rng a turns) a.maxChunks
        ⟨0, a.totalLen, plan, ctx, [], []⟩ with
    | done run =>
      rw [hloop] at h
      exact hdone run hloop h
    | again s =>
      -- A loop that is exhausted leaves at least one chunk.
      have hrem := (hagain s hloop).1.rem_ge
      have hpos := hpass.minChunk_pos
      rw [hloop] at h
      simp only at h
      rw [if_pos (by omega)] at h
      simp at h
  · exact absurd h (t3SplitPlan_of_not_passes rng turns hpass plan ctx).2.2

/-- Two chunks of 10 to 12 make up 23. -/
def tightArgs : SplitArgs where
  totalLen := 23
  minChunk := 10
  maxChunk := 12
  maxChunks := 5
  totalLen_lt := Nat.le_of_ble_eq_true rfl
  minChunk_lt := Nat.le_of_ble_eq_true rfl
  maxChunk_lt := Nat.le_of_ble_eq_true rfl
  maxChunks_lt := Nat.le_of_ble_eq_true rfl

/-- A plan of 11 and 12. -/
theorem t3SplitPlan_sound_tight :
    ∃ n, (t3SplitPlan queueRng tightArgs 1 true [0, 0, 0, 0, 0] [[1, 0, 0, 0]]).outCount = some n ∧
      (t3SplitPlan queueRng tightArgs 1 true [0, 0, 0, 0, 0] [[1, 0, 0, 0]]).Sound tightArgs
        [0, 0, 0, 0, 0] n :=
  t3SplitPlan_sound queueRng tightArgs 1 true [0, 0, 0, 0, 0] [[1, 0, 0, 0]] (by decide) rfl

/-! ### The ranges drawn from -/

/-- Whether the ranges fit: no chunk is drawn, or the first bounds are not too far apart. -/
def SplitArgs.RangeFits (a : SplitArgs) : Prop :=
  a.maxChunks = 1 ∨ cutSlack a.minChunk a.maxChunk a.maxChunks a.totalLen + 1 < 2 ^ 32

/-- What is known of the draws with so many slots left. -/
structure Drawing (a : SplitArgs) (plan : List ℕ) (n : ℕ) (s : SplitState C) : Prop where
  planned : Planned a plan s
  slots : s.i + n = a.maxChunks
  slack : n ≤ 1 ∨ cutSlack a.minChunk a.maxChunk n s.remLen + 1 < 2 ^ 32

/-- The bounds, with as many slots behind as are left. -/
theorem Planned.bounds_eq {n : ℕ} {s : SplitState C} (h : Planned a plan s)
    (hslots : s.i + (n + 1) = a.maxChunks) :
    a.bounds s = (cutLow a.minChunk a.maxChunk n s.remLen, cutHigh a.minChunk a.maxChunk s.remLen) ∧
      s.remLen ≤ (n + 1) * a.maxChunk := by
  have hle := h.rem_le
  have hbehind : a.maxChunks - 1 - s.i = n := by omega
  have hleft : a.maxChunks - s.i = n + 1 := by omega
  rw [SplitArgs.bounds, hbehind]
  rw [hleft] at hle
  exact ⟨rfl, hle⟩

namespace Drawing

variable {n : ℕ} {s : SplitState C}

theorem lt (h : Drawing a plan (n + 1) s) : s.i < a.maxChunks := by
  have hslots := h.slots
  omega

theorem bounds_eq (h : Drawing a plan (n + 1) s) :
    a.bounds s = (cutLow a.minChunk a.maxChunk n s.remLen, cutHigh a.minChunk a.maxChunk s.remLen) ∧
      s.remLen ≤ (n + 1) * a.maxChunk :=
  h.planned.bounds_eq h.slots

/-- With one slot left the rest must be the last chunk. -/
theorem pos_of_not_mustFinish (h : Drawing a plan (n + 1) s) (hmust : ¬ a.MustFinish s) :
    1 ≤ n := by
  by_contra hn
  obtain rfl : n = 0 := by omega
  have hslots := h.slots
  refine hmust ⟨?_, Or.inl (by omega)⟩
  simpa using h.bounds_eq.2

/-- **Bounds that do not cross have a range that fits.** -/
theorem samples (h : Drawing a plan (n + 1) s) (hpass : a.Passes) (hn : 1 ≤ n)
    (hle : (a.bounds s).1 ≤ (a.bounds s).2) : Samples (a.bounds s).1 (a.bounds s).2 := by
  obtain ⟨hbounds, hrem⟩ := h.bounds_eq
  rw [hbounds] at hle ⊢
  have hmin := hpass.minChunk_pos
  have hmax := a.maxChunk_lt
  have htwo := (cutLow_le_cutHigh hpass.minChunk_le hn hrem).mp hle
  have hslack := h.slack.resolve_left (by omega)
  rw [← cutHigh_sub_cutLow hpass.minChunk_le hn hrem htwo] at hslack
  refine samples_of_fits ?_ hle ?_ hslack
  · exact hmin.trans (le_max_left _ _)
  · exact lt_of_le_of_lt (min_le_left _ _) hmax

/-- What a chunk leaves. -/
theorem next {t : Turn (SplitState C) (SplitRun C)} {s' : SplitState C}
    (h : Drawing a plan (n + 1) s) (hplan : a.maxChunks ≤ plan.length) (hn : 1 ≤ n)
    (hstep : ChunkStep rng a turns s t) (ht : t = .again s') : Drawing a plan n s' := by
  obtain ⟨hplanned, hi, -, c, hlc, hch, hrem⟩ := hstep.again h.planned h.lt hplan ht
  have hslots := h.slots
  refine ⟨hplanned, by omega, ?_⟩
  rcases h.slack with hone | hslack
  · omega
  · rw [h.bounds_eq.1] at hch
    have hM : c ≤ a.maxChunk := hch.trans (min_le_left _ _)
    have hc : c ≤ s.remLen := hch.trans ((min_le_right _ _).trans (Nat.sub_le _ _))
    have hcut : cutSlack a.minChunk a.maxChunk n (s.remLen - c) ≤
        cutSlack a.minChunk a.maxChunk (n + 1) s.remLen := cutSlack_cut hM hc
    rw [hrem]
    exact Or.inr (by omega)

end Drawing

/-- **A turn draws from ranges that fit.** -/
theorem Drawing.turn_draws {n : ℕ} {s : SplitState C} (h : Drawing a plan (n + 1) s)
    (rng : Rng C) (turns : ℕ) (hpass : a.Passes) (hplan : a.maxChunks ≤ plan.length)
    (hs : ∀ p ∈ s.draws, Samples p.1 p.2) :
    (∀ s', splitTurn rng a turns s = .again s' →
        Drawing a plan n s' ∧ ∀ p ∈ s'.draws, Samples p.1 p.2) ∧
      ∀ run, splitTurn rng a turns s = .done run → ∀ p ∈ run.state.draws, Samples p.1 p.2 := by
  rcases splitTurn_cases rng h.lt with ⟨-, ctx, heq⟩ | ⟨-, heq⟩ | ⟨hmust, ctx, heq⟩
  · rw [heq]
    refine ⟨fun s' h' => by simp at h', fun run hrun => ?_⟩
    rw [← Turn.done.inj hrun]
    exact hs
  · rw [heq]
    refine ⟨fun s' h' => by simp at h', fun run hrun => ?_⟩
    rw [← Turn.done.inj hrun]
    exact hs
  · have hn := h.pos_of_not_mustFinish hmust
    have hbegin : Drawing a plan (n + 1) { s.begin a with ctx := ctx } :=
      ⟨(h.planned.begin h.lt).withCtx ctx, h.slots, h.slack⟩
    have hstep := splitChunk_step rng turns hbegin.planned hbegin.lt
    have hdrawn (hle : (a.bounds { s.begin a with ctx := ctx }).1 ≤
        (a.bounds { s.begin a with ctx := ctx }).2) :
        ∀ p ∈ s.draws ++ [a.bounds { s.begin a with ctx := ctx }], Samples p.1 p.2 := by
      intro p hp
      rcases List.mem_append.mp hp with hp | hp
      · exact hs p hp
      · rw [List.mem_singleton.mp hp]
        exact hbegin.samples hpass hn hle
    rw [heq]
    constructor
    · intro s' hs'
      refine ⟨hbegin.next hplan hn hstep hs', ?_⟩
      rw [hs'] at hstep
      cases hstep with
      | cut hle => exact hdrawn hle
    · intro run hrun
      rw [hrun] at hstep
      cases hstep with
      | dead _ hdraws => exact hdraws ▸ hs
      | waiting hle _ hdraws => exact hdraws ▸ hdrawn hle
      | failed hle _ hdraws => exact hdraws ▸ hdrawn hle

/-- **Every draw has a range that fits**, where the first bounds are not too far apart. -/
theorem t3SplitPlan_draws (rng : Rng C) (turns : ℕ) (ctx : C) (hpass : a.Passes)
    (hfits : a.RangeFits) (hplan : a.maxChunks ≤ plan.length) :
    ∀ p ∈ (t3SplitPlan rng a turns true plan ctx).state.draws, Samples p.1 p.2 := by
  have hstart : Drawing a plan a.maxChunks (⟨0, a.totalLen, plan, ctx, [], []⟩ : SplitState C) :=
    ⟨planned_start hpass plan ctx, Nat.zero_add _, hfits.imp_left le_of_eq⟩
  obtain ⟨hagain, hdone⟩ := loopFor_inv_left
    (J := fun n s => Drawing a plan n s ∧ ∀ p ∈ s.draws, Samples p.1 p.2)
    (Q := fun run : SplitRun C => ∀ p ∈ run.state.draws, Samples p.1 p.2)
    (fun n s s' hJ => (hJ.1.turn_draws rng turns hpass hplan hJ.2).1 s')
    (fun n s run hJ => (hJ.1.turn_draws rng turns hpass hplan hJ.2).2 run)
    ⟨hstart, fun p hp => absurd hp List.not_mem_nil⟩
  rw [t3SplitPlan_of_passes hpass]
  cases hloop : loopFor (splitTurn rng a turns) a.maxChunks
      ⟨0, a.totalLen, plan, ctx, [], []⟩ with
  | done run => exact hdone run hloop
  | again s =>
    have hs := (hagain s hloop).2
    dsimp only
    split_ifs
    · exact hs
    · exact hs

/-- A first turn that ends the loop. -/
theorem t3SplitPlan_of_first {run : SplitRun C} (hpass : a.Passes)
    (h : splitTurn rng a turns ⟨0, a.totalLen, plan, ctx, [], []⟩ = .done run) :
    t3SplitPlan rng a turns true plan ctx = run := by
  obtain ⟨n, hn⟩ := Nat.exists_eq_add_of_le' hpass.maxChunks_pos
  rw [t3SplitPlan_of_passes hpass, hn, loopFor_of_done h]

end Runs

/-! ### Chosen answers -/

/-- A coin for another chunk, where one is thrown. -/
def oddCoin (a : SplitArgs) (remLen : ℕ) : List Bytes := if remLen ≤ a.maxChunk then [[1]] else []

section Queue

variable {a : SplitArgs} {turns : ℕ} {plan : List ℕ} {s : SplitState (List Bytes)}

/-- With an odd coin the plan goes on wherever it need not end. -/
theorem splitTurn_queue (turns : ℕ) (q : List Bytes) (hi : s.i < a.maxChunks)
    (hmust : ¬ a.MustFinish s) (hctx : s.ctx = oddCoin a s.remLen ++ q) :
    splitTurn queueRng a turns s =
      splitChunk queueRng a turns { s.begin a with ctx := q } := by
  have hslots := SplitArgs.remSlots_eq hi
  unfold SplitArgs.MustFinish at hmust
  unfold oddCoin at hctx
  unfold splitTurn
  simp only [hslots, SplitState.begin]
  by_cases hone : s.remLen ≤ a.maxChunk
  · have hcoin : queueRng.fill ([1] :: q) 1 = some ([1], q) := rfl
    have hodd : ¬ (([1] : Bytes).getD 0 0).toNat % 2 = 0 := by decide
    rw [if_pos hone] at hctx
    rw [if_pos hone, if_neg fun h => hmust ⟨hone, h⟩, hctx, List.singleton_append, hcoin]
    dsimp only
    rw [if_neg hodd]
  · rw [if_neg hone, List.nil_append] at hctx
    rw [if_neg hone, ← hctx]

/-- The first turn, where it draws a chunk with the answers `q`. -/
theorem t3SplitPlan_queue (plan : List ℕ) (turns : ℕ) (q : List Bytes) (hpass : a.Passes)
    (hslots : a.maxChunks ≠ 1)
    (hmin : a.totalLen ≤ a.maxChunk → mulSize 2 a.minChunk ≤ a.totalLen) :
    ∃ s : SplitState (List Bytes), Planned a plan s ∧ s.i = 0 ∧ s.remLen = a.totalLen ∧ s.ctx = q ∧
      s.draws = [] ∧ ∀ run, splitChunk queueRng a turns s = .done run →
        t3SplitPlan queueRng a turns true plan (oddCoin a a.totalLen ++ q) = run := by
  have hpos := hpass.maxChunks_pos
  have hstart := planned_start hpass plan (oddCoin a a.totalLen ++ q)
  have hmust : ¬ a.MustFinish (⟨0, a.totalLen, plan, oddCoin a a.totalLen ++ q, [], []⟩ :
      SplitState (List Bytes)) := by
    rintro ⟨hone, hlast | hshort⟩
    · simp only at hlast
      omega
    · exact absurd (hmin hone) (not_le.mpr hshort)
  refine ⟨_, (hstart.begin (by exact hpos)).withCtx q, rfl, rfl, rfl, rfl, fun run hrun => ?_⟩
  have hlt : 0 < a.maxChunks := hpos
  exact t3SplitPlan_of_first hpass ((splitTurn_queue turns q hlt hmust rfl).trans hrun)

/-- **Bounds that are too far apart come to be drawn from.** -/
theorem exists_wide_draw (plan : List ℕ) (hpass : a.Passes) (hwide : ¬ a.RangeFits) (turns : ℕ) :
    ∃ s : SplitState (List Bytes), Planned a plan s ∧ s.i = 0 ∧
      2 ^ 32 ≤ (a.bounds s).2 - (a.bounds s).1 + 1 ∧ (a.bounds s).1 ≤ (a.bounds s).2 ∧
      s.draws = [] ∧ ∀ run, splitChunk queueRng a turns s = .done run →
        t3SplitPlan queueRng a turns true plan (oddCoin a a.totalLen) = run := by
  obtain ⟨hslots, hslack⟩ := not_or.mp hwide
  have hpos := hpass.maxChunks_pos
  have hlt := a.totalLen_lt
  have htwo : 2 * a.minChunk ≤ a.totalLen := by
    unfold cutSlack at hslack
    omega
  have hmul : mulSize 2 a.minChunk ≤ a.totalLen := (Nat.mod_le _ _).trans htwo
  obtain ⟨s, hs, hi, hrem, -, hdraws, hrun⟩ :=
    t3SplitPlan_queue plan turns [] hpass hslots fun _ => hmul
  obtain ⟨n, hn⟩ : ∃ n, a.maxChunks = n + 1 + 1 := ⟨a.maxChunks - 2, by omega⟩
  obtain ⟨hbounds, hle⟩ := hs.bounds_eq (n := n + 1) (by omega)
  have hcut := (cutLow_le_cutHigh hpass.minChunk_le (Nat.le_add_left 1 n) hle).mpr (hrem ▸ htwo)
  have hsub := cutHigh_sub_cutLow hpass.minChunk_le (Nat.le_add_left 1 n) hle (hrem ▸ htwo)
  rw [List.append_nil] at hrun
  refine ⟨s, hs, hi, ?_, by rw [hbounds]; exact hcut, hdraws, hrun⟩
  rw [hbounds, hsub, hrem, ← hn]
  omega

end Queue

/-- **What the claim of the sampler says of a plan**: whatever the generator answers, each range
drawn from is one the sampler can draw from. -/
def SplitArgs.SamplesAll (a : SplitArgs) : Prop :=
  ∀ (C : Type) (rng : Rng C) (turns : ℕ) (callbacksBound : Bool) (plan : List ℕ) (ctx : C),
    a.maxChunks ≤ plan.length →
      ∀ p ∈ (t3SplitPlan rng a turns callbacksBound plan ctx).state.draws, Samples p.1 p.2

/-- **Where the sampler can draw.**  A padding frame always has a range that fits; a plan has
exactly where the first bounds are not too far apart. -/
theorem t3SplitPlan_samples_iff (a : SplitArgs) (callbacksBound : Bool) (minLen maxLen : ℕ) :
    ((∀ (C : Type) (rng : Rng C) (turns : ℕ) (ctx : C),
        t3PaddingGenerate rng callbacksBound minLen maxLen turns ctx = some (.error .invalidArg)) ∨
      Samples minLen maxLen) ∧
      (a.SamplesAll ↔ (a.Passes → a.RangeFits)) := by
  constructor
  · by_cases hargs : callbacksBound = false ∨ minLen < 1 ∨ maxLen < minLen ∨ maxLen > 65535
    · refine Or.inl fun C rng turns ctx => ?_
      unfold t3PaddingGenerate
      rcases hargs with hbound | hargs
      · rw [if_pos hbound]
      · rw [if_pos hargs, ite_self]
    · exact Or.inr (samples_of_fits (by omega) (by omega) (by omega) (by omega))
  · constructor
    · intro hall hpass
      by_contra hwide
      obtain ⟨s, hs, hi, hbig, hle, hdraws, hrun⟩ :=
        exists_wide_draw (List.replicate a.maxChunks 0) hpass hwide 0
      have hlt : s.i < a.maxChunks := by
        have hpos := hpass.maxChunks_pos
        omega
      -- No word has been drawn yet: the call waits in its first draw.
      have hstep := splitChunk_step queueRng 0 hs hlt
      generalize ht : splitChunk queueRng a 0 s = t at hstep
      cases hstep with
      | dead hcross => omega
      | waiting _ _ hdrawn =>
        have hmem : a.bounds s ∈ (t3SplitPlan queueRng a 0 true (List.replicate a.maxChunks 0)
            (oddCoin a a.totalLen)).state.draws := by
          rw [hrun _ ht, hdrawn]
          exact List.mem_append_right _ List.mem_cons_self
        have hfits := (hall _ queueRng 0 true _ _ (by simp) _ hmem).fits
        omega
      | failed _ hfail => exact queueRng_neverFails _ _ hfail
      | cut _ hdraw => simp [t3RngRange] at hdraw
    · intro hfits C rng turns callbacksBound plan ctx hplan
      by_cases hpass : callbacksBound = true ∧ a.Passes
      · obtain ⟨rfl, hpass⟩ := hpass
        exact t3SplitPlan_draws rng turns ctx hpass (hfits hpass) hplan
      · rw [(t3SplitPlan_of_not_passes rng turns hpass plan ctx).1]
        exact fun p hp => absurd hp List.not_mem_nil

/-- Up to four chunks of up to `2 ^ 33` for a length of `2 ^ 34`. -/
def wideArgs : SplitArgs where
  totalLen := 2 ^ 34
  minChunk := 1
  maxChunk := 2 ^ 33
  maxChunks := 4
  totalLen_lt := Nat.le_of_ble_eq_true rfl
  minChunk_lt := Nat.le_of_ble_eq_true rfl
  maxChunk_lt := Nat.le_of_ble_eq_true rfl
  maxChunks_lt := Nat.le_of_ble_eq_true rfl

/-- The first of them is drawn from a range without a word to accept. -/
theorem t3SplitPlan_wide_range : ¬ wideArgs.SamplesAll ∧ rngCutoff 1 (2 ^ 33) = 0 := by
  refine ⟨fun hall => ?_, rfl⟩
  have hdraws : (t3SplitPlan queueRng wideArgs 0 true [0, 0, 0, 0] []).state.draws =
      [(1, 2 ^ 33)] := by decide +kernel
  have hfits := (hall _ queueRng 0 true [0, 0, 0, 0] [] le_rfl (1, 2 ^ 33)
    (hdraws ▸ List.mem_singleton_self _)).fits
  omega

/-! ### Completeness -/

/-- A partition of the length within the bounds. -/
def SplitArgs.HasPartition (a : SplitArgs) : Prop :=
  ∃ parts : List ℕ, parts.length ≤ a.maxChunks ∧ parts.sum = a.totalLen ∧
    ∀ c ∈ parts, a.minChunk ≤ c ∧ c ≤ a.maxChunk

/-- **What completeness says of a call**: as long as the generator does not fail there is no result
but success, and there is one where the generator settles. -/
def SplitArgs.Completes (a : SplitArgs) : Prop :=
  ∀ (C : Type) (rng : Rng C) (plan : List ℕ) (ctx : C), a.maxChunks ≤ plan.length →
    NeverFails rng →
      (∀ turns, (t3SplitPlan rng a turns true plan ctx).result = none ∨
        (t3SplitPlan rng a turns true plan ctx).result = some .ok) ∧
      (Settles rng → ∃ turns, (t3SplitPlan rng a turns true plan ctx).result = some .ok)

/-- **Where no choice of chunks fails**: the arguments are not refused, the ranges fit, twice the
minimum is a `size_t`, and the length is safe. -/
structure SplitArgs.NeverStuck (a : SplitArgs) : Prop where
  minChunk_pos : 1 ≤ a.minChunk
  totalLen_pos : 1 ≤ a.totalLen
  fits : a.maxChunks = 1 ∨
    a.minChunk < 2 ^ 63 ∧ cutSlack a.minChunk a.maxChunk a.maxChunks a.totalLen + 1 < 2 ^ 32
  safe : IsSafe a.minChunk a.maxChunk a.maxChunks a.totalLen

/-- A partition passes the checks, where the minimum and the length are not zero. -/
theorem SplitArgs.HasPartition.passes {a : SplitArgs} (h : a.HasPartition)
    (hmin : 1 ≤ a.minChunk) (htotal : 1 ≤ a.totalLen) : a.Passes := by
  obtain ⟨parts, hlen, hsum, hall⟩ := h
  cases parts with
  | nil => simp at hsum; omega
  | cons c parts =>
    obtain ⟨hcm, hcM⟩ := hall c List.mem_cons_self
    have hle : (c :: parts).sum ≤ (c :: parts).length * a.maxChunk :=
      List.sum_le_card_nsmul _ _ fun b hb => (hall b hb).2
    have hmul := Nat.mul_le_mul_right a.maxChunk hlen
    rw [List.sum_cons] at hsum
    rw [List.length_cons] at hlen
    refine ⟨hmin, hcm.trans hcM, by omega, by omega, ?_⟩
    rw [List.sum_cons] at hle
    omega

/-! #### No choice fails -/

section Safe

variable {C : Type} {rng : Rng C} {a : SplitArgs} {plan : List ℕ}

/-- What is kept with so many slots left, where no choice fails. -/
structure Going (a : SplitArgs) (plan : List ℕ) (n : ℕ) (s : SplitState C) : Prop where
  drawing : Drawing a plan n s
  half : n ≤ 1 ∨ a.minChunk < 2 ^ 63
  safe : Safe a.minChunk a.maxChunk n s.remLen

namespace Going

variable {n : ℕ} {s : SplitState C}

/-- **Where the plan goes on the bounds do not cross**, and what any chunk leaves is safe. -/
theorem cuts (h : Going a plan (n + 1) s) (hmust : ¬ a.MustFinish s) :
    (a.bounds s).1 ≤ (a.bounds s).2 ∧
      ∀ c, (a.bounds s).1 ≤ c → c ≤ (a.bounds s).2 →
        Safe a.minChunk a.maxChunk n (s.remLen - c) := by
  have hn := h.drawing.pos_of_not_mustFinish hmust
  have hslots := h.drawing.slots
  have hhalf := h.half.resolve_left (by omega)
  have hmul : mulSize 2 a.minChunk = 2 * a.minChunk := Nat.mod_eq_of_lt (by omega)
  rw [h.drawing.bounds_eq.1]
  refine h.safe.resolve_left fun hlast => hmust ⟨hlast.1, Or.inr ?_⟩
  have hshort := hlast.2.resolve_left (by omega)
  omega

/-- The first lines of a turn. -/
theorem begin (h : Going a plan (n + 1) s) (ctx : C) :
    Going a plan (n + 1) { s.begin a with ctx := ctx } :=
  ⟨⟨(h.drawing.planned.begin h.drawing.lt).withCtx ctx, h.drawing.slots, h.drawing.slack⟩, h.half,
    h.safe⟩

/-- What a chunk leaves. -/
theorem next {turns : ℕ} {t : Turn (SplitState C) (SplitRun C)} {s' : SplitState C}
    (h : Going a plan (n + 1) s) (hmust : ¬ a.MustFinish s) (hplan : a.maxChunks ≤ plan.length)
    (hstep : ChunkStep rng a turns s t) (ht : t = .again s') : Going a plan n s' := by
  have hn := h.drawing.pos_of_not_mustFinish hmust
  obtain ⟨-, -, -, c, hlc, hch, hrem⟩ := hstep.again h.drawing.planned h.drawing.lt hplan ht
  refine ⟨h.drawing.next hplan hn hstep ht, Or.inr (h.half.resolve_left (by omega)), ?_⟩
  rw [hrem]
  exact (h.cuts hmust).2 c hlc hch

/-- **A turn from a safe length** comes to no result but success, and leaves a safe length. -/
theorem turn (h : Going a plan (n + 1) s) (turns : ℕ) (hplan : a.maxChunks ≤ plan.length)
    (hnever : NeverFails rng) :
    (∀ s', splitTurn rng a turns s = .again s' → Going a plan n s') ∧
      ∀ run, splitTurn rng a turns s = .done run → run.result = none ∨ run.result = some .ok := by
  rcases splitTurn_cases rng h.drawing.lt with ⟨-, ctx, heq⟩ | ⟨hfail, -⟩ | ⟨hmust, ctx, heq⟩
  · rw [heq]
    refine ⟨fun s' h' => by simp at h', fun run hrun => ?_⟩
    rw [← Turn.done.inj hrun]
    exact Or.inr rfl
  · exact absurd hfail (hnever _ _)
  · have hbegin := h.begin ctx
    have hstep := splitChunk_step rng turns hbegin.drawing.planned hbegin.drawing.lt
    rw [heq]
    refine ⟨fun s' h' => hbegin.next hmust hplan hstep h', fun run hrun => ?_⟩
    rw [hrun] at hstep
    cases hstep with
    | dead hcross => exact absurd (hbegin.cuts hmust).1 (not_le.mpr hcross)
    | waiting => exact Or.inl rfl
    | failed _ hfail => exact absurd hfail (hnever _ _)

/-- **From a safe length the loop completes the plan**, where the generator settles, for every
number of turns that is large enough. -/
theorem ends (h : Going a plan n s) (hpass : a.Passes) (hplan : a.maxChunks ≤ plan.length)
    (hnever : NeverFails rng) (hsettles : Settles rng) :
    ∃ turns₀, ∀ turns, turns₀ ≤ turns →
      ∃ run, loopFor (splitTurn rng a turns) n s = .done run ∧ run.result = some .ok := by
  induction n generalizing s with
  | zero => exact absurd h.safe (by simp [Safe])
  | succ n ih =>
    rcases splitTurn_cases rng h.drawing.lt with ⟨-, ctx, heq⟩ | ⟨hfail, -⟩ | ⟨hmust, ctx, heq⟩
    · exact ⟨0, fun turns _ => ⟨_, loopFor_of_done (heq turns) n, rfl⟩⟩
    · exact absurd hfail (hnever _ _)
    · have hbegin := h.begin ctx
      have hmust' : ¬ a.MustFinish { s.begin a with ctx := ctx } := hmust
      generalize { s.begin a with ctx := ctx } = b at hbegin heq hmust'
      have hle := (hbegin.cuts hmust').1
      have hfits := hbegin.drawing.samples hpass (h.drawing.pos_of_not_mustFinish hmust) hle
      obtain ⟨turns₁, p, hdraw⟩ :=
        t3RngRange_ends (hsettles b.ctx _ (cutoff_half (Nat.le_add_left 1 _) hfits.fits))
      -- From that many turns on the same chunk is drawn, and the rest of the loop follows.
      have hcut (turns : ℕ) (hturns : turns₁ ≤ turns) := splitChunk_of_draw hbegin.drawing.planned
        hbegin.drawing.lt hle (hdraw turns hturns)
      have hnext := hbegin.next hmust' hplan
        (splitChunk_step rng turns₁ hbegin.drawing.planned hbegin.drawing.lt) (hcut turns₁ le_rfl)
      obtain ⟨turns₂, hrest⟩ := ih hnext
      refine ⟨max turns₁ turns₂, fun turns hturns => ?_⟩
      have hagain := (heq turns).trans (hcut turns ((le_max_left _ _).trans hturns))
      rw [loopFor_of_again hagain]
      exact hrest turns ((le_max_right _ _).trans hturns)

end Going

/-- **No choice of chunks fails where the length is safe.** -/
theorem SplitArgs.NeverStuck.completes (h : a.NeverStuck) (hpart : a.HasPartition) :
    a.Completes := by
  have hpass := hpart.passes h.minChunk_pos h.totalLen_pos
  intro C rng plan ctx hplan hnever
  have hstart : Going a plan a.maxChunks (⟨0, a.totalLen, plan, ctx, [], []⟩ : SplitState C) := by
    refine ⟨⟨planned_start hpass plan ctx, Nat.zero_add _, ?_⟩, ?_, ?_⟩
    · exact h.fits.imp le_of_eq And.right
    · exact h.fits.imp le_of_eq And.left
    · exact (safe_iff hpass.minChunk_pos hpass.minChunk_le hpass.le_totalLen
        hpass.totalLen_le).mpr h.safe
  constructor
  · intro turns
    obtain ⟨hagain, hdone⟩ := loopFor_inv_left
      (J := Going a plan) (Q := fun run : SplitRun C => run.result = none ∨ run.result = some .ok)
      (fun n s s' hJ => (hJ.turn turns hplan hnever).1 s')
      (fun n s run hJ => (hJ.turn turns hplan hnever).2 run) hstart
    rw [t3SplitPlan_of_passes hpass]
    cases hloop : loopFor (splitTurn rng a turns) a.maxChunks
        ⟨0, a.totalLen, plan, ctx, [], []⟩ with
    | done run => exact hdone run hloop
    | again s => exact absurd (hagain s hloop).safe (by simp [Safe])
  · intro hsettles
    obtain ⟨turns, hends⟩ := hstart.ends hpass hplan hnever hsettles
    obtain ⟨run, hloop, hok⟩ := hends turns le_rfl
    refine ⟨turns, ?_⟩
    rw [t3SplitPlan_of_passes hpass, hloop]
    exact hok

end Safe

/-! #### The answers that lead into a dead end -/

section Stuck

variable {a : SplitArgs} {plan : List ℕ}

/-- **A word that draws a given length.** -/
theorem t3RngRange_queue {lo hi c : ℕ} (hlc : lo ≤ c) (hch : c ≤ hi) (hfits : hi - lo + 1 < 2 ^ 32)
    (q : List Bytes) :
    t3RngRange queueRng lo hi 1 (le32 (c - lo) :: q) = .done (.ok (c, q)) := by
  have hfill : queueRng.fill (le32 (c - lo) :: q) 4 = some (le32 (c - lo), q) := rfl
  have hread : readLe32 (le32 (c - lo)) = c - lo := by
    have happ := readLe32_le32_append (c - lo) (by omega) []
    rwa [List.append_nil] at happ
  have hone : 1 ≤ (2 ^ 32 - 1) / (hi - lo + 1) := Nat.div_pos (by omega) (Nat.succ_pos _)
  have hcutoff := Nat.le_mul_of_pos_left (hi - lo + 1) hone
  have hlow : readLe32 (le32 (c - lo)) < (2 ^ 32 - 1) / (hi - lo + 1) * (hi - lo + 1) := by
    omega
  have hturn := t3RngTurn_low lo hfill hlow
  rw [hread, Nat.mod_eq_of_lt (by omega), Nat.add_sub_cancel' hlc] at hturn
  exact loopFor_of_done hturn 0

/-- **From a length that is not safe some answers lead into a dead end.** -/
theorem exists_dead_end (hpass : a.Passes) (hhalf : a.minChunk < 2 ^ 63)
    (hplan : a.maxChunks ≤ plan.length) {n : ℕ} {s : SplitState (List Bytes)}
    (h : Drawing a plan n s) (hstuck : ¬ Safe a.minChunk a.maxChunk n s.remLen) :
    ∃ q t, loopFor (splitTurn queueRng a 1) n { s with ctx := q } =
      .done ⟨some .internal, none, t⟩ := by
  induction n generalizing s with
  | zero =>
    have hslots := h.slots
    have hge := h.planned.rem_ge
    have hle := h.planned.rem_le
    have hpos := hpass.minChunk_pos
    rw [show a.maxChunks - s.i = 0 by omega, Nat.zero_mul] at hle
    omega
  | succ n ih =>
    obtain ⟨hlast, hcuts⟩ := not_or.mp hstuck
    have hmul : mulSize 2 a.minChunk = 2 * a.minChunk := Nat.mod_eq_of_lt (by omega)
    have hslots := h.slots
    have hmust : ¬ a.MustFinish s := by
      rintro ⟨hone, hend⟩
      rw [hmul] at hend
      exact hlast ⟨hone, hend.imp (by omega) id⟩
    have hn := h.pos_of_not_mustFinish hmust
    have hlow : cutLow a.minChunk a.maxChunk n s.remLen = (a.bounds s).1 := by
      rw [h.bounds_eq.1]
    have hhigh : cutHigh a.minChunk a.maxChunk s.remLen = (a.bounds s).2 := rfl
    rw [hlow, hhigh] at hcuts
    have hbegin (q : List Bytes) : Drawing a plan (n + 1) { s.begin a with ctx := q } :=
      ⟨(h.planned.begin h.lt).withCtx q, h.slots, h.slack⟩
    have hturn (q : List Bytes) :=
      splitTurn_queue (s := { s with ctx := oddCoin a s.remLen ++ q }) 1 q h.lt hmust rfl
    by_cases hle : (a.bounds s).1 ≤ (a.bounds s).2
    · -- One of the chunks leaves what is not safe, and the answers for it follow.
      obtain ⟨c, hlc, hch, hbad⟩ : ∃ c, (a.bounds s).1 ≤ c ∧ c ≤ (a.bounds s).2 ∧
          ¬ Safe a.minChunk a.maxChunk n (s.remLen - c) := by
        by_contra hno
        push Not at hno
        exact hcuts ⟨hle, hno⟩
      have hfits := (h.samples hpass hn hle).fits
      have hcut (q : List Bytes) :=
        splitChunk_of_draw (hbegin (le32 (c - (a.bounds s).1) :: q)).planned h.lt hle
          (t3RngRange_queue hlc hch hfits q)
      have hnext := (hbegin _).next hplan hn (splitChunk_step queueRng 1 (hbegin _).planned h.lt)
        (hcut [])
      have hc : c ≤ s.remLen := hch.trans ((min_le_right _ _).trans (Nat.sub_le _ _))
      have hrem : subSize s.remLen c = s.remLen - c := subSize_eq hc h.planned.rem_lt
      obtain ⟨q, t, hloop⟩ := ih hnext (by
        rw [← hrem] at hbad
        exact hbad)
      refine ⟨oddCoin a s.remLen ++ le32 (c - (a.bounds s).1) :: q, t, ?_⟩
      rw [loopFor_of_again ((hturn _).trans (hcut q))]
      exact hloop
    · have hstep := splitChunk_step queueRng 1 (hbegin []).planned h.lt
      refine ⟨oddCoin a s.remLen ++ [], ?_⟩
      generalize ht : splitChunk queueRng a 1 { s.begin a with ctx := [] } = t at hstep
      cases hstep with
      | @dead t => exact ⟨t, loopFor_of_done ((hturn []).trans ht) n⟩
      | waiting hle' => exact absurd hle' hle
      | failed hle' => exact absurd hle' hle
      | cut hle' => exact absurd hle' hle

/-- Answers that end a call with the error make the plan incomplete. -/
theorem not_completes_of_internal (turns : ℕ) (q : List Bytes) (hplan : a.maxChunks ≤ plan.length)
    (h : (t3SplitPlan queueRng a turns true plan q).result = some .internal) : ¬ a.Completes := by
  intro hall
  have hres := (hall _ queueRng plan q hplan queueRng_neverFails).1 turns
  rw [h] at hres
  simp at hres

/-- Where twice the minimum is no `size_t`, an odd coin ends the call with the error. -/
theorem not_completes_of_half (hpass : a.Passes) (hslots : a.maxChunks ≠ 1)
    (hbig : 2 ^ 63 ≤ a.minChunk) : ¬ a.Completes := by
  have hlt := a.minChunk_lt
  have htotal := a.totalLen_lt
  have hpos := hpass.maxChunks_pos
  have hle := hpass.le_totalLen
  have hwrap : mulSize 2 a.minChunk ≤ a.totalLen := by
    unfold mulSize
    omega
  obtain ⟨s, hs, hi, hrem, -, -, hrun⟩ :=
    t3SplitPlan_queue (List.replicate a.maxChunks 0) 0 [] hpass hslots fun _ => hwrap
  obtain ⟨n, hn⟩ : ∃ n, a.maxChunks = n + 1 + 1 := ⟨a.maxChunks - 2, by omega⟩
  obtain ⟨hbounds, hcover⟩ := hs.bounds_eq (n := n + 1) (by omega)
  have hcut := mt (cutLow_le_cutHigh hpass.minChunk_le (Nat.le_add_left 1 n) hcover).mp (by omega)
  have hcross : ¬ (a.bounds s).1 ≤ (a.bounds s).2 := by
    rw [hbounds]
    exact hcut
  have hstep := splitChunk_step queueRng 0 hs (by omega)
  generalize ht : splitChunk queueRng a 0 s = t at hstep
  cases hstep with
  | dead =>
    have hplan : a.maxChunks ≤ (List.replicate a.maxChunks 0).length := by simp
    refine not_completes_of_internal 0 (oddCoin a a.totalLen ++ []) hplan ?_
    rw [hrun _ ht]
  | waiting hle' => exact absurd hle' hcross
  | failed hle' => exact absurd hle' hcross
  | cut hle' => exact absurd hle' hcross

/-- Where the first range does not fit, the call never returns from its draw. -/
theorem not_completes_of_wide (hpass : a.Passes) (hwide : ¬ a.RangeFits) : ¬ a.Completes := by
  intro hall
  obtain ⟨turns, hok⟩ := (hall _ queueRng (List.replicate a.maxChunks 0) (oddCoin a a.totalLen)
    (by simp) queueRng_neverFails).2 queueRng_settles
  obtain ⟨s, hs, hi, hbig, hle, -, hrun⟩ :=
    exists_wide_draw (List.replicate a.maxChunks 0) hpass hwide turns
  have hpos := hpass.maxChunks_pos
  have hstep := splitChunk_step queueRng turns hs (by omega)
  generalize ht : splitChunk queueRng a turns s = t at hstep
  cases hstep with
  | dead hcross => omega
  | waiting =>
    rw [hrun _ ht] at hok
    simp at hok
  | failed _ hfail => exact queueRng_neverFails _ _ hfail
  | cut _ hdraw => exact t3RngRange_spins hbig turns _ _ hdraw

/-- Where the length is not safe, some answers end the call with the error. -/
theorem not_completes_of_unsafe (hpass : a.Passes) (hfits : a.RangeFits)
    (hhalf : a.minChunk < 2 ^ 63)
    (hstuck : ¬ IsSafe a.minChunk a.maxChunk a.maxChunks a.totalLen) : ¬ a.Completes := by
  have hstart : Drawing a (List.replicate a.maxChunks 0) a.maxChunks
      (⟨0, a.totalLen, List.replicate a.maxChunks 0, [], [], []⟩ : SplitState (List Bytes)) :=
    ⟨planned_start hpass _ _, Nat.zero_add _, hfits.imp_left le_of_eq⟩
  have hno := mt (safe_iff hpass.minChunk_pos hpass.minChunk_le hpass.le_totalLen
    hpass.totalLen_le).mp hstuck
  obtain ⟨q, t, hloop⟩ := exists_dead_end hpass hhalf (by simp) hstart hno
  have hplan : a.maxChunks ≤ (List.replicate a.maxChunks 0).length := by simp
  refine not_completes_of_internal 1 q hplan ?_
  rw [t3SplitPlan_of_passes hpass, hloop]

/-- **Where a plan completes.**  Where there is a partition at all, no choice of the generator runs
into a dead end, and each call returns, exactly where the length is safe and the ranges fit. -/
theorem t3SplitPlan_complete_iff (a : SplitArgs) (h : a.HasPartition) :
    a.Completes ↔ a.NeverStuck := by
  refine ⟨fun hall => ?_, fun hnever => hnever.completes h⟩
  have hpass : a.Passes := by
    by_contra hno
    have hres := (hall _ queueRng (List.replicate a.maxChunks 0) [] (by simp)
      queueRng_neverFails).1 0
    obtain ⟨-, hnone, hok⟩ := t3SplitPlan_of_not_passes queueRng 0
      (fun hpass => hno hpass.2) (List.replicate a.maxChunks 0) []
    exact hres.elim hnone hok
  have hfits : a.RangeFits := by
    by_contra hwide
    exact not_completes_of_wide hpass hwide hall
  have hhalf : a.maxChunks = 1 ∨ a.minChunk < 2 ^ 63 := by
    by_contra hno
    obtain ⟨hslots, hbig⟩ := not_or.mp hno
    exact not_completes_of_half hpass hslots (not_lt.mp hbig) hall
  refine ⟨hpass.minChunk_pos, hpass.minChunk_pos.trans hpass.le_totalLen, ?_, ?_⟩
  · rcases hhalf with hone | hhalf
    · exact Or.inl hone
    · exact hfits.imp_right fun hslack => ⟨hhalf, hslack⟩
  · rcases hhalf with hone | hhalf
    · have hle := hpass.totalLen_le
      rw [hone, Nat.one_mul] at hle
      exact Or.inr (Or.inl hle)
    · by_contra hstuck
      exact not_completes_of_unsafe hpass hfits hhalf hstuck hall

/-- `tightArgs` have a partition. -/
theorem tightArgs_hasPartition : tightArgs.HasPartition := ⟨[11, 12], by decide⟩

theorem t3SplitPlan_complete_iff_tight : tightArgs.Completes ↔ tightArgs.NeverStuck :=
  t3SplitPlan_complete_iff tightArgs tightArgs_hasPartition

/-- A first chunk of 10 leaves 13, which is too long for one chunk and too short for two. -/
theorem t3SplitPlan_dead_end : tightArgs.HasPartition ∧ ¬ tightArgs.Completes := by
  have hplan : tightArgs.maxChunks ≤ [0, 0, 0, 0, 0].length := le_rfl
  exact ⟨tightArgs_hasPartition, not_completes_of_internal 1 [] hplan rfl⟩

end Stuck

end Client
end Teleproto3
