/-
# The samplers in fixed width

`t3_timing_rejection_sample_uniform_ns` of `lib/src/t3_timing.c` and `t3__rng_range` of
`lib/src/t3_padding.c`, in the arithmetic of `uint64_t`, `size_t` and `uint32_t`: the size of the
range and the cutoff may wrap around, and where the size has come to zero the division by it is a
fault.

Both are the loop of `Lib.Rejection` at a cutoff that prefers no value, for every range whose size
fits.  `t3__rng_range` asks its callers for that; the other takes any two bounds in order, and of
these the range of all words is the one whose size wraps around to zero (`t3Samplers_exact_iff`).
-/

import Teleproto3.Client.SplitPlan
import Teleproto3.Client.Timing

namespace Teleproto3
namespace Client

open Lib Wire

/-! ### The samplers -/

/-- How a sampler is left without a value. -/
inductive SamplerExit (ε : Type*)
  | returned (e : ε)
  | dividesByZero

section Samplers

variable {C : Type*} (rng : Rng C)

/-- A word of 64 bits. -/
def drawLe64 (ctx : C) : Option (ℕ × C) := (rng.fill ctx 8).map fun p => (readLe64 p.1, p.2)

/-- A word of 32 bits. -/
def drawLe32 (ctx : C) : Option (ℕ × C) := (rng.fill ctx 4).map fun p => (readLe32 p.1, p.2)

/-- What a word stands for, in the arithmetic of 64 bits. -/
def sampleValue (lo range cutoff r : ℕ) : Option ℕ :=
  if r ≥ cutoff then none else some ((lo + r % range) % 2 ^ 64)

/-- `bucket_count * range` of `t3_timing_rejection_sample_uniform_ns`, before it is stored. -/
def timingProduct (loNs hiNs : ℕ) : ℕ :=
  let bucketCount := (2 ^ 64 - 1) / rngRangeSize loNs hiNs
  bucketCount * rngRangeSize loNs hiNs

/-- What a word stands for in `t3_timing_rejection_sample_uniform_ns`. -/
def timingValue (loNs hiNs r : ℕ) : Option ℕ :=
  sampleValue loNs (rngRangeSize loNs hiNs) (timingProduct loNs hiNs % 2 ^ 64) r

/-- `t3_timing_rejection_sample_uniform_ns`, behind the tests of its pointers. -/
def t3TimingRejectionSampleU64 (loNs hiNs turns : ℕ) (ctx : C) :
    Turn C (Except (SamplerExit ℤ) (ℕ × C)) :=
  if hiNs < loNs then .done (.error (.returned (-1)))
  else if rngRangeSize loNs hiNs = 0 then .done (.error .dividesByZero)
  else loopFor (rejectTurn (drawLe64 rng) (timingValue loNs hiNs) (.returned (-2))) turns ctx

/-- `bucket_count * (uint32_t)range` of `t3__rng_range`, before it is stored. -/
def rngProduct (lo hi : ℕ) : ℕ :=
  let bucketCount := (2 ^ 32 - 1) / rngRangeSize lo hi % 2 ^ 32
  bucketCount * (rngRangeSize lo hi % 2 ^ 32)

/-- What a word stands for in `t3__rng_range`. -/
def rngValue (lo hi r : ℕ) : Option ℕ :=
  sampleValue lo (rngRangeSize lo hi) (rngProduct lo hi % 2 ^ 32) r

/-- `t3__rng_range`. -/
def t3RngRangeU32 (lo hi turns : ℕ) (ctx : C) :
    Turn C (Except (SamplerExit T3Result) (ℕ × C)) :=
  if rngRangeSize lo hi = 0 then .done (.error .dividesByZero)
  else loopFor (rejectTurn (drawLe32 rng) (rngValue lo hi) (.returned .rng)) turns ctx

end Samplers

/-! ### What is promised -/

/-- **A sampler is exact**: it divides by no zero, its product does not wrap around, its result is
what a word that was drawn stands for and lies in the range, it returns on every stream that yields
an accepted word, and it prefers no value. -/
structure SamplesExactly {ε : Type} (N lo hi product : ℕ) (value : ℕ → Option ℕ)
    (draw : ∀ {C : Type}, Rng C → C → Option (ℕ × C))
    (sample : ∀ {C : Type}, Rng C → ℕ → C → Turn C (Except (SamplerExit ε) (ℕ × C))) : Prop where
  divides : ∀ {C : Type} (rng : Rng C) (turns : ℕ) (ctx : C),
    sample rng turns ctx ≠ .done (.error .dividesByZero)
  product_lt : product < N
  drawn : ∀ {C : Type} (rng : Rng C) (turns : ℕ) (ctx : C) (p : ℕ × C),
    sample rng turns ctx = .done (.ok p) →
      ∃ ctx' r, draw rng ctx' = some (r, p.2) ∧ value r = some p.1
  within : ∀ {C : Type} (rng : Rng C) (turns : ℕ) (ctx : C) (p : ℕ × C),
    sample rng turns ctx = .done (.ok p) → lo ≤ p.1 ∧ p.1 ≤ hi
  ends : ∀ {C : Type} (rng : Rng C) (ctx : C), Yields (draw rng) value ctx →
    ∃ turns p, sample rng turns ctx = .done (.ok p)
  exact : ExactOn N lo hi value

/-- `t3_timing_rejection_sample_uniform_ns` is exact between two bounds. -/
def TimingExact (loNs hiNs : ℕ) : Prop :=
  SamplesExactly (2 ^ 64) loNs hiNs (timingProduct loNs hiNs) (timingValue loNs hiNs) drawLe64
    fun rng => t3TimingRejectionSampleU64 rng loNs hiNs

/-- `t3__rng_range` is exact between two bounds. -/
def RngExact (lo hi : ℕ) : Prop :=
  SamplesExactly (2 ^ 32) lo hi (rngProduct lo hi) (rngValue lo hi) drawLe32
    fun rng => t3RngRangeU32 rng lo hi

/-! ### The loop at a cutoff that fits -/

/-- **The loop is exact** where the range fits and neither it, nor the cutoff, nor a value wraps
around. -/
theorem samplesExactly_of_loop {ε : Type} (max : ℕ) {lo range product : ℕ} {value : ℕ → Option ℕ}
    (draw : ∀ {C : Type}, Rng C → C → Option (ℕ × C))
    (sample : ∀ {C : Type}, Rng C → ℕ → C → Turn C (Except (SamplerExit ε) (ℕ × C))) (failed : ε)
    (hpos : 0 < range) (hle : range ≤ max) (hproduct : product = max / range * range)
    (hvalue : value = wordValue lo range (max / range * range))
    (hdraw : ∀ {C : Type} {rng : Rng C} {ctx ctx' : C} {r : ℕ},
      draw rng ctx = some (r, ctx') → r < max + 1)
    (hsample : ∀ {C : Type} (rng : Rng C) (turns : ℕ) (ctx : C), sample rng turns ctx =
      loopFor (rejectTurn (draw rng) value (.returned failed)) turns ctx) :
    SamplesExactly (max + 1) lo (lo + range - 1) product value draw sample := by
  have hexact : ExactOn (max + 1) lo (lo + range - 1) value := by
    rw [hvalue]
    exact exactOn_wordValue lo hpos hle
  have hdrawn {C : Type} (rng : Rng C) (turns : ℕ) (ctx : C) (p : ℕ × C)
      (h : sample rng turns ctx = .done (.ok p)) :
      ∃ ctx' r, draw rng ctx' = some (r, p.2) ∧ value r = some p.1 := by
    rw [hsample] at h
    rcases rejectFor_done h with hfailed | ⟨v, ctx', ctx'', r, hp, hr, hv⟩
    · cases hfailed
    · obtain rfl := Except.ok.inj hp
      exact ⟨ctx', r, hr, hv⟩
  refine ⟨fun rng turns ctx h => ?_, ?_, hdrawn, fun rng turns ctx p h => ?_, fun rng ctx h => ?_,
    hexact⟩
  · rw [hsample] at h
    rcases rejectFor_done h with hfailed | ⟨v, ctx', ctx'', r, hp, -⟩
    · cases hfailed
    · cases hp
  · rw [hproduct]
    exact Nat.lt_succ_of_le (Nat.div_mul_le_self max range)
  · obtain ⟨ctx', r, hr, hv⟩ := hdrawn rng turns ctx p h
    exact hexact.within r (hdraw hr) p.1 hv
  · obtain ⟨turns, p, hp⟩ := rejectFor_ends (SamplerExit.returned failed) h
    exact ⟨turns, p, (hsample rng turns ctx).trans hp⟩

theorem readLe64_lt (bs : Bytes) : readLe64 bs < 2 ^ 64 := by
  have hlow := readLe32_lt bs
  have hhigh := readLe32_lt (bs.drop 4)
  unfold readLe64
  omega

theorem drawLe64_lt {C : Type} {rng : Rng C} {ctx ctx' : C} {r : ℕ}
    (h : drawLe64 rng ctx = some (r, ctx')) : r < 2 ^ 64 := by
  obtain ⟨p, -, hp⟩ := Option.map_eq_some_iff.mp h
  rw [← (Prod.mk.inj hp).1]
  exact readLe64_lt p.1

theorem drawLe32_lt {C : Type} {rng : Rng C} {ctx ctx' : C} {r : ℕ}
    (h : drawLe32 rng ctx = some (r, ctx')) : r < 2 ^ 32 := by
  obtain ⟨p, -, hp⟩ := Option.map_eq_some_iff.mp h
  rw [← (Prod.mk.inj hp).1]
  exact readLe32_lt p.1

section Bounds

variable {lo hi : ℕ}

/-- The size of a range, unless it is that of all words. -/
theorem rngRangeSize_of_lt (hle : lo ≤ hi) (hhi : hi < 2 ^ 64) (hlt : hi - lo + 1 < 2 ^ 64) :
    rngRangeSize lo hi = hi - lo + 1 := by
  rw [rngRangeSize, subSize_eq hle hhi, Nat.mod_eq_of_lt hlt]

/-- That of all words is zero. -/
theorem rngRangeSize_all : rngRangeSize 0 (2 ^ 64 - 1) = 0 := by decide

/-- A value does not wrap around. -/
theorem sampleValue_eq {range : ℕ} (cutoff : ℕ) (hpos : 0 < range) (hfits : lo + range ≤ 2 ^ 64) :
    sampleValue lo range cutoff = wordValue lo range cutoff := by
  funext r
  have hmod := Nat.mod_lt r hpos
  unfold sampleValue wordValue
  rw [Nat.mod_eq_of_lt (by omega)]

theorem timingProduct_eq (hle : lo ≤ hi) (hhi : hi < 2 ^ 64) (hlt : hi - lo + 1 < 2 ^ 64) :
    timingProduct lo hi = (2 ^ 64 - 1) / (hi - lo + 1) * (hi - lo + 1) := by
  unfold timingProduct
  rw [rngRangeSize_of_lt hle hhi hlt]

theorem timingValue_eq (hle : lo ≤ hi) (hhi : hi < 2 ^ 64) (hlt : hi - lo + 1 < 2 ^ 64) :
    timingValue lo hi =
      wordValue lo (hi - lo + 1) ((2 ^ 64 - 1) / (hi - lo + 1) * (hi - lo + 1)) := by
  have hbelow := Nat.div_mul_le_self (2 ^ 64 - 1) (hi - lo + 1)
  unfold timingValue
  rw [timingProduct_eq hle hhi hlt, rngRangeSize_of_lt hle hhi hlt, Nat.mod_eq_of_lt (by omega)]
  exact sampleValue_eq _ (by omega) (by omega)

/-- **The sampler of delays is exact** between any two bounds that are not the least and the
greatest word. -/
theorem timingExact_of_lt (hle : lo ≤ hi) (hhi : hi < 2 ^ 64) (hlt : hi - lo + 1 < 2 ^ 64) :
    TimingExact lo hi := by
  have hrange := rngRangeSize_of_lt hle hhi hlt
  have hloop := samplesExactly_of_loop (2 ^ 64 - 1) drawLe64
    (fun rng => t3TimingRejectionSampleU64 rng lo hi) (-2) (by omega) (by omega)
    (timingProduct_eq hle hhi hlt) (timingValue_eq hle hhi hlt) drawLe64_lt
    fun rng turns ctx => by
      unfold t3TimingRejectionSampleU64
      rw [if_neg (not_lt.mpr hle), if_neg (by omega)]
  have hlast : lo + (hi - lo + 1) - 1 = hi := by omega
  rw [hlast] at hloop
  exact hloop

theorem rngProduct_eq (hle : lo ≤ hi) (hhi : hi < 2 ^ 64) (hfits : hi - lo + 1 ≤ 2 ^ 32 - 1) :
    rngProduct lo hi = (2 ^ 32 - 1) / (hi - lo + 1) * (hi - lo + 1) := by
  have hbuckets := Nat.div_le_self (2 ^ 32 - 1) (hi - lo + 1)
  unfold rngProduct
  rw [rngRangeSize_of_lt hle hhi (by omega)]
  dsimp only
  rw [Nat.mod_eq_of_lt (by omega), Nat.mod_eq_of_lt (by omega)]

theorem rngValue_eq (hle : lo ≤ hi) (hhi : hi < 2 ^ 64) (hfits : hi - lo + 1 ≤ 2 ^ 32 - 1) :
    rngValue lo hi =
      wordValue lo (hi - lo + 1) ((2 ^ 32 - 1) / (hi - lo + 1) * (hi - lo + 1)) := by
  have hbelow := Nat.div_mul_le_self (2 ^ 32 - 1) (hi - lo + 1)
  unfold rngValue
  rw [rngProduct_eq hle hhi hfits, rngRangeSize_of_lt hle hhi (by omega),
    Nat.mod_eq_of_lt (by omega)]
  exact sampleValue_eq _ (by omega) (by omega)

/-- **The sampler of lengths is exact** between any two bounds it may be given. -/
theorem rngExact_of_fits (hle : lo ≤ hi) (hhi : hi < 2 ^ 64) (hfits : hi - lo + 1 ≤ 2 ^ 32 - 1) :
    RngExact lo hi := by
  have hrange := rngRangeSize_of_lt hle hhi (by omega)
  have hloop := samplesExactly_of_loop (2 ^ 32 - 1) drawLe32
    (fun rng => t3RngRangeU32 rng lo hi) .rng (by omega) hfits (rngProduct_eq hle hhi hfits)
    (rngValue_eq hle hhi hfits) drawLe32_lt fun rng turns ctx => by
      unfold t3RngRangeU32
      rw [if_neg (by omega)]
  have hlast : lo + (hi - lo + 1) - 1 = hi := by omega
  rw [hlast] at hloop
  exact hloop

end Bounds

/-- Between the least and the greatest word it divides by zero. -/
theorem t3TimingRejectionSampleU64_all {C : Type*} (rng : Rng C) (turns : ℕ) (ctx : C) :
    t3TimingRejectionSampleU64 rng 0 (2 ^ 64 - 1) turns ctx = .done (.error .dividesByZero) := by
  unfold t3TimingRejectionSampleU64
  rw [if_neg (by decide), if_pos rngRangeSize_all]

/-- **Both samplers are exact** between any two bounds in order, but for the one that takes a range
of all words: `t3__rng_range` says what ranges it takes. -/
theorem t3Samplers_exact_iff {lo hi : ℕ} (hle : lo ≤ hi) (hhi : hi < 2 ^ 64) :
    (TimingExact lo hi ↔ ¬ (lo = 0 ∧ hi = 2 ^ 64 - 1)) ∧
      (hi - lo + 1 ≤ 2 ^ 32 - 1 → RngExact lo hi) := by
  refine ⟨⟨?_, fun hall => ?_⟩, rngExact_of_fits hle hhi⟩
  · rintro h ⟨rfl, rfl⟩
    exact h.divides queueRng 0 [] (t3TimingRejectionSampleU64_all queueRng 0 [])
  · exact timingExact_of_lt hle hhi (by omega)

/-- The least range of the one, and the greatest that the other may be given. -/
theorem t3Samplers_exact_sample :
    TimingExact 7 7 ∧ RngExact 1 (2 ^ 32 - 1) :=
  ⟨(t3Samplers_exact_iff (le_refl 7) (by decide)).1.mpr (by decide),
    (t3Samplers_exact_iff (by decide : 1 ≤ 2 ^ 32 - 1) (by decide)).2 (by decide)⟩

/-- The range of all words. -/
theorem timing_not_exact : ¬ TimingExact 0 (2 ^ 64 - 1) := by
  intro h
  exact h.divides queueRng 0 [] (t3TimingRejectionSampleU64_all queueRng 0 [])

/-! ### The samplers of the planner and of the session -/

/-- What `t3_silent_close_delay_sample_ns` makes of what it gets.  It gets no fault. -/
def timingSeen {C : Type*} : Except (SamplerExit ℤ) (ℕ × C) → Except T3Result ℕ
  | .ok (v, _) => .ok v
  | .error (.returned rc) => .error (if rc = -2 then .rng else .invalidArg)
  | .error .dividesByZero => .error .internal

/-- What the callers of `t3__rng_range` make of what they get. -/
def rngSeen {C : Type*} : Except (SamplerExit T3Result) (ℕ × C) → Except T3Result (ℕ × C)
  | .ok p => .ok p
  | .error (.returned e) => .error e
  | .error .dividesByZero => .error .internal

section Seen

variable {C : Type*} (rng : Rng C) {lo hi : ℕ}

/-- **But for a range of all words** the sampler of delays is that of the numbers. -/
theorem t3TimingRejectionSampleU64_seen (hhi : hi < 2 ^ 64) (hlt : hi - lo + 1 < 2 ^ 64)
    (turns : ℕ) (ctx : C) :
    t3TimingRejectionSampleUniformNs rng lo hi turns ctx =
      (t3TimingRejectionSampleU64 rng lo hi turns ctx).map id timingSeen := by
  unfold t3TimingRejectionSampleUniformNs t3TimingRejectionSampleU64
  by_cases hle : hi < lo
  · rw [if_pos hle, if_pos hle]
    rfl
  · have hrange := rngRangeSize_of_lt (not_lt.mp hle) hhi hlt
    rw [if_neg hle, if_neg hle, if_neg (by omega), timingValue_eq (not_lt.mp hle) hhi hlt]
    refine loopFor_map (g := id) (fun ctx => ?_) turns ctx
    unfold t3TimingTurn rejectTurn drawLe64 wordValue
    rw [id_eq]
    cases rng.fill ctx 8 with
    | none => rfl
    | some p =>
      dsimp only [Option.map_some]
      split_ifs <;> rfl

/-- **Where the range fits** the sampler of lengths is that of the numbers. -/
theorem t3RngRangeU32_seen (hle : lo ≤ hi) (hhi : hi < 2 ^ 64) (hfits : hi - lo + 1 ≤ 2 ^ 32 - 1)
    (turns : ℕ) (ctx : C) :
    t3RngRange rng lo hi turns ctx = (t3RngRangeU32 rng lo hi turns ctx).map id rngSeen := by
  have hrange := rngRangeSize_of_lt hle hhi (by omega)
  unfold t3RngRange t3RngRangeU32
  rw [if_neg (by omega), rngValue_eq hle hhi hfits]
  refine loopFor_map (g := id) (fun ctx => ?_) turns ctx
  unfold t3RngTurn rejectTurn drawLe32 wordValue
  rw [id_eq]
  cases rng.fill ctx 4 with
  | none => rfl
  | some p =>
    dsimp only [Option.map_some]
    split_ifs <;> rfl

end Seen

end Client
end Teleproto3
