/-
# The Type3 dispatch hook

`type3_dispatch_on_crypto_init` of `server/src/net/net-type3-dispatch.c`: what stands in
`c->in` once the transport framing has been removed is looked at for a Session Header,
and a session that is not to go on is given a timer for its silent close.

The build is one without `TELEPROTO3_BENCH`.  The clock, the random delay and the kill
switch are functions of the world.
-/

import Mathlib.Tactic.NormNum
import Teleproto3.Server.Conn
import Teleproto3.Wire.SessionHeader

namespace Teleproto3
namespace Server

open Lib Wire

/-- `kill_switch_state_t`. -/
inductive KillSwitchState
  | idle
  | draining
  | hardClosed
  deriving DecidableEq, Repr

/-- `type3_dispatch_outcome_t`. -/
inductive Type3DispatchOutcome
  | accept
  | passthrough
  | dropSilent
  deriving DecidableEq, Repr

/-- What the dispatch takes from its surroundings. -/
structure DispatchEnv (W : Type*) where
  /-- `g_ks_state` -/
  ksState : W → KillSwitchState
  /-- `sample_silent_close_delay_ns`, with the world after the draw -/
  sampleDelayNs : W → ℕ × W
  /-- `precise_now`, in seconds -/
  preciseNow : W → ℚ

variable {W : Type*} (env : DispatchEnv W)

/-- `delay_sec`: the delay in seconds, between 50 and 200 milliseconds. -/
def silentCloseDelay (delayNs : ℕ) : ℚ := min (max (delayNs / 10 ^ 9) (50 / 1000)) (200 / 1000)

/-- `type3_dispatch_silent_close`. -/
def type3DispatchSilentClose (c : Conn W) (delayNs : ℕ) : Conn W :=
  { c with timer := some (env.preciseNow c.world + silentCloseDelay delayNs) }

/-- The delay is drawn and the timer set. -/
def type3Drop (c : Conn W) : Conn W :=
  let (delayNs, world) := env.sampleDelayNs c.world
  type3DispatchSilentClose env { c with world := world } delayNs

/-- `type3_dispatch_on_crypto_init`.  The four bytes looked at go into the log. -/
def type3DispatchOnCryptoInit (c : Conn W) : Conn W × Type3DispatchOutcome :=
  if env.ksState c.world ≠ .idle then (type3Drop env c, .dropSilent)
  else if c.inp.length < 4 then (c, .passthrough)
  else
    match t3HeaderParse (c.inp.take 4) with
    | .error _ => (type3Drop env (c.record (.sessionHeader (c.inp.take 4))), .dropSilent)
    | .ok hdr =>
      -- Without the gate of the bench handler its command is dropped, and no timer is set.
      ((c.record (.sessionHeader (c.inp.take 4))).skipData 4,
        if hdr.commandType = T3_CMD_BENCH then .dropSilent else .accept)

/-- **The delay is in the interval the anti-probing rules ask for.** -/
theorem silentCloseDelay_bounds (delayNs : ℕ) :
    50 / 1000 ≤ silentCloseDelay delayNs ∧ silentCloseDelay delayNs ≤ 200 / 1000 :=
  ⟨le_min (le_max_right _ _) (by norm_num), min_le_right _ _⟩

/-- A drop changes the timer and the world only. -/
theorem type3Drop_frame (c : Conn W) :
    ∃ timer world, type3Drop env c = { c with timer := some timer, world := world } :=
  ⟨_, _, rfl⟩

/-- **The five ways through the hook.** -/
theorem type3DispatchOnCryptoInit_cases (c : Conn W) :
    (env.ksState c.world ≠ .idle ∧
        type3DispatchOnCryptoInit env c = (type3Drop env c, .dropSilent)) ∨
      (env.ksState c.world = .idle ∧ c.inp.length < 4 ∧
        type3DispatchOnCryptoInit env c = (c, .passthrough)) ∨
      env.ksState c.world = .idle ∧ 4 ≤ c.inp.length ∧
        ((∃ r, t3HeaderParse (c.inp.take 4) = .error r ∧
            type3DispatchOnCryptoInit env c =
              (type3Drop env (c.record (.sessionHeader (c.inp.take 4))), .dropSilent)) ∨
          (t3HeaderParse (c.inp.take 4) = .ok ⟨T3_CMD_BENCH, 1, 0⟩ ∧
            type3DispatchOnCryptoInit env c =
              ((c.record (.sessionHeader (c.inp.take 4))).skipData 4, .dropSilent)) ∨
          t3HeaderParse (c.inp.take 4) = .ok ⟨T3_CMD_MTPROTO_PASSTHROUGH, 1, 0⟩ ∧
            type3DispatchOnCryptoInit env c =
              ((c.record (.sessionHeader (c.inp.take 4))).skipData 4, .accept)) := by
  unfold type3DispatchOnCryptoInit
  by_cases hks : env.ksState c.world ≠ .idle
  · rw [if_pos hks]
    exact Or.inl ⟨hks, rfl⟩
  · rw [if_neg hks]
    by_cases hlen : c.inp.length < 4
    · rw [if_pos hlen]
      exact Or.inr (Or.inl ⟨not_not.mp hks, hlen, rfl⟩)
    · rw [if_neg hlen]
      refine Or.inr (Or.inr ⟨not_not.mp hks, not_lt.mp hlen, ?_⟩)
      cases hparse : t3HeaderParse (c.inp.take 4) with
      | error r => exact Or.inl ⟨r, rfl, rfl⟩
      | ok hdr =>
        obtain ⟨hknown, -, -, -, rfl⟩ := (t3HeaderParse_ok_iff _ _).mp hparse
        rcases hknown with hcmd | hcmd
        · refine Or.inr (Or.inr ⟨by rw [hcmd], ?_⟩)
          simp only [hcmd]
          rfl
        · refine Or.inr (Or.inl ⟨by rw [hcmd], ?_⟩)
          simp only [hcmd]
          rfl

end Server
end Teleproto3
