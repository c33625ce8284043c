/-
# The delay of a silent close, as the dispatcher draws it

`type3_dispatch_init` and `sample_silent_close_delay_ns` of
`server/src/net/net-type3-dispatch.c`.

The dispatcher keeps a session of the library for the sole purpose of drawing delays, and
builds it from a secret of its own.  The comment at that secret says that it begins with `0xee`,
the marker of a Type3 secret; the marker that `t3_secret_parse` asks for is `0xFF`.  So the
secret is refused, which `type3_dispatch_init` takes for no failure of its own, there never is a
session (`Dispatcher.session_none`), and every delay is the constant that should not happen in
production.
-/

import Teleproto3.Client.Timing
import Teleproto3.Lib.Runs
import Teleproto3.Server.Dispatch

namespace Teleproto3
namespace Server

open Lib Wire Client

/-! ### Random bytes -/

/-- What `/dev/urandom` gives, byte for byte, and nothing where it cannot be opened or read. -/
abbrev Urandom := ℕ → Option UInt8

/-- `dispatch_rng`. -/
def dispatchRng : Rng Urandom where
  fill u len :=
    if ∀ i < len, (u i).isSome then
      some ((List.range len).map fun i => (u i).getD 0, fun i => u (len + i))
    else none
  fill_length u len bs u' h := by
    split_ifs at h
    rw [← (Prod.mk.inj (Option.some.inj h)).1, List.length_map, List.length_range]

/-- A device that gives these bytes and no more. -/
def urandomOf (bs : Bytes) : Urandom := fun i => bs[i]?

/-- The state of the dispatcher. -/
structure Dispatcher where
  ksHardClose : Bool
  secret : Option T3Secret
  session : Option (T3Session Urandom)

namespace Dispatcher

/-- The state at program start. -/
def start : Dispatcher := ⟨false, none, none⟩

end Dispatcher

/-- `dummy_encoded`. -/
def dummyEncoded : Bytes :=
  [0xee,
    0x00, 0x00, 0x00, 0x00, 0x00, 0x00, 0x00, 0x00,
    0x00, 0x00, 0x00, 0x00, 0x00, 0x00, 0x00, 0x00,
    0x74]

/-- `disp_cb`. -/
def dispCb : T3Callbacks Urandom where
  structSize := T3_CALLBACKS_SIZE
  lowerSend := true
  lowerRecv := true
  frameSend := true
  frameRecv := true
  rng := some dispatchRng
  monotonicNs := true

/-- `type3_dispatch_init` behind the test of its argument: the dispatcher's session, where the
parser has so much memory, and `t3_session_new` finds some or does not. -/
def dispatchSession (d : Dispatcher) (mallocs : ℕ) (calloc : Bool) : Dispatcher :=
  match t3SecretParse (some dummyEncoded) dummyEncoded.length mallocs with
  | .error _ => { d with secret := none }
  | .ok secret =>
    match t3SessionNew (some secret) calloc with
    | .error _ => { d with secret := none, session := none }
    | .ok sess =>
      match t3SessionBindCallbacks sess dispCb with
      | .error _ => { d with secret := none, session := none }
      | .ok sess => { d with secret := some secret, session := some sess }

/-- `type3_dispatch_init`. -/
def type3DispatchInit (d : Dispatcher) (killSwitchMode : Option String) (mallocs : ℕ)
    (calloc : Bool) : Dispatcher × ℤ :=
  if killSwitchMode = some "hard-close" then
    (dispatchSession { d with ksHardClose := true } mallocs calloc, 0)
  else if killSwitchMode = none ∨ killSwitchMode = some "drain" then
    (dispatchSession { d with ksHardClose := false } mallocs calloc, 0)
  else (d, -1)

/-- `type3_dispatch_cleanup`. -/
def type3DispatchCleanup (d : Dispatcher) : Dispatcher := { d with secret := none, session := none }

/-- The constant at the end of `sample_silent_close_delay_ns`. -/
def FALLBACK_DELAY_NS : ℕ := 125000000

/-- `sample_silent_close_delay_ns` on what the device gives from now on, with at most `turns` words
drawn.  There is no delay as long as every word was rejected. -/
def sampleSilentCloseDelayNs (d : Dispatcher) (turns : ℕ) (u : Urandom) : Option ℕ :=
  match d.session with
  | none => some FALLBACK_DELAY_NS
  | some sess =>
    match t3SilentCloseDelaySampleNs sess turns u with
    | none => none
    | some (.ok delayNs) => some delayNs
    | some (.error _) => some FALLBACK_DELAY_NS

/-! ### What the delay is to be -/

/-- **The delay is drawn.**  It is the value the sampler computes from the random bytes, every
value of the range is one, and they all come from equally many words. -/
structure ReallySampled (d : Dispatcher) : Prop where
  computed : ∀ turns u v,
    t3TimingRejectionSampleUniformNs dispatchRng SILENT_CLOSE_LO_NS SILENT_CLOSE_HI_NS turns u =
      .done (.ok v) → sampleSilentCloseDelayNs d turns u = some v
  attainable : ∀ v, SILENT_CLOSE_LO_NS ≤ v → v ≤ SILENT_CLOSE_HI_NS →
    ∃ turns u, sampleSilentCloseDelayNs d turns u = some v
  uniform : ∀ v w, SILENT_CLOSE_LO_NS ≤ v → v ≤ SILENT_CLOSE_HI_NS → SILENT_CLOSE_LO_NS ≤ w →
    w ≤ SILENT_CLOSE_HI_NS →
      ((Finset.range (2 ^ 64)).filter fun r =>
        sampleSilentCloseDelayNs d 1 (urandomOf (le64 r)) = some v).card =
      ((Finset.range (2 ^ 64)).filter fun r =>
        sampleSilentCloseDelayNs d 1 (urandomOf (le64 r)) = some w).card

/-- The dispatcher has a session, bound to its callbacks. -/
def Dispatcher.Bound (d : Dispatcher) : Prop :=
  ∃ secret, d.session = some ⟨secret, some dispCb, true⟩

section Bound

variable {d : Dispatcher}

theorem Dispatcher.Bound.sample (h : d.Bound) (turns : ℕ) (u : Urandom) :
    sampleSilentCloseDelayNs d turns u =
      match t3TimingRejectionSampleUniformNs dispatchRng SILENT_CLOSE_LO_NS SILENT_CLOSE_HI_NS
        turns u with
      | .again _ => none
      | .done (.ok v) => some v
      | .done (.error _) => some FALLBACK_DELAY_NS := by
  obtain ⟨secret, hsession⟩ := h
  have hrng : (some dispCb).bind T3Callbacks.rng = some dispatchRng := rfl
  simp only [sampleSilentCloseDelayNs, hsession, t3SilentCloseDelaySampleNs, hrng,
    Bool.true_eq_false, if_false]
  cases t3TimingRejectionSampleUniformNs dispatchRng SILENT_CLOSE_LO_NS SILENT_CLOSE_HI_NS turns
    u with
  | again u' => rfl
  | done r => cases r <;> rfl

/-- Without a session the delay is the constant, whatever the device gives. -/
theorem sample_of_session_none (h : d.session = none) (turns : ℕ) (u : Urandom) :
    sampleSilentCloseDelayNs d turns u = some FALLBACK_DELAY_NS := by
  unfold sampleSilentCloseDelayNs
  rw [h]

theorem not_reallySampled_of_session_none (h : d.session = none) : ¬ ReallySampled d := by
  intro hsampled
  obtain ⟨turns, u, hu⟩ := hsampled.attainable SILENT_CLOSE_LO_NS le_rfl (by decide)
  rw [sample_of_session_none h] at hu
  exact absurd (Option.some.inj hu) (by decide)

end Bound

/-! ### Every run -/

/-- The parser refuses the secret, for its first byte. -/
theorem t3SecretParse_dummyEncoded (mallocs : ℕ) :
    t3SecretParse (some dummyEncoded) dummyEncoded.length mallocs = .error .malformed := by
  rfl

/-- The calls that change the dispatcher. -/
inductive DispatcherCall
  | init (killSwitchMode : Option String) (mallocs : ℕ) (calloc : Bool)
  | cleanup

namespace Dispatcher

/-- What a call leaves. -/
def step (d : Dispatcher) : DispatcherCall → Dispatcher
  | .init killSwitchMode mallocs calloc => (type3DispatchInit d killSwitchMode mallocs calloc).1
  | .cleanup => type3DispatchCleanup d

theorem init_session_none {d : Dispatcher} (h : d.session = none) (killSwitchMode : Option String)
    (mallocs : ℕ) (calloc : Bool) :
    (type3DispatchInit d killSwitchMode mallocs calloc).1.session = none := by
  have hsession (b : Dispatcher) (hb : b.session = none) :
      (dispatchSession b mallocs calloc).session = none := by
    unfold dispatchSession
    rw [t3SecretParse_dummyEncoded]
    exact hb
  unfold type3DispatchInit
  split_ifs
  · exact hsession _ h
  · exact hsession _ h
  · exact h

/-- **There never is a session.** -/
theorem session_none (calls : List DispatcherCall) : (finish step start calls).session = none := by
  have hstep (d : Dispatcher) (e : DispatcherCall) (hd : d.session = none) :
      (d.step e).session = none := by
    cases e with
    | init killSwitchMode mallocs calloc => exact init_session_none hd killSwitchMode mallocs calloc
    | cleanup => rfl
  have hstart : start.session = none := rfl
  exact (throughout_of_step hstep hstart).finish

end Dispatcher

/-- **The delay is never drawn.**  Whatever was called before, after every
`type3_dispatch_init` it is the constant. -/
theorem type3DispatchInit_never_sampled (calls : List DispatcherCall)
    (killSwitchMode : Option String) (mallocs : ℕ) (calloc : Bool) :
    let d := (type3DispatchInit (finish Dispatcher.step .start calls) killSwitchMode mallocs
      calloc).1
    (∀ turns u, sampleSilentCloseDelayNs d turns u = some FALLBACK_DELAY_NS) ∧
      ¬ ReallySampled d := by
  have hnone := Dispatcher.init_session_none (Dispatcher.session_none calls) killSwitchMode mallocs
    calloc
  exact ⟨sample_of_session_none hnone, not_reallySampled_of_session_none hnone⟩

/-- **After the first call, which succeeds, there is no drawn delay.** -/
theorem type3DispatchInit_not_sampled :
    ¬ ∀ calls killSwitchMode mallocs calloc,
      (type3DispatchInit (finish Dispatcher.step .start calls) killSwitchMode mallocs
        calloc).2 = 0 →
      ReallySampled (type3DispatchInit (finish Dispatcher.step .start calls) killSwitchMode mallocs
        calloc).1 := fun hall =>
  not_reallySampled_of_session_none
    (Dispatcher.init_session_none (Dispatcher.session_none []) (some "drain") 4 true)
    (hall [] (some "drain") 4 true rfl)

end Server
end Teleproto3
