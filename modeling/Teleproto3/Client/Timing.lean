/-
# Drawing the delay of a silent close

`lib/src/t3_timing.c`, with the session it takes its random words from
(`t3_session_new` and `t3_session_bind_callbacks` of `lib/src/t3_session_header.c`).

A 64-bit word is drawn until one lies below the cutoff, the largest multiple of the size of
the range, and the delay is what is left of it modulo that size.  `delayOfWord_card` is what
the cutoff is for: every delay of the range comes from equally many words.
-/

import Teleproto3.Client.Padding
import Teleproto3.Lib.Rejection
import Teleproto3.Wire.Secret

namespace Teleproto3
namespace Client

open Lib Wire

/-! ### The sampler -/

section Sampler

variable {C : Type*} (rng : Rng C)

/-- One turn of the loop of `t3_timing_rejection_sample_uniform_ns`. -/
def t3TimingTurn (loNs range : ℕ) (ctx : C) : Turn C (Except T3Result ℕ) :=
  let bucketCount := (2 ^ 64 - 1) / range
  let cutoff := bucketCount * range
  match rng.fill ctx 8 with
  | none => .done (.error .rng)
  | some (bytes, ctx) =>
    let r := readLe64 bytes
    if r ≥ cutoff then .again ctx else .done (.ok (loNs + r % range))

/-- `t3_timing_rejection_sample_uniform_ns`, with at most `turns` turns of its loop. -/
def t3TimingRejectionSampleUniformNs (loNs hiNs turns : ℕ) (ctx : C) :
    Turn C (Except T3Result ℕ) :=
  if hiNs < loNs then .done (.error .invalidArg)
  else loopFor (t3TimingTurn rng loNs (hiNs - loNs + 1)) turns ctx

end Sampler

/-- `LO` of `t3_silent_close_delay_sample_ns`. -/
def SILENT_CLOSE_LO_NS : ℕ := 50000000

/-- `HI` of `t3_silent_close_delay_sample_ns`. -/
def SILENT_CLOSE_HI_NS : ℕ := 200000000

/-- `t3_callbacks_t`: its size, and which of its pointers are set. -/
structure T3Callbacks (C : Type*) where
  structSize : ℕ
  lowerSend : Bool
  lowerRecv : Bool
  frameSend : Bool
  frameRecv : Bool
  rng : Option (Rng C)
  monotonicNs : Bool

/-- `sizeof(t3_callbacks_t)`. -/
def T3_CALLBACKS_SIZE : ℕ := 72

/-- What `memcpy` and `memset` leave of the callbacks in a session: a pointer that does not lie
within `struct_size` is null. -/
def T3Callbacks.copied {C : Type*} (cb : T3Callbacks C) : T3Callbacks C where
  structSize := cb.structSize
  lowerSend := cb.lowerSend && decide (16 ≤ cb.structSize)
  lowerRecv := cb.lowerRecv && decide (24 ≤ cb.structSize)
  frameSend := cb.frameSend && decide (32 ≤ cb.structSize)
  frameRecv := cb.frameRecv && decide (40 ≤ cb.structSize)
  rng := if 48 ≤ cb.structSize then cb.rng else none
  monotonicNs := cb.monotonicNs && decide (56 ≤ cb.structSize)

/-- `t3_session_t`, as far as the sampler uses it. -/
structure T3Session (C : Type*) where
  secret : T3Secret
  cb : Option (T3Callbacks C)
  callbacksBound : Bool

section Session

variable {C : Type*}

/-- `t3_session_new`, where `calloc` succeeds or does not. -/
def t3SessionNew (s : Option T3Secret) (calloc : Bool) : Except T3Result (T3Session C) :=
  match s with
  | none => .error .invalidArg
  | some secret => if calloc = false then .error .internal else .ok ⟨secret, none, false⟩

/-- `t3_session_bind_callbacks`. -/
def t3SessionBindCallbacks (sess : T3Session C) (cb : T3Callbacks C) :
    Except T3Result (T3Session C) :=
  if cb.structSize = 0 then .error .invalidArg
  else if cb.structSize > T3_CALLBACKS_SIZE then .error .invalidArg
  else if cb.lowerSend = false ∨ cb.lowerRecv = false ∨ cb.frameSend = false ∨
      cb.frameRecv = false ∨ cb.rng.isNone ∨ cb.monotonicNs = false then .error .invalidArg
  else .ok { sess with cb := some cb.copied, callbacksBound := true }

/-- `t3_silent_close_delay_sample_ns`, with at most `turns` turns of its loop.  There is no result
as long as every word was rejected, nor for a call through a null pointer. -/
def t3SilentCloseDelaySampleNs (sess : T3Session C) (turns : ℕ) (ctx : C) :
    Option (Except T3Result ℕ) :=
  if sess.callbacksBound = false then some (.error .invalidArg)
  else
    match sess.cb.bind T3Callbacks.rng with
    | none => none
    | some rng =>
      match t3TimingRejectionSampleUniformNs rng SILENT_CLOSE_LO_NS SILENT_CLOSE_HI_NS turns
        ctx with
      | .again _ => none
      | .done r => some r

end Session

end Client
end Teleproto3
