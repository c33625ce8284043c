/-
# What the caller receives

A run of a client in the state `READY` is a sequence of pumps and reads.
`Session` keeps the books of a run: the bytes TLS has delivered, the messages
`t3_client_read` has returned, and how many payload bytes have been moved into
`reasm_in`.

The condition for a run to go well is that every append of the receive path fits behind
the write position of its ring.
-/

import Teleproto3.Client.Conversation
import Teleproto3.Lib.Runs

namespace Teleproto3
namespace Client

open Lib Wire

/-! ### Runs -/

/-- What the application does, and what the outside answers. -/
inductive ClientEvent
  | pump (env : PumpEnv)
  | read (outCap : ℕ)

/-- A stream in the state `READY` with the books of its run. -/
structure Session where
  stream : ClientStream
  /-- every byte TLS has delivered -/
  received : Bytes
  /-- how many payload bytes have been moved into `reasm_in` -/
  moved : ℕ
  /-- the messages `t3_client_read` has returned -/
  returned : List Bytes

namespace Session

/-- One call of the application. -/
def step (x : Session) : ClientEvent → Session
  | .pump env =>
    { x with
      stream := (pumpReady x.stream x.moved env).1
      received := x.received ++ env.reads.flatten
      moved := (pumpReady x.stream x.moved env).2 }
  | .read outCap =>
    { x with
      stream := (t3ClientRead x.stream outCap).1
      returned :=
        if (t3ClientRead x.stream outCap).2.1 = .ok then
          x.returned ++ [(t3ClientRead x.stream outCap).2.2]
        else x.returned }

/-- TLS delivers the bytes of the conversation in order: each `SSL_read` into the
buffer of 16384 bytes at least one of them. -/
def Legal (conv : Conversation) (x : Session) : ClientEvent → Prop
  | .pump env =>
    x.received ++ env.reads.flatten <+: conv.stream ∧
      ∀ bs ∈ env.reads, 0 < bs.length ∧ bs.length ≤ 16384
  | .read _ => True

/-- What the receive path promises of a state: the messages returned are a prefix of the
messages sent, and the incoming cipher stands behind the payload bytes moved. -/
structure Sound (conv : Conversation) (x : Session) : Prop where
  returned_prefix : x.returned <+: conv.messages.map WireMessage.payload
  cipher_position : ∃ c, x.stream.decryptCtx = some c ∧ c.pos = x.moved

end Session

/-! ### The condition -/

/-- Each string read fits behind the write position `in_ring` has by then. -/
def ReadsFit : List Bytes → RingBuf → Prop
  | [], _ => True
  | bs :: reads, r => r.tail + bs.length ≤ r.cap ∧ ReadsFit reads (ringAppend r bs).1

/-- A payload that this turn decrypts fits behind the write position of `reasm_in`. -/
def DeframeFits (x : Incoming) : Prop :=
  ∀ payload payloadLen consumed,
    readFrame x.stream.mode (ringContents x.stream.inRing) = .frame payload payloadLen consumed →
    x.mallocs ≠ 0 → payloadLen ≠ 0 →
    x.stream.reasmIn.tail + payloadLen ≤ x.stream.reasmIn.cap

/-- A message that `plain_in` accepts in this turn fits behind its write position. -/
def DeliverFits (s : ClientStream) : Prop :=
  4 + wireLength (ringContents s.reasmIn) ≤ ringUsed s.reasmIn →
    ringUsed s.plainIn + (4 + wireLength (ringContents s.reasmIn)) ≤ s.plainIn.cap →
    s.plainIn.tail + (4 + wireLength (ringContents s.reasmIn)) ≤ s.plainIn.cap

/-- **The condition.**  Every string a pump reads fits behind the write position of
`in_ring`, every payload it decrypts behind that of `reasm_in`, and every message
`plain_in` accepts behind that of `plain_in`. -/
def Session.Fits (x : Session) : ClientEvent → Prop
  | .pump env =>
    ReadsFit env.reads x.stream.inRing ∧
      EachTurn deframeTurn DeframeFits ⟨pumpRead x.stream env, env.mallocs, x.moved⟩ ∧
      EachTurn deliverTurn DeliverFits
        (deframe ⟨pumpRead x.stream env, env.mallocs, x.moved⟩).1.stream
  | .read _ => True

/-! ### Appends that fit -/

/-- An append that fits behind the write position is accepted there. -/
theorem ringAppend_of_fits (r : RingBuf) (bs : Bytes) (h : r.tail + bs.length ≤ r.cap) :
    (ringAppend r bs).2 = 0 ∧ ringContents (ringAppend r bs).1 = ringContents r ++ bs ∧
      (ringAppend r bs).1.tail = r.tail + bs.length := by
  have hroom : ringUsed r + bs.length ≤ r.cap := by
    simp only [ringUsed]
    omega
  rcases ringAppend_cases r bs with ⟨hav, -, heq⟩ | ⟨hfull, -⟩
  · rw [heq]
    exact ⟨rfl, ringContents_ringPut r bs hav, rfl⟩
  · omega

/-- Reads that fit are all appended. -/
theorem sslReadIn_of_fits (reads : List Bytes) (ended : Bool) (r : RingBuf)
    (h : ReadsFit reads r) (ht : r.tail ≤ r.cap) :
    ringContents (sslReadIn reads ended r).1 = ringContents r ++ reads.flatten ∧
      (sslReadIn reads ended r).1.tail ≤ r.cap := by
  induction reads generalizing r with
  | nil => exact ⟨(List.append_nil _).symm, ht⟩
  | cons bs reads ih =>
    obtain ⟨hfit, hrest⟩ := h
    obtain ⟨-, hcontents, htail⟩ := ringAppend_of_fits r bs hfit
    obtain ⟨ih1, ih2⟩ := ih (ringAppend r bs).1 hrest (by rw [htail, ringAppend_cap]; exact hfit)
    rw [ringAppend_cap] at ih2
    refine ⟨?_, ih2⟩
    rw [sslReadIn, ih1, hcontents, List.flatten_cons, List.append_assoc]

end Client
end Teleproto3
