/-
# The client's stream object

`struct t3_client_stream` of `lib/src/t3_client_stream.c`, the cipher call of
`lib/src/t3_client_crypto.c`, and the two loops that move bytes between the rings
and the TLS socket.

OpenSSL stands outside: `SSL_write` and `SSL_read` appear as the list of their
results, and a context of AES-256 in counter mode is its keystream with the
position reached.
-/

import Teleproto3.Client.Ring
import Teleproto3.Lib.Keystream
import Teleproto3.Lib.Word32
import Teleproto3.Wire.Result

namespace Teleproto3
namespace Client

open Lib Wire

/-- `t3c_mode_t`. -/
inductive T3cMode
  | ws
  | http
  deriving DecidableEq, Repr

/-- `t3_client_state_t`. -/
inductive T3ClientState
  | connecting
  | tls
  | handshake
  | ready
  | error
  | closed
  deriving DecidableEq, Repr

/-- `struct t3_client_stream`.  A null cipher context is `none`.  The four rings all
come from `ring_init`, and no operation changes a ring's capacity. -/
structure ClientStream where
  state : T3ClientState
  mode : T3cMode
  encryptCtx : Option CtrContext
  decryptCtx : Option CtrContext
  /-- raw bytes from TLS -/
  inRing : RingBuf
  /-- framed bytes for TLS -/
  outRing : RingBuf
  /-- decrypted stream, before messages are cut out of it -/
  reasmIn : RingBuf
  /-- messages for the caller, each behind its length -/
  plainIn : RingBuf
  inRing_cap : inRing.cap = RING_CAP
  outRing_cap : outRing.cap = RING_CAP
  reasmIn_cap : reasmIn.cap = RING_CAP
  plainIn_cap : plainIn.cap = RING_CAP

/-- A stream whose rings `t3_client_create` has just allocated and whose handshake is
over: `READY`, with its two cipher contexts. -/
def ClientStream.opened (mode : T3cMode) (encryptCtx decryptCtx : CtrContext)
    (blocks : Fin 4 → Mem) : ClientStream where
  state := .ready
  mode := mode
  encryptCtx := some encryptCtx
  decryptCtx := some decryptCtx
  inRing := ringInit RING_CAP (blocks 0)
  outRing := ringInit RING_CAP (blocks 1)
  reasmIn := ringInit RING_CAP (blocks 2)
  plainIn := ringInit RING_CAP (blocks 3)
  inRing_cap := Eq.refl RING_CAP
  outRing_cap := Eq.refl RING_CAP
  reasmIn_cap := Eq.refl RING_CAP
  plainIn_cap := Eq.refl RING_CAP

/-! ### The cipher -/

/-- `EVP_CipherUpdate` on a counter-mode context: `inl` bytes of `inp` are combined
with the keystream and the position moves on by `inl`; a negative length is
refused. -/
def evpCipherUpdate (c : CtrContext) (inp : Bytes) (inl : ℤ) : Option (CtrContext × Bytes) :=
  if inl < 0 then none
  else some ({ c with pos := c.pos + inl.toNat }, xorAt c.ks c.pos (inp.take inl.toNat))

/-- `t3c_aes_crypt`.  The length is a `size_t` that is passed on as an `int`. -/
def t3cAesCrypt (ctx : Option CtrContext) (inp : Bytes) (len : ℕ) : Option (CtrContext × Bytes) :=
  match ctx with
  | none => none
  | some c => if len = 0 then none else evpCipherUpdate c inp (wrap32 len)

/-- On a string of moderate length the whole of it is combined. -/
theorem t3cAesCrypt_some (c : CtrContext) (inp : Bytes) (h0 : inp.length ≠ 0)
    (hlt : inp.length < 2 ^ 31) :
    t3cAesCrypt (some c) inp inp.length =
      some ({ c with pos := c.pos + inp.length }, xorAt c.ks c.pos inp) := by
  have hwrap : wrap32 (inp.length : ℤ) = inp.length := wrap32_of_fits (by omega) (by omega)
  simp only [t3cAesCrypt, if_neg h0, evpCipherUpdate, hwrap]
  rw [if_neg (by omega), Int.toNat_natCast, List.take_length]

/-! ### To and from TLS -/

/-- What a call of `SSL_write` did: some of the bytes offered were written (at least
one, at most all), or it has to be tried later, or it failed. -/
inductive SslWrite
  | wrote (n : ℕ)
  | again
  | fatal

/-- `ssl_flush_out`: the ring afterwards, the bytes written, the value returned.  One
call of `SSL_write` is offered at most 16384 bytes.  A list that ends counts as
one more call to be tried later. -/
def sslFlushOut : List SslWrite → RingBuf → RingBuf × Bytes × ℤ
  | [], r => (r, [], 0)
  | w :: ws, r =>
    if ringUsed r = 0 then (r, [], 0)
    else
      match w with
      | .wrote n =>
        let k := min (n + 1) (min 16384 (ringUsed r))
        let rest := sslFlushOut ws (ringConsume r k)
        (rest.1, (ringContents r).take k ++ rest.2.1, rest.2.2)
      | .again => (r, [], 0)
      | .fatal => (r, [], -1)

/-- **Flushing loses and invents nothing**: what was written and what is still queued
are together what was queued. -/
theorem sslFlushOut_contents (ws : List SslWrite) (r : RingBuf) :
    (sslFlushOut ws r).2.1 ++ ringContents (sslFlushOut ws r).1 = ringContents r := by
  induction ws generalizing r with
  | nil => rfl
  | cons w ws ih =>
    unfold sslFlushOut
    split_ifs with h
    · rfl
    · cases w with
      | wrote n =>
        simp only [List.append_assoc, ih, ringContents_ringConsume, List.take_append_drop]
      | again => rfl
      | fatal => rfl

@[simp] theorem sslFlushOut_cap (ws : List SslWrite) (r : RingBuf) :
    (sslFlushOut ws r).1.cap = r.cap := by
  induction ws generalizing r with
  | nil => rfl
  | cons w ws ih =>
    unfold sslFlushOut
    split_ifs
    · rfl
    · cases w with
      | wrote n => simp only [ih, ringConsume_cap]
      | again => rfl
      | fatal => rfl

/-- `ssl_read_in`: the strings `SSL_read` delivers one after the other, each appended
to the ring.  The result of the append is not looked at.  What ends the loop, a call
to be tried later or a failure, decides the value returned. -/
def sslReadIn : List Bytes → (ended : Bool) → RingBuf → RingBuf × ℤ
  | [], ended, r => (r, if ended then -1 else 0)
  | bs :: reads, ended, r => sslReadIn reads ended (ringAppend r bs).1

@[simp] theorem sslReadIn_cap (reads : List Bytes) (ended : Bool) (r : RingBuf) :
    (sslReadIn reads ended r).1.cap = r.cap := by
  induction reads generalizing r with
  | nil => rfl
  | cons bs reads ih => simp only [sslReadIn, ih, ringAppend_cap]

end Client
end Teleproto3
