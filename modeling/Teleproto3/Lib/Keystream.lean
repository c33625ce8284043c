/-
# Stream ciphers in counter mode

A counter-mode cipher is its keystream: the byte at each position, fixed by the
key and the initial counter.  `xorAt` combines a string with the keystream from a
position on, which is both encryption and decryption, and a context is a
keystream with the position reached.  `Primitives` is the pair of abstract functions a
handshake derives its keys and keystreams with.
-/

import Teleproto3.Lib.Memory

namespace Teleproto3
namespace Lib

/-- The byte of keystream at each position. -/
abbrev Keystream := ℕ → UInt8

/-- A string combined with the keystream from position `pos` on. -/
def xorAt (ks : Keystream) : ℕ → Bytes → Bytes
  | _, [] => []
  | pos, b :: bs => (b ^^^ ks pos) :: xorAt ks (pos + 1) bs

variable (ks : Keystream)

@[simp] theorem xorAt_nil (pos : ℕ) : xorAt ks pos [] = [] := rfl

@[simp] theorem xorAt_length (pos : ℕ) (bs : Bytes) : (xorAt ks pos bs).length = bs.length := by
  induction bs generalizing pos with
  | nil => rfl
  | cons b bs ih => simp only [xorAt, List.length_cons, ih]

/-- Each byte is combined with the keystream at its own position. -/
theorem xorAt_getElem? (pos : ℕ) (bs : Bytes) (i : ℕ) :
    (xorAt ks pos bs)[i]? = bs[i]?.map (· ^^^ ks (pos + i)) := by
  induction bs generalizing pos i with
  | nil => rfl
  | cons b bs ih =>
    cases i with
    | zero => rfl
    | succ i =>
      simp only [xorAt, List.getElem?_cons_succ]
      rw [ih, show pos + 1 + i = pos + (i + 1) by omega]

/-- The second part of a string is combined from where the first part ends. -/
theorem xorAt_append (pos : ℕ) (as bs : Bytes) :
    xorAt ks pos (as ++ bs) = xorAt ks pos as ++ xorAt ks (pos + as.length) bs := by
  induction as generalizing pos with
  | nil => rfl
  | cons a as ih =>
    simp only [List.cons_append, xorAt, List.length_cons, ih]
    rw [show pos + 1 + as.length = pos + (as.length + 1) by omega]

/-- What stands behind the first `n` bytes is combined from position `n` on. -/
theorem xorAt_drop (pos : ℕ) (bs : Bytes) (n : ℕ) :
    (xorAt ks pos bs).drop n = xorAt ks (pos + n) (bs.drop n) := by
  induction bs generalizing pos n with
  | nil => simp only [xorAt_nil, List.drop_nil]
  | cons b bs ih =>
    cases n with
    | zero => rfl
    | succ n =>
      simp only [xorAt, List.drop_succ_cons]
      rw [ih, show pos + 1 + n = pos + (n + 1) by omega]

/-- The keystream from a position on, as a keystream of its own. -/
theorem xorAt_shift (pos k : ℕ) (bs : Bytes) :
    xorAt (fun i => ks (pos + i)) k bs = xorAt ks (pos + k) bs := by
  induction bs generalizing k with
  | nil => rfl
  | cons b bs ih => rw [xorAt, xorAt, ih, Nat.add_assoc]

/-- Decryption undoes encryption at the same position. -/
@[simp] theorem xorAt_xorAt (pos : ℕ) (bs : Bytes) : xorAt ks pos (xorAt ks pos bs) = bs := by
  induction bs generalizing pos with
  | nil => rfl
  | cons b bs ih => rw [xorAt, xorAt, ih, UInt8.xor_assoc, UInt8.xor_self, UInt8.xor_zero]

/-- A keystream of zeros changes nothing. -/
@[simp] theorem xorAt_zero (pos : ℕ) (bs : Bytes) : xorAt (fun _ => 0) pos bs = bs := by
  induction bs generalizing pos with
  | nil => rfl
  | cons b bs ih => rw [xorAt, ih, UInt8.xor_zero]

/-- A cipher context: a keystream and the position reached in it. -/
structure CtrContext where
  ks : Keystream
  pos : ℕ

/-- A hash function and a block cipher in counter mode, as functions both ends of a
conversation share. -/
structure Primitives where
  sha256 : Bytes → Bytes
  /-- the keystream of AES-256 in counter mode under a key and an initial counter -/
  aes256Ctr : Bytes → Bytes → Keystream

end Lib
end Teleproto3
