/-
# Chunks of message buffers

`server/src/net/net-msg-buffers.c` cuts chunks of memory into buffers of one size.  A chunk keeps
a tree of counts in `free_cnt`: the leaf of a buffer carries 1 while the buffer is free, and an
inner node how many are free below it.  A buffer is taken by going down the tree and given back by
going up.

This module is the chunk: how it is cut (`allocNewMsgBuffersChunk`), how a pointer is turned back
into a number without a division (`prepareBsInv`, `getBufferNo`), and how a buffer is taken
(`takeNeighbor`, `takeRank`) and given back (`freeStdMsgBuffer`).

One thread is modelled.  Between calls no chunk is locked then, and `free_block_queue` is empty.
-/

import Mathlib.Algebra.Order.Ring.Int
import Mathlib.Data.List.Basic
import Mathlib.Logic.Function.Basic

namespace Teleproto3
namespace Server

/-- `MSG_BUFFERS_CHUNK_SIZE`. -/
def MSG_BUFFERS_CHUNK_SIZE : ℕ := 2 ^ 21 - 64

/-- `offsetof (struct msg_buffers_chunk, free_cnt)`. -/
def FREE_CNT_OFFSET : ℕ := 84

/-- `BUFF_HD_BYTES`. -/
def BUFF_HD_BYTES : ℕ := 16

/-- How a call ends that does not return. -/
inductive BufferFault
  /-- an assertion -/
  | assertion
  /-- a pointer into no chunk -/
  | memory
  /-- a loop that does not end -/
  | endless
  deriving DecidableEq, Repr

/-- `struct msg_buffers_chunk`.  `firstBuffer` is an address. -/
structure BufferChunk where
  bufferSize : ℕ
  firstBuffer : ℕ
  twoPower : ℕ
  totBuffers : ℕ
  bsInverse : BitVec 32
  bsShift : ℕ
  freeCnt : ℕ → ℕ

/-- An assertion. -/
def assertBuffer (p : Prop) [Decidable p] : Except BufferFault Unit :=
  if p then .ok () else .error .assertion

/-! ### Cutting a chunk -/

/-- `two_power = 1; while (two_power <= t) { two_power <<= 1; }`. -/
def twoPowerLoop (t : ℕ) : ℕ → ℕ → ℕ
  | 0, twoPower => twoPower
  | fuel + 1, twoPower => if twoPower ≤ t then twoPowerLoop t fuel (2 * twoPower) else twoPower

/-- `buffer_hd_size & -buffer_hd_size`, but at least 8 and at most 64. -/
def bufferAlign (bufferHdSize : ℕ) : ℕ :=
  let align := bufferHdSize &&& (2 ^ 32 - bufferHdSize)
  let align := if align < 8 then 8 else align
  if 64 < align then 64 else align

/-- `__builtin_ctz`, of a number below `2 ^ 32`. -/
def ctz (x : ℕ) : ℕ := ((List.range 32).find? (x.testBit ·)).getD 32

/-- `while (x) { y *= 1 + x; x *= x; }`. -/
def bsInverseLoop : ℕ → BitVec 32 → BitVec 32 → Except BufferFault (BitVec 32)
  | 0, _, _ => .error .endless
  | fuel + 1, x, y => if x = 0 then .ok y else bsInverseLoop fuel (x * x) (y * (1 + x))

/-- `prepare_bs_inv`: `bs_inverse` and `bs_shift`. -/
def prepareBsInv (bufferSize : ℕ) : Except BufferFault (BitVec 32 × ℕ) := do
  let x := BitVec.ofNat 32 (bufferSize + 16)
  let i := ctz x.toNat
  let x := x.sshiftRight i
  let y ← bsInverseLoop 32 (1 - x) 1
  return (y, i)

/-- `for (i = two_power - 1; i > 0; i--) free_cnt[i] = free_cnt[2*i] + free_cnt[2*i+1];`, in an
`unsigned short`. -/
def sumCounts : ℕ → (ℕ → ℕ) → ℕ → ℕ
  | 0, freeCnt => freeCnt
  | i + 1, freeCnt =>
    sumCounts i (Function.update freeCnt (i + 1)
      ((freeCnt (2 * (i + 1)) + freeCnt (2 * (i + 1) + 1)) % 2 ^ 16))

/-- `free_cnt` of a new chunk: the leaves, and then the sums. -/
def newFreeCnt (twoPower chunkBuffers : ℕ) : ℕ → ℕ :=
  sumCounts (twoPower - 1) fun i =>
    if twoPower ≤ i ∧ i < twoPower + chunkBuffers then 1 else 0

/-- `alloc_new_msg_buffers_chunk`: the block of memory at `address` is cut. -/
def allocNewMsgBuffersChunk (address bufferSize : ℕ) : Except BufferFault BufferChunk := do
  let bufferHdSize := bufferSize + BUFF_HD_BYTES
  let align := bufferAlign bufferHdSize
  let t := (MSG_BUFFERS_CHUNK_SIZE - FREE_CNT_OFFSET) / (bufferHdSize + 4)
  let twoPower := twoPowerLoop t 32 1
  let chunkBuffers :=
    (MSG_BUFFERS_CHUNK_SIZE - FREE_CNT_OFFSET - twoPower * 4 - align) / bufferHdSize
  assertBuffer (0 < chunkBuffers ∧ chunkBuffers < 65536 ∧ chunkBuffers ≤ twoPower)
  let firstBuffer :=
    (address + FREE_CNT_OFFSET + twoPower * 4 + align - 1) &&& (2 ^ 64 - align)
  assertBuffer (firstBuffer + chunkBuffers * bufferHdSize ≤ address + MSG_BUFFERS_CHUNK_SIZE)
  let (bsInverse, bsShift) ← prepareBsInv bufferSize
  return {
    bufferSize := bufferSize
    firstBuffer := firstBuffer
    twoPower := twoPower
    totBuffers := chunkBuffers
    bsInverse := bsInverse
    bsShift := bsShift
    freeCnt := newFreeCnt twoPower chunkBuffers }

namespace BufferChunk

variable (C : BufferChunk)

/-- `(struct msg_buffer *) ((char *) C->first_buffer + i * (C->buffer_size + 16))`. -/
def bufferAt (i : ℕ) : ℕ := C.firstBuffer + i * (C.bufferSize + 16)

/-- `get_buffer_no`, of the buffer at an address. -/
def getBufferNo (X : ℕ) : Except BufferFault ℕ := do
  let x := BitVec.ofInt 32 ((X : ℤ) - C.firstBuffer)
  let x := x >>> C.bsShift
  let x := x * C.bsInverse
  assertBuffer (x.toNat ≤ C.totBuffers ∧
    X = C.firstBuffer + (BitVec.ofNat 32 (C.bufferSize + 16) * x).toNat)
  return x.toNat

/-! ### Taking a buffer -/

/-- `--C->free_cnt[i]`, in an `unsigned short`. -/
def decr (i : ℕ) : BufferChunk :=
  { C with freeCnt := Function.update C.freeCnt i ((C.freeCnt i + 65535) % 2 ^ 16) }

/-- `++C->free_cnt[i]`, in an `unsigned short`. -/
def incr (i : ℕ) : BufferChunk :=
  { C with freeCnt := Function.update C.freeCnt i ((C.freeCnt i + 1) % 2 ^ 16) }

/-- `while (k > 0) { assert (-- C->free_cnt[k] >= 0); k >>= 1; }`.  An `unsigned short` is never
negative. -/
def climb : ℕ → BufferChunk → ℕ → Except BufferFault BufferChunk
  | 0, _, _ => .error .endless
  | fuel + 1, C, k => if 0 < k then climb fuel (C.decr k) (k / 2) else .ok C

/-- `while (i < two_power) { i <<= 1; if (!C->free_cnt[i]) { i++; } assert (-- C->free_cnt[i] >= 0); }`. -/
def descendFirst : ℕ → BufferChunk → ℕ → Except BufferFault (BufferChunk × ℕ)
  | 0, _, _ => .error .endless
  | fuel + 1, C, i =>
    if i < C.twoPower then
      let i := if C.freeCnt (2 * i) = 0 then 2 * i + 1 else 2 * i
      descendFirst fuel (C.decr i) i
    else .ok (C, i)

/-- The loop that looks for a free buffer behind `x`: from the node `i` over the buffers
`l .. r - 1`, with `j` to fall back to.  It ends with the chunk, `i` and `k`. -/
def nearLoop (x : ℕ) :
    ℕ → BufferChunk → (i j l r : ℕ) → Except BufferFault (BufferChunk × ℕ × ℕ)
  | 0, _, _, _, _, _ => .error .endless
  | fuel + 1, C, i, j, l, r =>
    if i < C.twoPower then
      let i := 2 * i
      let m := (l + r) / 2
      if x < m then
        if 0 < C.freeCnt i then
          nearLoop x fuel C i (if 0 < C.freeCnt (i + 1) then i + 1 else j) l m
        else nearLoop x fuel C (i + 1) j m r
      else if 0 < C.freeCnt (i + 1) then nearLoop x fuel C (i + 1) j m r
      else do
        let (C, i) ← descendFirst (C.twoPower + 1) C j
        return (C, i, j)
    else .ok (C, i, 0)

/-- A buffer is taken near the buffer `x`: `i` at the end. -/
def takeNeighbor (x : ℕ) : Except BufferFault (BufferChunk × ℕ) := do
  let (C, i, k) ←
    if x < C.twoPower - 1 ∧ C.freeCnt (C.twoPower + x + 1) ≠ 0 then
      .ok (C, C.twoPower + x + 1, 0)
    else nearLoop x (C.twoPower + 1) C 1 1 0 C.twoPower
  let C ← climb (2 * C.twoPower + 1) C (if k = 0 then i else k)
  return (C, i)

/-- The loop that goes down to the free buffer with `j` others before it. -/
def rankLoop : ℕ → BufferChunk → (i j : ℕ) → Except BufferFault (BufferChunk × ℕ)
  | 0, _, _, _ => .error .endless
  | fuel + 1, C, i, j =>
    if i < C.twoPower then
      let C := C.decr i
      let i := 2 * i
      if C.freeCnt i ≤ j then rankLoop fuel C (i + 1) (j - C.freeCnt i) else rankLoop fuel C i j
    else
      let C := C.decr i
      do
        assertBuffer (C.freeCnt i = 0)
        return (C, i)

/-- A buffer is taken among the first 16 free ones, by a draw of `lrand48_j`. -/
def takeRank (draw : ℕ) : Except BufferFault (BufferChunk × ℕ) := do
  let j := if C.freeCnt 1 < 16 then C.freeCnt 1 else 16
  let j := draw * j / 2 ^ 31
  assertBuffer (j < C.freeCnt 1)
  rankLoop (C.twoPower + 1) C 1 j

/-- What is done in the chunk a buffer is taken from: the number of the buffer. -/
def takeBuffer (neighbor : Option ℕ) (draw : ℕ) : Except BufferFault (BufferChunk × ℕ) := do
  let (C', i) ← match neighbor with
    | some X => do
      let x ← C.getBufferNo X
      C.takeNeighbor x
    | none => C.takeRank draw
  let i : ℤ := i - C.twoPower
  assertBuffer (0 ≤ i ∧ i < C.totBuffers)
  return (C', i.toNat)

/-! ### Giving a buffer back -/

/-- `do { assert (++C->free_cnt[x] > 0); } while (x >>= 1);`. -/
def climbBack : ℕ → BufferChunk → ℕ → Except BufferFault BufferChunk
  | 0, _, _ => .error .endless
  | fuel + 1, C, x => do
    let C := C.incr x
    assertBuffer (0 < C.freeCnt x)
    if x / 2 = 0 then return C else climbBack fuel C (x / 2)

/-- `free_std_msg_buffer`, of the buffer at an address. -/
def freeStdMsgBuffer (X : ℕ) : Except BufferFault BufferChunk := do
  let x ← C.getBufferNo X
  let x := x + C.twoPower
  assertBuffer (C.freeCnt x = 0)
  climbBack (2 * C.twoPower) C x

end BufferChunk

end Server
end Teleproto3
