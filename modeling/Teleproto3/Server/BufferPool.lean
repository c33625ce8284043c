/-
# The pool of message buffers

`server/src/net/net-msg-buffers.c` hands out buffers of five sizes.  The chunks of a size are
linked into a circle through `ChunkHeaders`, the newest first, and `ChunkSave` keeps the one that
was used last, where the search for a free buffer begins.

A chunk is named by its size and by how many chunks of the size were made before it, and a buffer by
its chunk and its number.  `malloc` and `lrand48_j` are what the state says they return.  No chunk is
ever freed: nothing calls `free_msg_buffers_chunk`.
-/

import Mathlib.Logic.Function.Basic
import Teleproto3.Server.BufferChunks

namespace Teleproto3
namespace Server

/-- `default_buffer_sizes`. -/
def DEFAULT_BUFFER_SIZES : List ℕ := [48, 512, 2048, 16384, 262144]

/-- `ChunkHeaders[si].buffer_size`. -/
def bufferSizeOf (si : ℕ) : ℕ := DEFAULT_BUFFER_SIZES.getD si 0

/-- `while (si > 0 && ChunkHeaders[si-1].buffer_size >= size_hint) { si--; }`. -/
def sizeIndexLoop (sizeHint : ℤ) : ℕ → ℕ
  | 0 => 0
  | si + 1 => if sizeHint ≤ bufferSizeOf si then sizeIndexLoop sizeHint si else si + 1

/-- The size a call of `alloc_msg_buffer` takes: at least the one asked for, -1 is the largest. -/
def sizeIndex (sizeHint : ℤ) : ℕ :=
  let si := DEFAULT_BUFFER_SIZES.length - 1
  if 0 ≤ sizeHint then sizeIndexLoop sizeHint si else si

/-- `struct msg_buffer *`. -/
structure BufferRef where
  si : ℕ
  chunk : ℕ
  no : ℕ
  deriving DecidableEq, Repr

/-- The static data of `net-msg-buffers.c`. -/
structure BufferPool where
  chunks : ℕ → List BufferChunk
  chunkSave : ℕ → Option ℕ
  allocatedBufferChunks : ℕ
  maxBufferChunks : ℕ
  /-- what each `malloc` of a chunk returns -/
  malloc : ℕ → Option ℕ
  mallocs : ℕ
  /-- what `lrand48_j` returns -/
  draws : ℕ → ℕ
  drawn : ℕ

/-- `C->ch_next` among `n` chunks: the one made before, then the head, then the newest. -/
def chNext (n : ℕ) : Option ℕ → Option ℕ
  | none => if n = 0 then none else some (n - 1)
  | some 0 => none
  | some (c + 1) => some c

namespace BufferPool

variable (P : BufferPool)

/-- A pointer to a chunk is followed. -/
def chunkAt (si c : ℕ) : Except BufferFault BufferChunk :=
  match (P.chunks si)[c]? with
  | some C => .ok C
  | none => .error .memory

/-- `alloc_new_msg_buffers_chunk`: a chunk of the size, if there may be one more and `malloc` has
memory for it. -/
def allocChunk (si : ℕ) : Except BufferFault (Option ℕ × BufferPool) :=
  if P.maxBufferChunks ≤ P.allocatedBufferChunks then .ok (none, P)
  else
    let Q := { P with mallocs := P.mallocs + 1 }
    match P.malloc P.mallocs with
    | none => .ok (none, Q)
    | some address => do
      let C ← allocNewMsgBuffersChunk address (bufferSizeOf si)
      return (some (P.chunks si).length, { Q with
        chunks := Function.update P.chunks si (P.chunks si ++ [C])
        allocatedBufferChunks := P.allocatedBufferChunks + 1 })

/-- `do { ... } while (C != CF);`: the first chunk from `C` on that has a free buffer. -/
def searchLoop (si : ℕ) (CF : Option ℕ) : ℕ → Option ℕ → Except BufferFault (Option ℕ)
  | 0, _ => .error .endless
  | fuel + 1, C =>
    let next := chNext (P.chunks si).length C
    match C with
    | none => if next = CF then .ok none else searchLoop si CF fuel next
    | some c => do
      let C ← P.chunkAt si c
      if C.freeCnt 1 = 0 then
        if next = CF then return none else searchLoop si CF fuel next
      else return some c

/-- The chunk to take a buffer from. -/
def chunkFor (si : ℕ) : Except BufferFault (Option ℕ × BufferPool) :=
  match P.chunkSave si with
  | none => P.allocChunk si
  | some hint => do
    let C ← P.chunkAt si hint
    if C.freeCnt 1 ≠ 0 then return (some hint, P)
    match ← P.searchLoop si (some hint) ((P.chunks si).length + 2) (some hint) with
    | some c => return (some c, P)
    | none => P.allocChunk si

/-- `neighbor && neighbor->chunk == C`: the address of the neighbour. -/
def nearAddress (neighbor : Option BufferRef) (si c : ℕ) (C : BufferChunk) : Option ℕ :=
  match neighbor with
  | some X => if X.si = si ∧ X.chunk = c then some (C.bufferAt X.no) else none
  | none => none

/-- `alloc_msg_buffer_internal`, behind the choice of the chunk. -/
def takeFrom (neighbor : Option BufferRef) (si c : ℕ) :
    Except BufferFault (BufferRef × BufferPool) := do
  let C ← P.chunkAt si c
  assertBuffer (C.freeCnt 1 ≠ 0)
  let near := nearAddress neighbor si c C
  let (C', no) ← C.takeBuffer near (P.draws P.drawn)
  return (⟨si, c, no⟩, { P with
    chunks := Function.update P.chunks si ((P.chunks si).set c C')
    chunkSave := Function.update P.chunkSave si (some c)
    drawn := if near = none then P.drawn + 1 else P.drawn })

/-- `alloc_msg_buffer`. -/
def allocMsgBuffer (neighbor : Option BufferRef) (sizeHint : ℤ) :
    Except BufferFault (Option BufferRef × BufferPool) := do
  let si := sizeIndex sizeHint
  let (found, P) ← P.chunkFor si
  match found with
  | none => return (none, P)
  | some c => do
    let (X, P) ← P.takeFrom neighbor si c
    return (some X, P)

/-- `free_msg_buffer`. -/
def freeMsgBuffer (X : BufferRef) : Except BufferFault BufferPool := do
  let C ← P.chunkAt X.si X.chunk
  let C' ← C.freeStdMsgBuffer (C.bufferAt X.no)
  return { P with chunks := Function.update P.chunks X.si ((P.chunks X.si).set X.chunk C') }

/-- The buffer is one of a chunk, and was handed out: its leaf carries 0. -/
def Used (X : BufferRef) : Prop :=
  ∃ C, (P.chunks X.si)[X.chunk]? = some C ∧ X.no < C.totBuffers ∧
    C.freeCnt (C.twoPower + X.no) = 0

instance (X : BufferRef) : Decidable (P.Used X) :=
  match h : (P.chunks X.si)[X.chunk]? with
  | none => isFalse fun ⟨_, hC, _⟩ => nomatch h.symm.trans hC
  | some C =>
    decidable_of_iff (X.no < C.totBuffers ∧ C.freeCnt (C.twoPower + X.no) = 0)
      ⟨fun hC => ⟨C, h, hC⟩, fun ⟨_, hD, hX⟩ => Option.some.inj (h.symm.trans hD) ▸ hX⟩

/-- `init_msg_buffers`, for a limit in bytes. -/
def init (maxBufferBytes : ℕ) (malloc : ℕ → Option ℕ) (draws : ℕ → ℕ) : BufferPool where
  chunks _ := []
  chunkSave _ := none
  allocatedBufferChunks := 0
  maxBufferChunks := maxBufferBytes / MSG_BUFFERS_CHUNK_SIZE
  malloc := malloc
  mallocs := 0
  draws := draws
  drawn := 0

end BufferPool

end Server
end Teleproto3
