/-
# The client's ring buffer

`ring_buf_t` of `lib/src/t3_client_stream.c` (lines 82-147) queues bytes in
front of the TLS socket, behind it, and twice on the way to the caller.  It is
a block of `cap` bytes with a read position `head` and a write position `tail`.

Free space is counted as `cap - (tail - head)`, so the bytes before `head`
count as free, while a write always goes to `tail`.  Compaction would bring the
two together, but `ring_append` compacts only when the count is short, and
compaction does not change the count: `ringAvail_ringCompact`.  So the branch
that compacts never leads to a write, and `ringAppend_cases` has just two cases.

As a queue the ring is right in every run.  As a block of memory it is right
exactly as long as every append that is accepted also fits behind `tail`:
`ringRun_sound_iff`.
-/

import Teleproto3.Lib.Memory
import Teleproto3.Lib.Runs

namespace Teleproto3
namespace Client

open Lib

/-- `RING_CAP`: 8 MiB. -/
def RING_CAP : ℕ := 8 * 1024 * 1024

/-- `ring_buf_t`.  The two fields of proofs are what every operation keeps: the
read position never passes the write position, and no more than `cap` bytes are
queued, so that the unsigned subtractions of the source never wrap. -/
structure RingBuf where
  /-- the block `data` points to -/
  data : Mem
  /-- read position -/
  head : ℕ
  /-- write position -/
  tail : ℕ
  /-- bytes allocated -/
  cap : ℕ
  head_le_tail : head ≤ tail
  used_le_cap : tail - head ≤ cap

/-- `ring_init`, for any capacity and any content of the block it allocates. -/
def ringInit (cap : ℕ) (data : Mem) : RingBuf where
  data := data
  head := 0
  tail := 0
  cap := cap
  head_le_tail := Nat.le_refl 0
  used_le_cap := Nat.zero_le cap

/-- `ring_used`. -/
def ringUsed (r : RingBuf) : ℕ := r.tail - r.head

/-- `ring_avail`: the space before `head` counts as free. -/
def ringAvail (r : RingBuf) : ℕ := r.cap - ringUsed r

/-- `ring_compact`. -/
def ringCompact (r : RingBuf) : RingBuf :=
  if 0 < r.head ∧ 0 < ringUsed r then
    { data := memMove r.data 0 r.head (ringUsed r)
      head := 0
      tail := r.tail - r.head
      cap := r.cap
      head_le_tail := Nat.zero_le _
      used_le_cap := r.used_le_cap }
  else if ringUsed r = 0 then
    { r with head := 0, tail := 0, head_le_tail := Nat.le_refl 0, used_le_cap := Nat.zero_le _ }
  else r

/-- The last two statements of `ring_append`: `memcpy` to `tail`, and advance it. -/
def ringPut (r : RingBuf) (bs : Bytes) (h : bs.length ≤ ringAvail r) : RingBuf where
  data := memWrite r.data r.tail bs
  head := r.head
  tail := r.tail + bs.length
  cap := r.cap
  head_le_tail := Nat.le_add_right_of_le r.head_le_tail
  used_le_cap := by
    have h1 := r.head_le_tail
    have h2 := r.used_le_cap
    simp only [ringAvail, ringUsed] at h
    omega

/-- `ring_append`: the ring after the call and the value returned. -/
def ringAppend (r : RingBuf) (bs : Bytes) : RingBuf × ℤ :=
  if h : bs.length ≤ ringAvail r then (ringPut r bs h, 0)
  else if h' : bs.length ≤ ringAvail (ringCompact r) then (ringPut (ringCompact r) bs h', 0)
  else (ringCompact r, -1)

/-- `ring_consume`. -/
def ringConsume (r : RingBuf) (n : ℕ) : RingBuf :=
  if h : r.tail ≤ r.head + n then
    { r with head := 0, tail := 0, head_le_tail := Nat.le_refl 0, used_le_cap := Nat.zero_le _ }
  else
    { r with
      head := r.head + n
      head_le_tail := Nat.le_of_lt (Nat.lt_of_not_le h)
      used_le_cap := Nat.le_trans (Nat.sub_le_sub_left (Nat.le_add_right _ _) _) r.used_le_cap }

/-- What `ring_read_ptr` hands out: the bytes between `head` and `tail`. -/
def ringContents (r : RingBuf) : Bytes := memRead r.data r.head (ringUsed r)

@[simp] theorem ringContents_length (r : RingBuf) : (ringContents r).length = ringUsed r :=
  memRead_length _ _ _

@[simp] theorem ringUsed_ringInit (cap : ℕ) (m : Mem) : ringUsed (ringInit cap m) = 0 := rfl

@[simp] theorem ringContents_ringInit (cap : ℕ) (m : Mem) : ringContents (ringInit cap m) = [] :=
  rfl

theorem ringUsed_le_cap (r : RingBuf) : ringUsed r ≤ r.cap := r.used_le_cap

/-! ### Compaction -/

@[simp] theorem ringCompact_cap (r : RingBuf) : (ringCompact r).cap = r.cap := by
  unfold ringCompact
  split_ifs <;> rfl

@[simp] theorem ringUsed_ringCompact (r : RingBuf) : ringUsed (ringCompact r) = ringUsed r := by
  unfold ringCompact
  split_ifs with h1 h2
  · rfl
  · exact h2.symm
  · rfl

/-- **Compaction never makes room.**  The count of free bytes is the same before
and after it. -/
@[simp] theorem ringAvail_ringCompact (r : RingBuf) : ringAvail (ringCompact r) = ringAvail r := by
  simp only [ringAvail, ringCompact_cap, ringUsed_ringCompact]

/-- Compaction moves the write position down, never up. -/
theorem ringCompact_tail_le (r : RingBuf) : (ringCompact r).tail ≤ r.tail := by
  unfold ringCompact
  split_ifs
  · exact Nat.sub_le _ _
  · exact Nat.zero_le _
  · exact Nat.le_refl _

/-- Compaction keeps the queued bytes. -/
@[simp] theorem ringContents_ringCompact (r : RingBuf) :
    ringContents (ringCompact r) = ringContents r := by
  unfold ringCompact
  split_ifs with h1 h2
  · exact memRead_memMove_same r.data (ringUsed r) 0 r.head
  · simp only [ringContents, h2]
    rfl
  · rfl

/-! ### Append -/

@[simp] theorem ringUsed_ringPut (r : RingBuf) (bs : Bytes) (h : bs.length ≤ ringAvail r) :
    ringUsed (ringPut r bs h) = ringUsed r + bs.length := by
  have := r.head_le_tail
  simp only [ringUsed, ringPut]
  omega

/-- The bytes put into the ring stand behind those queued before. -/
theorem ringContents_ringPut (r : RingBuf) (bs : Bytes) (h : bs.length ≤ ringAvail r) :
    ringContents (ringPut r bs h) = ringContents r ++ bs := by
  have hle := r.head_le_tail
  have htail : r.head + ringUsed r = r.tail := by
    simp only [ringUsed]
    omega
  rw [ringContents, ringUsed_ringPut, memRead_add]
  simp only [ringPut]
  rw [htail, memRead_memWrite_same, memRead_memWrite_before _ _ _ _ (by omega)]
  rfl

/-- **Append has two cases.**  It accepts when the queued bytes and the new ones
together are no more than the capacity, and writes at the write position it
found; it refuses otherwise, and then compacts. -/
theorem ringAppend_cases (r : RingBuf) (bs : Bytes) :
    (∃ h : bs.length ≤ ringAvail r,
        ringUsed r + bs.length ≤ r.cap ∧ ringAppend r bs = (ringPut r bs h, 0)) ∨
      (r.cap < ringUsed r + bs.length ∧ ringAppend r bs = (ringCompact r, -1)) := by
  have hcap := ringUsed_le_cap r
  unfold ringAppend
  by_cases h : bs.length ≤ ringAvail r
  · refine Or.inl ⟨h, ?_, dif_pos h⟩
    simp only [ringAvail] at h
    omega
  · refine Or.inr ⟨?_, ?_⟩
    · simp only [ringAvail] at h
      omega
    · rw [dif_neg h, dif_neg (by rwa [ringAvail_ringCompact])]

/-- Append says so when it accepts, and accepts exactly when there is room for
the queued bytes and the new ones together. -/
theorem ringAppend_ok_iff (r : RingBuf) (bs : Bytes) :
    (ringAppend r bs).2 = 0 ↔ ringUsed r + bs.length ≤ r.cap := by
  rcases ringAppend_cases r bs with ⟨h, hle, heq⟩ | ⟨hlt, heq⟩
  · simp only [heq, hle]
  · simp only [heq]
    omega

@[simp] theorem ringAppend_cap (r : RingBuf) (bs : Bytes) : (ringAppend r bs).1.cap = r.cap := by
  rcases ringAppend_cases r bs with ⟨h, -, heq⟩ | ⟨-, heq⟩ <;> rw [heq]
  · rfl
  · exact ringCompact_cap r

/-- What is queued after an append: the new bytes behind the old ones, or the
old ones alone. -/
theorem ringContents_ringAppend (r : RingBuf) (bs : Bytes) :
    ringContents (ringAppend r bs).1 =
      if ringUsed r + bs.length ≤ r.cap then ringContents r ++ bs else ringContents r := by
  rcases ringAppend_cases r bs with ⟨h, hle, heq⟩ | ⟨hlt, heq⟩ <;> rw [heq]
  · rw [if_pos hle]
    exact ringContents_ringPut r bs h
  · rw [if_neg (by omega)]
    exact ringContents_ringCompact r

/-- The addresses the `memcpy` of an append writes to. -/
def ringAppendWrites (r : RingBuf) (bs : Bytes) : List ℕ :=
  if bs.length ≤ ringAvail r then List.range' r.tail bs.length
  else if bs.length ≤ ringAvail (ringCompact r) then
    List.range' (ringCompact r).tail bs.length
  else []

/-- An accepted append writes the bytes from the write position on, a refused
one writes none. -/
theorem ringAppendWrites_eq (r : RingBuf) (bs : Bytes) :
    ringAppendWrites r bs =
      if ringUsed r + bs.length ≤ r.cap then List.range' r.tail bs.length else [] := by
  have hcap := ringUsed_le_cap r
  have hiff : bs.length ≤ ringAvail r ↔ ringUsed r + bs.length ≤ r.cap := by
    simp only [ringAvail]
    omega
  simp only [ringAppendWrites, ringAvail_ringCompact, hiff]
  split_ifs <;> rfl

/-! ### Consume -/

@[simp] theorem ringConsume_cap (r : RingBuf) (n : ℕ) : (ringConsume r n).cap = r.cap := by
  unfold ringConsume
  split_ifs <;> rfl

/-- Consuming takes bytes off the front. -/
theorem ringContents_ringConsume (r : RingBuf) (n : ℕ) :
    ringContents (ringConsume r n) = (ringContents r).drop n := by
  unfold ringConsume
  split_ifs with h
  · have hlen : (ringContents r).length ≤ n := by
      rw [ringContents_length, ringUsed]
      omega
    rw [List.drop_eq_nil_of_le hlen]
    rfl
  · have hn : n ≤ ringUsed r := by
      simp only [ringUsed]
      omega
    rw [ringContents, ringContents, memRead_drop _ _ _ _ hn]
    simp only [ringUsed, Nat.sub_sub]

theorem ringUsed_ringConsume (r : RingBuf) (n : ℕ) :
    ringUsed (ringConsume r n) = ringUsed r - n := by
  rw [← ringContents_length, ringContents_ringConsume, List.length_drop, ringContents_length]

/-- Consuming leaves the write position where it was, or resets it. -/
theorem ringConsume_tail_le (r : RingBuf) (n : ℕ) : (ringConsume r n).tail ≤ r.tail := by
  unfold ringConsume
  split_ifs
  · exact Nat.zero_le _
  · exact Nat.le_refl _

/-- Unless it empties the ring, consuming leaves the write position alone. -/
theorem ringConsume_tail_of_lt (r : RingBuf) (n : ℕ) (h : n < ringUsed r) :
    (ringConsume r n).tail = r.tail := by
  have hlt : ¬ r.tail ≤ r.head + n := by
    simp only [ringUsed] at h
    omega
  rw [ringConsume, dif_neg hlt]

/-- Consuming everything starts over at the front of the block. -/
theorem ringConsume_tail_of_le (r : RingBuf) (n : ℕ) (h : ringUsed r ≤ n) :
    (ringConsume r n).tail = 0 := by
  have hle : r.tail ≤ r.head + n := by
    have := r.head_le_tail
    simp only [ringUsed] at h
    omega
  rw [ringConsume, dif_pos hle]

/-! ### Runs -/

/-- The three operations on a ring. -/
inductive RingOp
  | append (bs : Bytes)
  | consume (n : ℕ)
  | compact

/-- A ring with the history the operations are judged by: every byte of every
append that reported success, how many bytes were consumed, and every address an
append wrote to. -/
structure RingRun where
  ring : RingBuf
  appended : Bytes
  consumed : ℕ
  written : List ℕ

namespace RingRun

/-- A ring just initialised. -/
def init (cap : ℕ) (data : Mem) : RingRun := ⟨ringInit cap data, [], 0, []⟩

/-- One operation. -/
def step (s : RingRun) : RingOp → RingRun
  | .append bs =>
    { s with
      ring := (ringAppend s.ring bs).1
      appended := if (ringAppend s.ring bs).2 = 0 then s.appended ++ bs else s.appended
      written := s.written ++ ringAppendWrites s.ring bs }
  | .consume n => { s with ring := ringConsume s.ring n, consumed := s.consumed + n }
  | .compact => { s with ring := ringCompact s.ring }

/-- The callers consume no more than `ring_used` bytes. -/
def Legal (s : RingRun) : RingOp → Prop
  | .consume n => n ≤ ringUsed s.ring
  | _ => True

/-- What the representation promises of a state. -/
structure Sound (s : RingRun) : Prop where
  head_le_tail : s.ring.head ≤ s.ring.tail
  tail_le_cap : s.ring.tail ≤ s.ring.cap
  written_lt_cap : ∀ i ∈ s.written, i < s.ring.cap
  contents : ringContents s.ring = s.appended.drop s.consumed

/-- **The condition.**  An append that finds enough free bytes by the count of
`ring_avail` finds them behind the write position. -/
def Fits (s : RingRun) : RingOp → Prop
  | .append bs => ringUsed s.ring + bs.length ≤ s.ring.cap → s.ring.tail + bs.length ≤ s.ring.cap
  | _ => True

instance (s : RingRun) (op : RingOp) : Decidable (s.Legal op) := by
  cases op <;> unfold Legal <;> infer_instance

instance (s : RingRun) (op : RingOp) : Decidable (s.Fits op) := by
  cases op <;> unfold Fits <;> infer_instance

/-- The ring as a queue: what was appended and not yet consumed, in order. -/
structure Queue (s : RingRun) : Prop where
  contents : ringContents s.ring = s.appended.drop s.consumed
  consumed_le : s.consumed ≤ s.appended.length

theorem init_queue (cap : ℕ) (data : Mem) : (init cap data).Queue := ⟨rfl, Nat.le_refl 0⟩

theorem init_sound (cap : ℕ) (data : Mem) : (init cap data).Sound where
  head_le_tail := Nat.le_refl 0
  tail_le_cap := Nat.zero_le cap
  written_lt_cap := by simp [init]
  contents := rfl

/-- **As a queue the ring is right in every run**, whether or not the writes
stay inside the block. -/
theorem step_queue (s : RingRun) (op : RingOp) (h : s.Queue) (hl : s.Legal op) :
    (s.step op).Queue := by
  obtain ⟨hc, hle⟩ := h
  cases op with
  | append bs =>
    simp only [step, ringAppend_ok_iff]
    by_cases hroom : ringUsed s.ring + bs.length ≤ s.ring.cap
    · refine ⟨?_, ?_⟩
      · simp only [ringContents_ringAppend, if_pos hroom, hc]
        rw [List.drop_append_of_le_length hle]
      · simp only [if_pos hroom, List.length_append]
        omega
    · refine ⟨?_, ?_⟩
      · simp only [ringContents_ringAppend, if_neg hroom, hc]
      · simpa only [if_neg hroom] using hle
  | consume n =>
    have hlen : ringUsed s.ring = s.appended.length - s.consumed := by
      rw [← ringContents_length, hc, List.length_drop]
    have hn : n ≤ ringUsed s.ring := hl
    refine ⟨?_, ?_⟩
    · simp only [step, ringContents_ringConsume, hc, List.drop_drop]
    · simp only [step]
      omega
  | compact =>
    refine ⟨?_, hle⟩
    simp only [step, ringContents_ringCompact, hc]

/-- One operation on a sound ring leaves it sound exactly when it fits. -/
theorem step_sound_iff (s : RingRun) (op : RingOp) (hq : s.Queue) (hl : s.Legal op)
    (h : s.Sound) : (s.step op).Sound ↔ s.Fits op := by
  have hq' := step_queue s op hq hl
  cases op with
  | append bs =>
    rcases ringAppend_cases s.ring bs with ⟨hav, hroom, heq⟩ | ⟨hfull, heq⟩
    · -- Accepted: the new write position is `tail + len`.
      constructor
      · intro hs _
        have htail := hs.tail_le_cap
        simpa only [step, heq, ringPut] using htail
      · intro hfit
        have htail : s.ring.tail + bs.length ≤ s.ring.cap := hfit hroom
        refine ⟨(s.step (.append bs)).ring.head_le_tail, ?_, ?_, hq'.contents⟩
        · simpa only [step, heq, ringPut] using htail
        · intro i hi
          simp only [step, heq, ringPut, ringAppendWrites_eq, if_pos hroom, List.mem_append,
            List.mem_range'_1] at hi ⊢
          rcases hi with hi | ⟨_, hi⟩
          · exact h.written_lt_cap i hi
          · omega
    · -- Refused: nothing is written, and compaction moves `tail` down.
      refine ⟨fun _ hroom => absurd hroom (by omega), fun _ => ?_⟩
      refine ⟨(s.step (.append bs)).ring.head_le_tail, ?_, ?_, hq'.contents⟩
      · simp only [step, heq, ringCompact_cap]
        exact (ringCompact_tail_le s.ring).trans h.tail_le_cap
      · intro i hi
        simp only [step, heq, ringCompact_cap, ringAppendWrites_eq,
          if_neg (Nat.not_le.mpr hfull), List.append_nil] at hi ⊢
        exact h.written_lt_cap i hi
  | consume n =>
    refine ⟨fun _ => trivial, fun _ => ?_⟩
    refine ⟨(s.step (.consume n)).ring.head_le_tail, ?_, ?_, hq'.contents⟩
    · simp only [step, ringConsume_cap]
      exact (ringConsume_tail_le s.ring n).trans h.tail_le_cap
    · simpa only [step, ringConsume_cap] using h.written_lt_cap
  | compact =>
    refine ⟨fun _ => trivial, fun _ => ?_⟩
    refine ⟨(s.step .compact).ring.head_le_tail, ?_, ?_, hq'.contents⟩
    · simp only [step, ringCompact_cap]
      exact (ringCompact_tail_le s.ring).trans h.tail_le_cap
    · simpa only [step, ringCompact_cap] using h.written_lt_cap

end RingRun

/-- **When the ring stays inside its block.**  In a run of legal operations from
`ring_init`, with any capacity, the representation is sound in every state
exactly when every append that is accepted also fits behind the write
position. -/
theorem ringRun_sound_iff (cap : ℕ) (data : Mem) (ops : List RingOp)
    (hlegal : Along RingRun.step RingRun.Legal (RingRun.init cap data) ops) :
    Throughout RingRun.step RingRun.Sound (RingRun.init cap data) ops ↔
      Along RingRun.step RingRun.Fits (RingRun.init cap data) ops :=
  throughout_iff_along (I := RingRun.Queue) RingRun.step_queue RingRun.step_sound_iff
    (RingRun.init_queue cap data) (RingRun.init_sound cap data) hlegal

/-- The hypothesis of `ringRun_sound_iff` holds of a run that consumes what it
appended, and the run is sound. -/
theorem ringRun_sound_iff_small :
    Throughout RingRun.step RingRun.Sound (RingRun.init 4 fun _ => 0)
      [.append [1, 2, 3], .consume 3, .append [4, 5]] :=
  (ringRun_sound_iff 4 (fun _ => 0) [.append [1, 2, 3], .consume 3, .append [4, 5]]
    ⟨trivial, by decide, trivial, trivial⟩).mpr
    ⟨by decide, trivial, by decide, trivial⟩

/-- The failing history, for a ring of any capacity above one byte: fill it, consume
one byte, append one byte.  After the first two operations one byte counts as
free while the write position stands at the end of the block. -/
theorem ringRun_overflows (cap : ℕ) (data : Mem) (bs : Bytes) (hcap : 2 ≤ cap)
    (hbs : bs.length = cap) :
    Along RingRun.step RingRun.Legal (RingRun.init cap data)
        [.append bs, .consume 1, .append [0]] ∧
      ¬ Throughout RingRun.step RingRun.Sound (RingRun.init cap data)
        [.append bs, .consume 1, .append [0]] := by
  set s1 := (RingRun.init cap data).step (.append bs) with hs1
  set s2 := s1.step (.consume 1) with hs2
  have hroom : bs.length ≤ ringAvail (ringInit cap data) := by
    simp only [ringAvail, ringUsed, ringInit]
    omega
  have hput : ringAppend (ringInit cap data) bs = (ringPut (ringInit cap data) bs hroom, 0) :=
    dif_pos hroom
  have hr1 : s1.ring = ringPut (ringInit cap data) bs hroom := congrArg Prod.fst hput
  have hused1 : ringUsed s1.ring = cap := by
    rw [hr1, ringUsed_ringPut, ringUsed_ringInit, Nat.zero_add, hbs]
  have htail1 : s1.ring.tail = cap := by
    simp only [hr1, ringPut, ringInit, Nat.zero_add, hbs]
  have hcap2 : s2.ring.cap = cap := by
    simp only [hs2, RingRun.step, ringConsume_cap, hr1, ringPut, ringInit]
  have hused2 : ringUsed s2.ring = cap - 1 := by
    simp only [hs2, RingRun.step, ringUsed_ringConsume, hused1]
  have htail2 : s2.ring.tail = cap := by
    simp only [hs2, RingRun.step]
    rw [ringConsume_tail_of_lt _ _ (by omega), htail1]
  have hlegal : s1.Legal (.consume 1) := by
    show 1 ≤ ringUsed s1.ring
    omega
  refine ⟨⟨trivial, hlegal, trivial, trivial⟩, fun h => ?_⟩
  have hq1 : s1.Queue := RingRun.step_queue _ _ (RingRun.init_queue cap data) trivial
  have hq2 : s2.Queue := RingRun.step_queue _ _ hq1 hlegal
  have hfits := (RingRun.step_sound_iff s2 (.append [0]) hq2 trivial h.2.2.1).mp h.2.2.2
  simp only [RingRun.Fits, List.length_singleton] at hfits
  omega

/-- **A write past the end of the block.**  The client's ring is filled, one byte is
consumed, and the next byte appended is accepted and written to address
`RING_CAP`. -/
theorem ringRun_not_sound :
    ¬ ∀ (cap : ℕ) (data : Mem) (ops : List RingOp),
      Along RingRun.step RingRun.Legal (RingRun.init cap data) ops →
        Throughout RingRun.step RingRun.Sound (RingRun.init cap data) ops := by
  intro h
  have hrun := ringRun_overflows RING_CAP (fun _ => 0) (List.replicate RING_CAP 0)
    (by simp only [RING_CAP]; omega) List.length_replicate
  exact hrun.2 (h _ _ _ hrun.1)

end Client
end Teleproto3
