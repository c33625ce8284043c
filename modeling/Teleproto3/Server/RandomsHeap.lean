/-
# The cache of randoms in memory

`client_randoms` of `server/src/net/net-tcp-rpc-ext-server.c` as the program keeps it: cells of
`struct client_random` linked twice, by `next_by_time` from the oldest to the youngest, and by
`next_by_hash` within a bucket.  An access to a cell that is not allocated, a failed assertion
and a walk that never ends are faults.

A deletion takes the oldest cell and cuts its chain in front of it, which loses nothing only
because the oldest cell is the last of its chain.  `RandomsHeap.Holds` ties both kinds of links
to one list of entries, and everything is read off it: what a call finds, what a deletion
removes, and that the heap is the cache of `ReplayCache` wherever no random comes twice.
-/

import Mathlib.Data.List.Nodup
import Teleproto3.Lib.LinkedList
import Teleproto3.Server.ReplayCache

namespace Teleproto3
namespace Server

open Lib ClientRandoms

/-! ### Memory -/

/-- `struct client_random`. -/
structure RandomCell where
  random : Bytes
  nextByTime : Option ℕ
  nextByHash : Option ℕ
  time : ℤ
  deriving DecidableEq, Repr

/-- What a cell holds besides its links. -/
def RandomCell.entry (c : RandomCell) : ClientRandom := ⟨c.random, c.time⟩

/-- How a call fails. -/
inductive RandomsFault
  /-- `assert (first_client_random == NULL)` -/
  | firstNull
  /-- `assert (first_client_random != NULL)` -/
  | firstNotNull
  /-- `assert (entry->next_by_hash == NULL)` -/
  | nextByHash
  /-- an access through a pointer to no cell -/
  | memory
  /-- a walk over more cells than there are comes by a cell twice, and never ends -/
  | endless
  deriving DecidableEq, Repr

/-- The cells with their number, `client_randoms`, `first_client_random` and
`last_client_random`. -/
structure RandomsHeap where
  cells : ℕ → Option RandomCell
  allocated : ℕ
  buckets : ℕ → Option ℕ
  first : Option ℕ
  last : Option ℕ

/-- A pointer to a cell that can be written: a bucket's, or the link of another cell. -/
inductive HashLink
  | bucket (i : ℕ)
  | nextByHash (a : ℕ)
  deriving DecidableEq, Repr

/-- `RANDOM_HASH_BITS`. -/
def RANDOM_HASH_BITS : ℕ := 14

/-- The loop of `get_client_random_bucket`, with `i` bits still to come. -/
def bucketLoop (random : Bytes) (i pos id : ℕ) : ℕ :=
  if 0 < i then
    let bits := if i < 8 then i else 8
    bucketLoop random (i - bits) (pos + 1) (id * 2 ^ bits + (random.getD pos 0).toNat % 2 ^ bits)
  else id
termination_by i
decreasing_by split_ifs <;> omega

/-- The loop takes all of the first byte and part of the second. -/
theorem bucketLoop_eq (random : Bytes) :
    bucketLoop random RANDOM_HASH_BITS 0 0 = getClientRandomBucket random := by
  simp [bucketLoop, RANDOM_HASH_BITS, getClientRandomBucket]

/-- **The bucket is one there is**, so the assertion of `get_client_random_bucket` holds. -/
theorem getClientRandomBucket_lt (random : Bytes) :
    getClientRandomBucket random < 2 ^ RANDOM_HASH_BITS := by
  have hbyte : (random.getD 0 0).toNat < 2 ^ 8 := (random.getD 0 0).toNat_lt
  have hpart : (random.getD 1 0).toNat % 2 ^ 6 < 2 ^ 6 := Nat.mod_lt _ (by decide)
  unfold getClientRandomBucket RANDOM_HASH_BITS
  omega

namespace RandomsHeap

/-- The heap as the program starts. -/
def empty : RandomsHeap := ⟨fun _ => none, 0, fun _ => none, none, none⟩

variable (m : RandomsHeap)

/-- A cell is read. -/
def load (a : ℕ) : Except RandomsFault RandomCell :=
  match m.cells a with
  | some c => .ok c
  | none => .error .memory

/-- A cell is written. -/
def store (a : ℕ) (c : RandomCell) : RandomsHeap :=
  { m with cells := Function.update m.cells a (some c) }

/-- `malloc`, which has found room at `a`. -/
def malloc (a : ℕ) (c : RandomCell) : RandomsHeap :=
  { m.store a c with allocated := m.allocated + 1 }

/-- `free`. -/
def free (a : ℕ) : RandomsHeap :=
  { m with cells := Function.update m.cells a none, allocated := m.allocated - 1 }

/-- `*cur`. -/
def loadLink : HashLink → Except RandomsFault (Option ℕ)
  | .bucket i => .ok (m.buckets i)
  | .nextByHash a => (m.load a).map RandomCell.nextByHash

/-- `*cur = p`. -/
def storeLink (p : Option ℕ) : HashLink → Except RandomsFault RandomsHeap
  | .bucket i => .ok { m with buckets := Function.update m.buckets i p }
  | .nextByHash a => (m.load a).map fun c => m.store a { c with nextByHash := p }

/-! ### The calls -/

/-- The loop of `have_client_random`. -/
def haveLoop (random : Bytes) : ℕ → Option ℕ → Except RandomsFault Bool
  | 0, _ => .error .endless
  | _ + 1, none => .ok false
  | n + 1, some cur =>
    (m.load cur).bind fun c =>
      if random.take 16 = c.random then .ok true else haveLoop random n c.nextByHash

/-- `have_client_random`. -/
def haveClientRandom (random : Bytes) : Except RandomsFault Bool :=
  m.haveLoop random (m.allocated + 1) (m.buckets (getClientRandomBucket random))

/-- The new cell is put at the end of the list by time. -/
def linkByTime (entry : ℕ) : Except RandomsFault RandomsHeap :=
  match m.last with
  | none =>
    if m.first ≠ none then .error .firstNull
    else .ok { m with first := some entry, last := some entry }
  | some a =>
    (m.load a).map fun c =>
      { m.store a { c with nextByTime := some entry } with last := some entry }

/-- The new cell is put at the head of its chain. -/
def linkByHash (random : Bytes) (entry : ℕ) : Except RandomsFault RandomsHeap :=
  let i := getClientRandomBucket random
  (m.load entry).map fun c =>
    { m.store entry { c with nextByHash := m.buckets i } with
      buckets := Function.update m.buckets i (some entry) }

/-- `add_client_random`, where `malloc` returns `entry`. -/
def addClientRandom (now : ℤ) (random : Bytes) (entry : ℕ) : Except RandomsFault RandomsHeap :=
  -- `next_by_hash` is written last, and not read before.
  ((m.malloc entry ⟨random.take 16, none, none, now⟩).linkByTime entry).bind fun m =>
    m.linkByHash random entry

/-- The loop of `delete_old_client_randoms` that looks for the pointer to `entry`. -/
def findLink (entry : ℕ) : ℕ → HashLink → Except RandomsFault HashLink
  | 0, _ => .error .endless
  | n + 1, cur =>
    (m.loadLink cur).bind fun p =>
      match p with
      | none => .error .memory
      | some a => if a = entry then .ok cur else findLink entry n (.nextByHash a)

/-- The body of the loop of `delete_old_client_randoms` behind its first two tests: the oldest
cell leaves. -/
def deleteFirst (a : ℕ) (entry : RandomCell) : Except RandomsFault RandomsHeap :=
  if entry.nextByHash ≠ none then .error .nextByHash
  else
    let m := { m with first := entry.nextByTime }
    (m.findLink a (m.allocated + 1) (.bucket (getClientRandomBucket entry.random))).bind fun cur =>
      (m.storeLink none cur).map fun m => m.free a

/-- The loop of `delete_old_client_randoms`. -/
def deleteLoop (now : ℤ) : ℕ → RandomsHeap → Except RandomsFault RandomsHeap
  | 0, _ => .error .endless
  | n + 1, m =>
    if m.first = m.last then .ok m
    else
      match m.first with
      | none => .error .firstNotNull
      | some a =>
        (m.load a).bind fun entry =>
          if entry.time > now - MAX_CLIENT_RANDOM_CACHE_TIME then .ok m
          else (m.deleteFirst a entry).bind (deleteLoop now n)

/-- `delete_old_client_randoms`.  Each turn frees a cell. -/
def deleteOldClientRandoms (now : ℤ) : Except RandomsFault RandomsHeap :=
  deleteLoop now (m.allocated + 1) m

/-! ### The list a heap holds -/

/-- The addresses of a list of entries. -/
def addresses (l : List (ℕ × ClientRandom)) : List ℕ := l.map Prod.fst

/-- The entries of a bucket, the youngest first. -/
def hashChain (l : List (ℕ × ClientRandom)) (i : ℕ) : List ℕ :=
  (addresses (l.filter fun x => getClientRandomBucket x.2.random = i)).reverse

/-- **The heap holds a list of entries**, the oldest first: they are its cells, each once, linked
by time in this order and by hash in the other, bucket by bucket. -/
structure Holds (l : List (ℕ × ClientRandom)) : Prop where
  distinct : (addresses l).Nodup
  cells : ∀ x ∈ l, (m.cells x.1).map RandomCell.entry = some x.2
  others : ∀ a, a ∉ addresses l → m.cells a = none
  allocated : m.allocated = l.length
  byTime : Segment m.cells RandomCell.nextByTime m.first (addresses l) none
  last : m.last = (addresses l).getLast?
  byHash : ∀ i, Segment m.cells RandomCell.nextByHash (m.buckets i) (hashChain l i) none

theorem empty_holds : empty.Holds [] where
  distinct := List.nodup_nil
  cells := by simp
  others _ _ := rfl
  allocated := rfl
  byTime := rfl
  last := rfl
  byHash _ := rfl

/-- When an entry came. -/
def entryTime (x : ℕ × ClientRandom) : ℤ := x.2.time

@[simp] theorem addresses_nil : addresses [] = [] := rfl

@[simp] theorem addresses_cons (x : ℕ × ClientRandom) (l : List (ℕ × ClientRandom)) :
    addresses (x :: l) = x.1 :: addresses l := rfl

@[simp] theorem addresses_append (l l' : List (ℕ × ClientRandom)) :
    addresses (l ++ l') = addresses l ++ addresses l' := List.map_append

theorem mem_addresses {l : List (ℕ × ClientRandom)} {a : ℕ} :
    a ∈ addresses l ↔ ∃ e, (a, e) ∈ l := by
  simp [addresses]

theorem mem_hashChain {l : List (ℕ × ClientRandom)} {i a : ℕ} :
    a ∈ hashChain l i ↔ ∃ e, (a, e) ∈ l ∧ getClientRandomBucket e.random = i := by
  simp [hashChain, addresses]

/-- A new entry heads its chain. -/
theorem hashChain_concat (l : List (ℕ × ClientRandom)) (x : ℕ × ClientRandom) (i : ℕ) :
    hashChain (l ++ [x]) i =
      if getClientRandomBucket x.2.random = i then x.1 :: hashChain l i else hashChain l i := by
  unfold hashChain
  rw [List.filter_append]
  split_ifs with hi <;> simp [hi]

/-- The oldest entry is the last of its chain. -/
theorem hashChain_cons (l : List (ℕ × ClientRandom)) (x : ℕ × ClientRandom) (i : ℕ) :
    hashChain (x :: l) i =
      if getClientRandomBucket x.2.random = i then hashChain l i ++ [x.1] else hashChain l i := by
  unfold hashChain
  split_ifs with hi <;> simp [hi]

namespace Holds

variable {m} {l : List (ℕ × ClientRandom)}

/-- The cell of an entry. -/
theorem cell (h : m.Holds l) {a : ℕ} (ha : a ∈ addresses l) :
    ∃ c, m.cells a = some c ∧ (a, c.entry) ∈ l := by
  obtain ⟨e, he⟩ := mem_addresses.mp ha
  obtain ⟨c, hc, hentry⟩ := Option.map_eq_some_iff.mp (h.cells _ he)
  exact ⟨c, hc, hentry ▸ he⟩

theorem entry_eq (h : m.Holds l) {a : ℕ} {c : RandomCell} {e : ClientRandom}
    (hc : m.cells a = some c) (he : (a, e) ∈ l) : c.entry = e := by
  have hentry := h.cells _ he
  rw [show m.cells (a, e).1 = some c from hc] at hentry
  exact Option.some.inj hentry

/-- A heap holds one list. -/
theorem unique {l' : List (ℕ × ClientRandom)} (h : m.Holds l) (h' : m.Holds l') : l = l' := by
  have hread {l : List (ℕ × ClientRandom)} (h : m.Holds l) :
      l.map (fun x => (x.1, some x.2)) =
        (addresses l).map fun a => (a, (m.cells a).map RandomCell.entry) := by
    rw [addresses, List.map_map]
    exact List.map_congr_left fun x hx => congrArg (Prod.mk x.1) (h.cells x hx).symm
  have hsame : addresses l = addresses l' := h.byTime.unique h'.byTime
  refine List.map_injective_iff.mpr ?_ ((hread h).trans ((congrArg _ hsame).trans (hread h').symm))
  rintro ⟨a, e⟩ ⟨a', e'⟩ heq
  simpa using heq

theorem load (h : m.Holds l) {a : ℕ} (ha : a ∈ addresses l) :
    ∃ c, m.load a = .ok c ∧ m.cells a = some c ∧ (a, c.entry) ∈ l := by
  obtain ⟨c, hc, hmem⟩ := h.cell ha
  refine ⟨c, ?_, hc, hmem⟩
  rw [RandomsHeap.load, hc]

/-- A cell is in the chain of its own bucket. -/
theorem bucket_of_mem (h : m.Holds l) {a i : ℕ} {c : RandomCell} (hc : m.cells a = some c)
    (ha : a ∈ hashChain l i) : getClientRandomBucket c.random = i := by
  obtain ⟨e, he, hi⟩ := mem_hashChain.mp ha
  rw [← h.entry_eq hc he] at hi
  exact hi

theorem hashChain_subset {i a : ℕ} (ha : a ∈ hashChain l i) : a ∈ addresses l := by
  obtain ⟨e, he, -⟩ := mem_hashChain.mp ha
  exact mem_addresses.mpr ⟨e, he⟩

theorem hashChain_length (l : List (ℕ × ClientRandom)) (i : ℕ) :
    (hashChain l i).length ≤ l.length := by
  rw [hashChain, List.length_reverse, addresses, List.length_map]
  exact List.length_filter_le _ _

/-! ### Looking up -/

/-- The walk along a chain finds what is in it. -/
theorem haveLoop_eq {random : Bytes} {p : Option ℕ} {chain : List ℕ}
    (h : Segment m.cells RandomCell.nextByHash p chain none) {n : ℕ} (hn : chain.length < n) :
    m.haveLoop random n p = .ok (chain.any fun a =>
      (m.cells a).any fun c => random.take 16 = c.random) := by
  induction chain generalizing p n with
  | nil =>
    obtain ⟨n, rfl⟩ := Nat.exists_eq_succ_of_ne_zero (Nat.ne_of_gt hn)
    obtain rfl : p = none := h
    rfl
  | cons a chain ih =>
    obtain ⟨n, rfl⟩ := Nat.exists_eq_succ_of_ne_zero (Nat.ne_of_gt (Nat.zero_lt_of_lt hn))
    obtain ⟨rfl, c, hc, hrest⟩ := h
    have hload : m.load a = .ok c := by rw [RandomsHeap.load, hc]
    rw [haveLoop, hload]
    dsimp only [Except.bind]
    split_ifs with hsame
    · simp [hc, hsame]
    · rw [ih hrest (by simpa using hn)]
      simp [hc, hsame]

/-- **A random is found when it is in the list.** -/
theorem haveClientRandom_eq (h : m.Holds l) (random : Bytes) :
    m.haveClientRandom random = .ok (l.any fun x => random.take 16 = x.2.random) := by
  rw [haveClientRandom, haveLoop_eq (h.byHash _)
    (by rw [h.allocated]; exact Nat.lt_succ_of_le (hashChain_length l _))]
  refine congrArg Except.ok (Bool.eq_iff_iff.mpr ?_)
  simp only [List.any_eq_true, Option.any_eq_true, decide_eq_true_eq]
  constructor
  · rintro ⟨a, ha, c, hc, hsame⟩
    obtain ⟨e, he, -⟩ := mem_hashChain.mp ha
    exact ⟨(a, e), he, by rw [← h.entry_eq hc he]; exact hsame⟩
  · rintro ⟨⟨a, e⟩, he, hsame⟩
    obtain ⟨c, hc, hmem⟩ := h.cell (mem_addresses.mpr ⟨e, he⟩)
    obtain rfl := h.entry_eq hc he
    refine ⟨a, mem_hashChain.mpr ⟨c.entry, he, ?_⟩, c, hc, hsame⟩
    rw [← show random.take 16 = c.entry.random from hsame, getClientRandomBucket_take]

/-! ### Taking in an entry -/

/-- Room is found where no cell is. -/
theorem not_mem_of_fresh (h : m.Holds l) {a : ℕ} (hfresh : m.cells a = none) :
    a ∉ addresses l := by
  intro ha
  obtain ⟨c, hc, -⟩ := h.cell ha
  rw [hfresh] at hc
  exact absurd hc (by simp)

/-- **The new cell ends the list by time.**  All else about the cells there were is as it was. -/
theorem linkByTime_spec (h : m.Holds l) {a : ℕ} (hfresh : m.cells a = none) {c : RandomCell}
    (hc : c.nextByTime = none) :
    ∃ m', (m.malloc a c).linkByTime a = .ok m' ∧ m'.cells a = some c ∧
      (∀ b, b ≠ a → (m'.cells b).map RandomCell.entry = (m.cells b).map RandomCell.entry ∧
        (m'.cells b).map RandomCell.nextByHash = (m.cells b).map RandomCell.nextByHash) ∧
      Segment m'.cells RandomCell.nextByTime m'.first (addresses l ++ [a]) none ∧
      m'.last = some a ∧ m'.buckets = m.buckets ∧ m'.allocated = m.allocated + 1 := by
  have hnew : (m.malloc a c).cells a = some c := Function.update_self ..
  have hold {b : ℕ} (hb : b ≠ a) : (m.malloc a c).cells b = m.cells b :=
    Function.update_of_ne hb ..
  rcases List.eq_nil_or_concat l with rfl | ⟨l, x, rfl⟩
  · have hlast : (m.malloc a c).last = none := h.last
    have hfirst : (m.malloc a c).first = none := h.byTime
    refine ⟨{ m.malloc a c with first := some a, last := some a }, ?_, hnew,
      fun b hb => ⟨by rw [hold hb], by rw [hold hb]⟩, ⟨rfl, c, hnew, hc⟩, rfl, rfl, rfl⟩
    rw [linkByTime, hlast, hfirst]
    rfl
  · have hnodup := h.distinct
    rw [List.concat_eq_append] at h hnodup ⊢
    rw [addresses_append] at hnodup
    have hbyTime := h.byTime
    rw [addresses_append, addresses_cons, addresses_nil, segment_concat] at hbyTime
    obtain ⟨hbefore, d, hd, -⟩ := hbyTime
    have hxa : x.1 ≠ a := by
      rintro rfl
      rw [hfresh] at hd
      exact absurd hd (by simp)
    have hlast : (m.malloc a c).last = some x.1 := by
      rw [show (m.malloc a c).last = m.last from rfl, h.last]
      simp
    have hload : (m.malloc a c).load x.1 = .ok d := by
      rw [RandomsHeap.load, hold hxa, hd]
    obtain ⟨m', hm'⟩ : ∃ m', m' =
      { (m.malloc a c).store x.1 { d with nextByTime := some a } with last := some a } := ⟨_, rfl⟩
    have hself : m'.cells x.1 = some { d with nextByTime := some a } :=
      hm' ▸ Function.update_self ..
    have hother {b : ℕ} (hb : b ≠ x.1) : m'.cells b = (m.malloc a c).cells b :=
      hm' ▸ Function.update_of_ne hb ..
    refine ⟨m', ?_, (hother hxa.symm).trans hnew, fun b hb => ?_, ?_, hm' ▸ rfl, hm' ▸ rfl,
      hm' ▸ rfl⟩
    · rw [linkByTime, hlast]
      dsimp only
      rw [hload, hm']
      rfl
    · rcases eq_or_ne b x.1 with rfl | hbx
      · rw [hself, hd]
        exact ⟨rfl, rfl⟩
      · rw [hother hbx, hold hb]
        exact ⟨rfl, rfl⟩
    · have hfirst : m'.first = m.first := hm' ▸ rfl
      rw [addresses_append, addresses_cons, addresses_nil, segment_concat, segment_concat, hfirst]
      refine ⟨⟨(segment_congr fun b hb => ?_).mpr hbefore, _, hself, rfl⟩,
        c, (hother hxa.symm).trans hnew, hc⟩
      have hbx : b ≠ x.1 := by
        rintro rfl
        exact (List.nodup_append.mp hnodup).2.2 _ hb _ (by simp) rfl
      have hba : b ≠ a := by
        rintro rfl
        exact h.not_mem_of_fresh hfresh (by rw [addresses_append]; exact List.mem_append_left _ hb)
      rw [hother hbx, hold hba]

/-- **A random comes in**: the list gets an entry at its end. -/
theorem addClientRandom (h : m.Holds l) {a : ℕ} (hfresh : m.cells a = none) (now : ℤ)
    (random : Bytes) :
    ∃ m', m.addClientRandom now random a = .ok m' ∧
      m'.Holds (l ++ [(a, ⟨random.take 16, now⟩)]) := by
  have hnot := h.not_mem_of_fresh hfresh
  obtain ⟨m2, hlink, hnew, hold, hbyTime, hlast, hbuckets, hallocated⟩ :=
    h.linkByTime_spec hfresh (c := ⟨random.take 16, none, none, now⟩) rfl
  have hload : m2.load a = .ok ⟨random.take 16, none, none, now⟩ := by
    rw [RandomsHeap.load, hnew]
  obtain ⟨c, hc⟩ : ∃ c : RandomCell,
    c = ⟨random.take 16, none, m.buckets (getClientRandomBucket random), now⟩ := ⟨_, rfl⟩
  obtain ⟨m', hm'⟩ : ∃ m', m' = { m2.store a c with
    buckets := Function.update m.buckets (getClientRandomBucket random) (some a) } := ⟨_, rfl⟩
  have hself : m'.cells a = some c := hm' ▸ Function.update_self ..
  have hother {b : ℕ} (hb : b ≠ a) : m'.cells b = m2.cells b := hm' ▸ Function.update_of_ne hb ..
  have hne {b : ℕ} (hb : b ∈ addresses l) : b ≠ a := fun heq => hnot (heq ▸ hb)
  have hadd : m.addClientRandom now random a = .ok m' := by
    rw [RandomsHeap.addClientRandom, hlink]
    dsimp only [Except.bind]
    rw [linkByHash, hload, hm', hc, ← hbuckets]
    rfl
  refine ⟨m', hadd, ?_, ?_, ?_, ?_, ?_, ?_, ?_⟩
  · rw [addresses_append]
    refine List.nodup_append.mpr ⟨h.distinct, by simp, fun b hb b' hb' => ?_⟩
    rw [List.mem_singleton.mp hb']
    exact hne hb
  · intro x hx
    rcases List.mem_append.mp hx with hx | hx
    · have hxa : x.1 ≠ a := hne (List.mem_map_of_mem hx)
      rw [hother hxa, (hold x.1 hxa).1]
      exact h.cells x hx
    · rw [List.mem_singleton.mp hx, hself, hc]
      rfl
  · intro b hb
    rw [addresses_append, List.mem_append, not_or] at hb
    have hba : b ≠ a := fun heq => hb.2 (by simp [heq])
    have hentry := (hold b hba).1
    rw [h.others b hb.1] at hentry
    rw [hother hba]
    exact Option.map_eq_none_iff.mp hentry
  · rw [List.length_append, ← h.allocated, hm']
    exact hallocated
  · have hfirst : m'.first = m2.first := hm' ▸ rfl
    rw [addresses_append, hfirst]
    refine (segment_congr fun b _ => ?_).mpr hbyTime
    rcases eq_or_ne b a with rfl | hba
    · rw [hself, hnew, hc]
      rfl
    · rw [hother hba]
  · have hend : m'.last = m2.last := hm' ▸ rfl
    rw [addresses_append, hend, hlast]
    simp
  · intro i
    have hrest : Segment m'.cells RandomCell.nextByHash (m.buckets i) (hashChain l i) none := by
      refine (segment_congr fun b hb => ?_).mpr (h.byHash i)
      have hba := hne (hashChain_subset hb)
      rw [hother hba]
      exact (hold b hba).2
    rw [hashChain_concat, getClientRandomBucket_take]
    split_ifs with hi
    · subst hi
      have hbucket : m'.buckets (getClientRandomBucket random) = some a :=
        hm' ▸ Function.update_self ..
      exact ⟨hbucket, c, hself, hc ▸ hrest⟩
    · have hbucket : m'.buckets i = m.buckets i :=
        hm' ▸ Function.update_of_ne (Ne.symm hi) ..
      rw [hbucket]
      exact hrest

/-! ### Letting the oldest entry go -/

/-- The pointer to a cell is that of the cell in front of it, or the first. -/
theorem findLink_eq {a : ℕ} {before : List ℕ} {cur : HashLink} {p q : Option ℕ}
    (hcur : m.loadLink cur = .ok p)
    (h : Segment m.cells RandomCell.nextByHash p (before ++ [a]) q) (hnot : a ∉ before) {n : ℕ}
    (hn : before.length < n) :
    m.findLink a n cur = .ok ((before.getLast?.map HashLink.nextByHash).getD cur) := by
  induction before generalizing cur p n with
  | nil =>
    obtain ⟨n, rfl⟩ := Nat.exists_eq_succ_of_ne_zero (Nat.ne_of_gt hn)
    obtain ⟨rfl, -⟩ := h
    rw [findLink, hcur]
    exact if_pos rfl
  | cons b before ih =>
    obtain ⟨n, rfl⟩ := Nat.exists_eq_succ_of_ne_zero (Nat.ne_of_gt (Nat.zero_lt_of_lt hn))
    obtain ⟨rfl, c, hc, hrest⟩ := h
    have hba : b ≠ a := fun heq => hnot (heq ▸ List.mem_cons_self)
    have hload : m.loadLink (.nextByHash b) = .ok c.nextByHash := by
      rw [loadLink, RandomsHeap.load, hc]
      rfl
    rw [findLink, hcur]
    dsimp only [Except.bind]
    rw [if_neg hba, ih hload hrest (fun hmem => hnot (List.mem_cons_of_mem b hmem))
      (by simpa using hn), List.getLast?_cons]
    cases before.getLast? <;> rfl

theorem hashChain_nodup (h : (addresses l).Nodup) (i : ℕ) : (hashChain l i).Nodup := by
  refine List.nodup_reverse.mpr ?_
  exact h.sublist (List.filter_sublist.map _)

/-- **The oldest cell's chain is cut in front of it**, and every chain is that of the entries
behind it. -/
theorem storeLink_spec {x : ℕ × ClientRandom} (h : m.Holds (x :: l)) (p : Option ℕ) :
    ∃ m', { m with first := p }.storeLink none
        (((hashChain l (getClientRandomBucket x.2.random)).getLast?.map HashLink.nextByHash).getD
          (.bucket (getClientRandomBucket x.2.random))) = .ok m' ∧
      (∀ b, (m'.cells b).map RandomCell.entry = (m.cells b).map RandomCell.entry ∧
        (m'.cells b).map RandomCell.nextByTime = (m.cells b).map RandomCell.nextByTime) ∧
      (∀ j, Segment m'.cells RandomCell.nextByHash (m'.buckets j) (hashChain l j) none) ∧
      m'.first = p ∧ m'.last = m.last ∧ m'.allocated = m.allocated := by
  obtain ⟨i, hi⟩ : ∃ i, getClientRandomBucket x.2.random = i := ⟨_, rfl⟩
  have hchain := h.byHash i
  rw [hashChain_cons, if_pos hi, segment_concat] at hchain
  have hother {j : ℕ} (hj : j ≠ i) :
      Segment m.cells RandomCell.nextByHash (m.buckets j) (hashChain l j) none := by
    have hseg := h.byHash j
    rwa [hashChain_cons, hi, if_neg hj.symm] at hseg
  rw [hi]
  rcases List.eq_nil_or_concat (hashChain l i) with hnil | ⟨before, b, hbefore⟩
  · rw [hnil]
    refine ⟨_, rfl, fun b => ⟨rfl, rfl⟩, fun j => ?_, rfl, rfl, rfl⟩
    rcases eq_or_ne j i with rfl | hj
    · rw [hnil]
      exact Function.update_self ..
    · refine (congrArg (fun p => Segment m.cells _ p _ _) ?_).mpr (hother hj)
      exact Function.update_of_ne hj ..
  · rw [List.concat_eq_append] at hbefore
    rw [hbefore, segment_concat] at hchain
    obtain ⟨⟨hseg, c, hc, -⟩, -⟩ := hchain
    have hbchain : b ∈ hashChain l i := by simp [hbefore]
    have hload : ({ m with first := p } : RandomsHeap).load b = .ok c := by
      rw [RandomsHeap.load, hc]
    obtain ⟨m', hm'⟩ : ∃ m', m' =
      ({ m with first := p } : RandomsHeap).store b { c with nextByHash := none } := ⟨_, rfl⟩
    have hself : m'.cells b = some { c with nextByHash := none } := hm' ▸ Function.update_self ..
    have hkept {a : ℕ} (ha : a ≠ b) : m'.cells a = m.cells a := hm' ▸ Function.update_of_ne ha ..
    have hbuckets : m'.buckets = m.buckets := hm' ▸ rfl
    refine ⟨m', ?_, fun a => ?_, fun j => ?_, hm' ▸ rfl, hm' ▸ rfl, hm' ▸ rfl⟩
    · rw [hbefore, List.getLast?_concat]
      dsimp only [Option.map, Option.getD, storeLink]
      rw [hload, hm']
      rfl
    · rcases eq_or_ne a b with rfl | ha
      · rw [hself, hc]
        exact ⟨rfl, rfl⟩
      · rw [hkept ha]
        exact ⟨rfl, rfl⟩
    · rw [hbuckets]
      rcases eq_or_ne j i with rfl | hj
      · have hnodup := hashChain_nodup (List.nodup_cons.mp h.distinct).2 j
        rw [hbefore] at hnodup ⊢
        refine segment_concat.mpr ⟨(segment_congr fun a ha => ?_).mpr hseg, _, hself, rfl⟩
        have hab : a ≠ b := (List.nodup_append.mp hnodup).2.2 a ha b (by simp)
        rw [hkept hab]
      · refine (segment_congr fun a ha => ?_).mpr (hother hj)
        have hab : a ≠ b := by
          rintro rfl
          have hin {k : ℕ} (hk : a ∈ hashChain l k) : a ∈ hashChain (x :: l) k := by
            rw [hashChain_cons]
            split_ifs
            · exact List.mem_append_left _ hk
            · exact hk
          exact hj ((h.bucket_of_mem hc (hin ha)).symm.trans (h.bucket_of_mem hc (hin hbchain)))
        rw [hkept hab]

/-- **The oldest entry leaves**, where another stays: the assertion holds, and the list is that of
the entries behind it. -/
theorem deleteFirst {x : ℕ × ClientRandom} (h : m.Holds (x :: l)) (hl : l ≠ []) {c : RandomCell}
    (hc : m.cells x.1 = some c) :
    ∃ m', m.deleteFirst x.1 c = .ok m' ∧ m'.Holds l := by
  obtain ⟨hx, hdistinct⟩ := List.nodup_cons.mp h.distinct
  have hentry : c.entry = x.2 := h.entry_eq hc List.mem_cons_self
  have hbucket : getClientRandomBucket c.random = getClientRandomBucket x.2.random := by
    rw [← hentry]
    rfl
  have hchain := h.byHash (getClientRandomBucket x.2.random)
  rw [hashChain_cons, if_pos rfl] at hchain
  obtain ⟨-, d, hd, hend⟩ := segment_concat.mp hchain
  obtain rfl := Option.some.inj (hc.symm.trans hd)
  obtain ⟨m2, hstore, hkept, hbyHash, hfirst, hlast, hallocated⟩ :=
    h.storeLink_spec c.nextByTime
  have hfind : ({ m with first := c.nextByTime } : RandomsHeap).findLink x.1 (m.allocated + 1)
      (.bucket (getClientRandomBucket x.2.random)) = .ok _ :=
    findLink_eq (m := { m with first := c.nextByTime }) rfl hchain
      (fun hmem => hx (hashChain_subset hmem)) (by
      have hlen := hashChain_length l (getClientRandomBucket x.2.random)
      rw [h.allocated, List.length_cons]
      omega)
  have hself : (m2.free x.1).cells x.1 = none := Function.update_self ..
  have hother {b : ℕ} (hb : b ≠ x.1) : (m2.free x.1).cells b = m2.cells b :=
    Function.update_of_ne hb ..
  have hne {b : ℕ} (hb : b ∈ addresses l) : b ≠ x.1 := fun heq => hx (heq ▸ hb)
  refine ⟨m2.free x.1, ?_, hdistinct, fun y hy => ?_, fun b hb => ?_, ?_, ?_, ?_, fun i => ?_⟩
  · rw [RandomsHeap.deleteFirst, if_neg (by rw [hend]; simp), hbucket]
    dsimp only
    rw [hfind]
    dsimp only [Except.bind]
    rw [hstore]
    rfl
  · rw [hother (hne (List.mem_map_of_mem hy)), (hkept y.1).1]
    exact h.cells y (List.mem_cons_of_mem x hy)
  · rcases eq_or_ne b x.1 with rfl | hbx
    · exact hself
    · have hnone := (hkept b).1
      rw [h.others b (by simp [hbx, hb])] at hnone
      rw [hother hbx]
      exact Option.map_eq_none_iff.mp hnone
  · show m2.allocated - 1 = l.length
    rw [hallocated, h.allocated, List.length_cons, Nat.add_sub_cancel]
  · obtain ⟨-, d, hd, hrest⟩ := h.byTime
    obtain rfl := Option.some.inj (hc.symm.trans hd)
    rw [show (m2.free x.1).first = c.nextByTime from hfirst]
    refine (segment_congr fun b hb => ?_).mpr hrest
    rw [hother (hne hb), (hkept b).2]
  · rw [show (m2.free x.1).last = m.last from hlast, h.last, addresses_cons]
    exact List.getLast?_cons_of_ne_nil (by simpa [addresses] using hl)
  · refine (segment_congr fun b hb => ?_).mpr (hbyHash i)
    rw [hother (hne (hashChain_subset hb))]

/-- **The loop lets go of what is old**, up to the last entry. -/
theorem deleteLoop (h : m.Holds l) (now : ℤ) {n : ℕ} (hn : l.length < n) :
    ∃ m', RandomsHeap.deleteLoop now n m = .ok m' ∧
      m'.Holds (expire entryTime (now - MAX_CLIENT_RANDOM_CACHE_TIME) l) := by
  induction l generalizing m n with
  | nil =>
    obtain ⟨n, rfl⟩ := Nat.exists_eq_succ_of_ne_zero (Nat.ne_of_gt hn)
    have hsame : m.first = m.last := (show m.first = none from h.byTime).trans h.last.symm
    exact ⟨m, if_pos hsame, h⟩
  | cons x l ih =>
    obtain ⟨n, rfl⟩ := Nat.exists_eq_succ_of_ne_zero (Nat.ne_of_gt (Nat.zero_lt_of_lt hn))
    have hfirst : m.first = some x.1 := h.byTime.head
    cases l with
    | nil =>
      have hsame : m.first = m.last := hfirst.trans h.last.symm
      exact ⟨m, if_pos hsame, h⟩
    | cons y l =>
      have hdiff : m.first ≠ m.last := by
        rw [hfirst, h.last, addresses_cons, addresses_cons, List.getLast?_cons_cons]
        intro heq
        exact (List.nodup_cons.mp h.distinct).1 (List.mem_of_getLast? heq.symm)
      obtain ⟨c, hload, hc, -⟩ := h.load (a := x.1) List.mem_cons_self
      have htime : c.time = entryTime x := by
        have hentry : c.entry = x.2 := h.entry_eq hc List.mem_cons_self
        rw [entryTime, ← hentry]
        rfl
      rw [RandomsHeap.deleteLoop, if_neg hdiff, hfirst]
      dsimp only
      rw [hload]
      dsimp only [Except.bind]
      rw [htime]
      by_cases hyoung : entryTime x > now - MAX_CLIENT_RANDOM_CACHE_TIME
      · rw [if_pos hyoung, expire_of_lt hyoung]
        exact ⟨m, rfl, h⟩
      · obtain ⟨m1, hdelete, hholds⟩ := h.deleteFirst (List.cons_ne_nil y l) hc
        rw [if_neg hyoung, expire_of_le (not_lt.mp hyoung), hdelete]
        exact ih hholds (by simpa using hn)

/-- **A deletion** leaves the list without what is old. -/
theorem deleteOldClientRandoms (h : m.Holds l) (now : ℤ) :
    ∃ m', m.deleteOldClientRandoms now = .ok m' ∧
      m'.Holds (expire entryTime (now - MAX_CLIENT_RANDOM_CACHE_TIME) l) :=
  h.deleteLoop now (by rw [h.allocated]; exact Nat.lt_succ_self _)

end Holds

/-! ### The cache of one process -/

/-- What the heap shows of its list. -/
def view (l : List (ℕ × ClientRandom)) : ClientRandoms :=
  ⟨l.map Prod.snd, chain (l.map Prod.snd)⟩

end RandomsHeap

/-! ### Runs -/

open RandomsHeap

/-- A call, at the time it is made.  `malloc` returns `entry`. -/
inductive RandomsEvent
  | add (now : ℤ) (random : Bytes) (entry : ℕ)
  | delete (now : ℤ)

/-- The heap, with the time of the last call. -/
structure RandomsRun where
  now : ℤ
  heap : RandomsHeap

/-- One call. -/
def randomsStep (s : Except RandomsFault RandomsRun) (e : RandomsEvent) :
    Except RandomsFault RandomsRun :=
  s.bind fun r =>
    match e with
    | .add now random entry => (r.heap.addClientRandom now random entry).map (RandomsRun.mk now)
    | .delete now => (r.heap.deleteOldClientRandoms now).map (RandomsRun.mk now)

/-- The clock does not go back, and `malloc` returns room that is not in use. -/
def RandomsLegal (s : Except RandomsFault RandomsRun) (e : RandomsEvent) : Prop :=
  match s, e with
  | .ok r, .add now _ entry => r.now ≤ now ∧ r.heap.cells entry = none
  | .ok r, .delete now => r.now ≤ now
  | .error _, _ => True

/-- **The two structures agree**: on the one list the heap holds, which has come in the order of
the clock. -/
structure RandomsRun.Consistent (r : RandomsRun) (l : List (ℕ × ClientRandom)) : Prop where
  holds : r.heap.Holds l
  aged : Aged entryTime l
  past : ∀ x ∈ l, entryTime x ≤ r.now
  same : ∀ a, a ∈ addresses l ↔ ∃ i < 2 ^ RANDOM_HASH_BITS, a ∈ hashChain l i
  newestFirst : ∀ i, (hashChain l i).Pairwise fun a b => ∀ c d, r.heap.cells a = some c →
    r.heap.cells b = some d → d.time ≤ c.time
  found : ∀ random,
    r.heap.haveClientRandom random = .ok (l.any fun x => random.take 16 = x.2.random)

/-- A deletion removes the entries that are at least `MAX_CLIENT_RANDOM_CACHE_TIME` old, without
the youngest of all, and no others. -/
def DeletesOld (s : Except RandomsFault RandomsRun) (e : RandomsEvent) : Prop :=
  ∀ r now l, s = .ok r → e = .delete now → r.heap.Holds l →
    ∃ r' l', randomsStep s e = .ok r' ∧ r'.heap.Holds l' ∧ l' <:+ l ∧
      ∀ x ∈ l, x ∉ l' ↔ MAX_CLIENT_RANDOM_CACHE_TIME ≤ now - x.2.time ∧ l.getLast? ≠ some x

namespace RandomsRun

variable {r : RandomsRun} {l : List (ℕ × ClientRandom)}

/-- All is read off the list. -/
theorem Consistent.of_holds (h : r.heap.Holds l) (haged : Aged entryTime l)
    (hpast : ∀ x ∈ l, entryTime x ≤ r.now) : r.Consistent l where
  holds := h
  aged := haged
  past := hpast
  same a := by
    rw [mem_addresses]
    constructor
    · rintro ⟨e, he⟩
      exact ⟨_, getClientRandomBucket_lt e.random, mem_hashChain.mpr ⟨e, he, rfl⟩⟩
    · rintro ⟨i, -, ha⟩
      obtain ⟨e, he, -⟩ := mem_hashChain.mp ha
      exact ⟨e, he⟩
  newestFirst i := by
    refine List.pairwise_reverse.mpr (List.pairwise_map.mpr ?_)
    refine (List.Pairwise.sublist List.filter_sublist haged).imp_of_mem ?_
    intro x y hx hy hle c d hc hd
    have hxe : d.entry = x.2 := h.entry_eq hd (List.mem_filter.mp hx).1
    have hye : c.entry = y.2 := h.entry_eq hc (List.mem_filter.mp hy).1
    calc d.time = entryTime x := by rw [entryTime, ← hxe]; rfl
      _ ≤ entryTime y := hle
      _ = c.time := by rw [entryTime, ← hye]; rfl
  found := h.haveClientRandom_eq

/-- **One call** keeps the two structures in agreement. -/
theorem Consistent.step (h : r.Consistent l) {e : RandomsEvent}
    (hlegal : RandomsLegal (.ok r) e) :
    ∃ r' l', randomsStep (.ok r) e = .ok r' ∧ r'.Consistent l' := by
  cases e with
  | add now random entry =>
    obtain ⟨hle, hfresh⟩ := hlegal
    obtain ⟨m', hadd, hholds⟩ := h.holds.addClientRandom hfresh now random
    refine ⟨⟨now, m'⟩, _, ?_, .of_holds hholds ?_ ?_⟩
    · dsimp only [randomsStep, Except.bind]
      rw [hadd]
      rfl
    · exact h.aged.concat fun x hx => (h.past x hx).trans hle
    · intro x hx
      rcases List.mem_append.mp hx with hx | hx
      · exact (h.past x hx).trans hle
      · rw [List.mem_singleton.mp hx]
        exact le_refl _
  | delete now =>
    obtain ⟨m', hdelete, hholds⟩ := h.holds.deleteOldClientRandoms now
    refine ⟨⟨now, m'⟩, _, ?_, .of_holds hholds h.aged.expire ?_⟩
    · dsimp only [randomsStep, Except.bind]
      rw [hdelete]
      rfl
    · exact fun x hx => (h.past x ((expire_suffix l).subset hx)).trans hlegal

/-- **What a deletion removes.** -/
theorem Consistent.deletesOld (h : r.Consistent l) (e : RandomsEvent) : DeletesOld (.ok r) e := by
  rintro r0 now l0 hr rfl hl0
  obtain rfl := Except.ok.inj hr
  obtain rfl : l0 = l := hl0.unique h.holds
  obtain ⟨m', hdelete, hholds⟩ := h.holds.deleteOldClientRandoms now
  refine ⟨⟨now, m'⟩, _, ?_, hholds, expire_suffix _, fun x hx => ?_⟩
  · dsimp only [randomsStep, Except.bind]
    rw [hdelete]
    rfl
  · rw [mem_expire_iff h.aged h.holds.distinct.of_map]
    simp only [hx, true_and, not_or, not_lt, entryTime]
    refine and_congr_left fun _ => ?_
    omega

end RandomsRun

/-- **In every run of calls** under a clock that does not go back the two structures agree, on one
list that is found and linked as a whole, no assertion fails, and a deletion removes what is old
and nothing else. -/
theorem randomsRun_consistent (now : ℤ) (es : List RandomsEvent)
    (hlegal : Along randomsStep RandomsLegal (.ok ⟨now, .empty⟩) es) :
    Throughout randomsStep (fun s => ∃ r l, s = .ok r ∧ r.Consistent l) (.ok ⟨now, .empty⟩) es ∧
      Along randomsStep DeletesOld (.ok ⟨now, .empty⟩) es := by
  have hstart : ∃ r l, (.ok ⟨now, .empty⟩ : Except RandomsFault RandomsRun) = .ok r ∧
      r.Consistent l :=
    ⟨_, [], rfl, .of_holds empty_holds List.Pairwise.nil (by simp)⟩
  have hstep (s : Except RandomsFault RandomsRun) (e : RandomsEvent)
      (hs : ∃ r l, s = .ok r ∧ r.Consistent l) (he : RandomsLegal s e) :
      ∃ r l, randomsStep s e = .ok r ∧ r.Consistent l := by
    obtain ⟨r, l, rfl, h⟩ := hs
    exact h.step he
  refine ⟨throughout_of_along hstep hstart hlegal, along_of_inv hstep ?_ hstart hlegal⟩
  rintro s e ⟨r, l, rfl, h⟩ -
  exact h.deletesOld e

/-- Two randoms of one bucket, the first of them twice, and a deletion two days behind the
second. -/
def sampleCalls : List RandomsEvent :=
  [.add 0 (List.replicate 16 1) 7, .add 5 (1 :: 1 :: List.replicate 14 2) 3,
    .add 9 (List.replicate 16 1) 4, .delete 172805]

/-- The calls. -/
theorem randomsRun_consistent_sample :
    Throughout randomsStep (fun s => ∃ r l, s = .ok r ∧ r.Consistent l) (.ok ⟨0, .empty⟩)
        sampleCalls ∧
      Along randomsStep DeletesOld (.ok ⟨0, .empty⟩) sampleCalls :=
  randomsRun_consistent 0 sampleCalls
    ⟨⟨by decide, rfl⟩, ⟨by decide, rfl⟩, ⟨by decide, rfl⟩, show (9 : ℤ) ≤ 172805 by decide, trivial⟩

end Server
end Teleproto3
