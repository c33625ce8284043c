/-
# What the table of ext_connections is for

An `ExtLedger` lists the entries that are live with the cells they are kept in, the connections of
data centres that are ready, and the last `out_conn_id` that each slot has issued.  It knows
nothing of pointers: an entry is entered (`create`) and struck out (`remove`).

The ids grow in each slot, by the generation in their upper bits, which is what keeps the id of a
removed entry from coming back (`ExtLedger.Sound.past`).  Which circles and chains the memory of
the program has to hold is read off the ledger (`ExtLedger.layout`).
-/

import Mathlib.Data.List.Nodup
import Mathlib.Data.List.Perm.Subperm
import Teleproto3.Server.ExtLayout

namespace Teleproto3
namespace Server

/-! ### Ids -/

theorem slotOf_eq (id : UInt64) : slotOf id = id.toNat % EXT_CONN_TABLE_SIZE := by
  unfold slotOf EXT_CONN_TABLE_SIZE
  rw [UInt64.toNat_and]
  exact Nat.and_two_pow_sub_one_eq_mod id.toNat 22

/-- Setting the low bits of a number. -/
theorem or_mask (n k : ℕ) : n ||| (2 ^ k - 1) = n / 2 ^ k * 2 ^ k + (2 ^ k - 1) := by
  have hlow : 2 ^ k - 1 < 2 ^ k := Nat.sub_lt (Nat.two_pow_pos k) Nat.one_pos
  rw [Nat.mul_comm, Nat.two_pow_add_eq_or_of_lt hlow]
  refine Nat.eq_of_testBit_eq fun i => ?_
  rw [Nat.testBit_or, Nat.testBit_or, Nat.testBit_two_pow_sub_one, Nat.testBit_two_pow_mul,
    Nat.testBit_div_two_pow]
  by_cases hi : i < k
  · simp [hi]
  · simp [hi, Nat.sub_add_cancel (Nat.le_of_not_lt hi), Nat.le_of_not_lt hi]

/-- The next generation of a slot fits into 64 bits, one of them for the sign. -/
def Unwrapped (outConnId : UInt64) (h : ℕ) : Prop :=
  (outConnId.toNat / EXT_CONN_TABLE_SIZE + 1) * EXT_CONN_TABLE_SIZE + h < 2 ^ 63

instance Unwrapped.decidable (outConnId : UInt64) (h : ℕ) : Decidable (Unwrapped outConnId h) :=
  inferInstanceAs (Decidable (_ < _))

/-- **The id that is issued**: the next generation, and the slot in the low bits. -/
theorem nextOutConnId_toNat {old : UInt64} {h : ℕ} (hw : Unwrapped old h) :
    (nextOutConnId old h).toNat =
      (old.toNat / EXT_CONN_TABLE_SIZE + 1) * EXT_CONN_TABLE_SIZE + h := by
  have hmask : (UInt64.ofNat (2 ^ 22 - 1)).toNat = 2 ^ 22 - 1 := by decide
  have hone : (1 : UInt64).toNat = 1 := rfl
  unfold Unwrapped EXT_CONN_TABLE_SIZE at hw
  unfold nextOutConnId EXT_CONN_TABLE_SIZE
  rw [UInt64.toNat_add, UInt64.toNat_add, UInt64.toNat_or, hmask, or_mask, hone,
    UInt64.toNat_ofNat']
  omega

theorem slotOf_nextOutConnId {old : UInt64} {h : ℕ} (hw : Unwrapped old h)
    (hh : h < EXT_CONN_TABLE_SIZE) : slotOf (nextOutConnId old h) = h := by
  rw [slotOf_eq, nextOutConnId_toNat hw, Nat.add_comm, Nat.add_mul_mod_self_right,
    Nat.mod_eq_of_lt hh]

theorem lt_nextOutConnId {old : UInt64} {h : ℕ} (hw : Unwrapped old h) :
    old.toNat < (nextOutConnId old h).toNat := by
  rw [nextOutConnId_toNat hw]
  unfold EXT_CONN_TABLE_SIZE
  omega

theorem nextOutConnId_ne_zero {old : UInt64} {h : ℕ} (hw : Unwrapped old h) :
    nextOutConnId old h ≠ 0 := by
  intro he
  have hlt := lt_nextOutConnId hw
  rw [he] at hlt
  exact Nat.not_lt_zero _ hlt

theorem and_mask_lt (h : ℕ) : h &&& (EXT_CONN_TABLE_SIZE - 1) < EXT_CONN_TABLE_SIZE := by
  unfold EXT_CONN_TABLE_SIZE
  rw [Nat.and_two_pow_sub_one_eq_mod]
  exact Nat.mod_lt _ (Nat.two_pow_pos 22)

/-! ### Entries -/

/-- What an entry joins: a client's connection, and the connection of a data centre by its `fd`
and generation. -/
structure ExtEntry where
  inFd : ℕ
  inGen : ℕ
  inConnId : UInt64
  out : Option (ℕ × ℕ)
  outConnId : UInt64
  authKeyId : UInt64
  deriving DecidableEq, Repr

namespace ExtEntry

variable (e : ExtEntry)

/-- `out_fd`. -/
def outFd : ℕ := (e.out.map Prod.fst).getD 0

/-- `out_gen`. -/
def outGen : ℕ := (e.out.map Prod.snd).getD 0

/-- The cell of an entry, without its links. -/
def connection : ExtConnection where
  inFd := e.inFd
  inGen := e.inGen
  outFd := e.outFd
  outGen := e.outGen
  inConnId := e.inConnId
  outConnId := e.outConnId
  authKeyId := e.authKeyId

/-- Whom `remove_ext_connection` tells that an entry is gone. -/
def notices (conns : ExtTable.Connections) (sendNotifications : ℕ) : List ExtNotice :=
  (if e.outFd = 0 ∨ sendNotifications % 2 = 0 then []
    else ((conns e.outFd e.outGen).map fun co => .remoteClosed co e.outConnId).toList) ++
  (if e.inFd = 0 ∨ sendNotifications / 2 % 2 = 0 then []
    else ((conns e.inFd e.inGen).map .failConnection).toList)

/-- An entry is removed without `assert (0)`: the client is not told, or is told of the whole
connection. -/
def Removable (sendNotifications : ℕ) : Prop :=
  e.inFd = 0 ∨ sendNotifications / 2 % 2 = 0 ∨ e.inConnId = 0

instance decidableRemovable (sendNotifications : ℕ) : Decidable (e.Removable sendNotifications) :=
  inferInstanceAs (Decidable (_ ∨ _ ∨ _))

/-- An entry is joined to a connection on an `fd`. -/
def OutOn (fd : ℕ) : Prop := e.out.map Prod.fst = some fd

instance decidableOutOn (fd : ℕ) : Decidable (e.OutOn fd) := inferInstanceAs (Decidable (_ = _))

end ExtEntry

/-! ### The ledger -/

/-- The entries that are live, with their cells, in the order in which they were created; those
that were removed; the cells in the order of use; the connections of data centres that are ready;
and the last id of each slot. -/
structure ExtLedger where
  live : List (ℕ × ExtEntry)
  removed : List ExtEntry
  lru : List ℕ
  ready : List ConnectionJob
  issued : ℕ → UInt64

namespace ExtLedger

/-- The program as it starts. -/
def start : ExtLedger := ⟨[], [], [], [], fun _ => 0⟩

variable (L : ExtLedger)

/-- The cells in use. -/
def addresses : List ℕ := L.live.map Prod.fst

/-- The cells of the entries with a property. -/
def having (p : ExtEntry → Bool) : List ℕ := (L.live.filter fun x => p x.2).map Prod.fst

/-- What stands on the circles.  `fd` 0 has none for inbound connections. -/
def ring : ExtRing → List ℕ
  | .inbound fd => if fd = 0 then [] else L.having fun e => e.inFd = fd
  | .outbound fd => L.having fun e => e.OutOn fd
  | .lru => L.lru

/-- What stands on the chains, the youngest first. -/
def chain (h : ℕ) : List ℕ := (L.having fun e => extConnHash e.inFd e.inConnId = h).reverse

/-- What memory has to hold. -/
def layout (used : ExtRing → Prop) : ExtLayout where
  cells := L.live.map fun x => (x.1, x.2.connection)
  used := used
  ring := L.ring
  chain := L.chain

/-- No live entry has a slot. -/
def Free (s : ℕ) : Prop := ∀ x ∈ L.live, slotOf x.2.outConnId ≠ s

instance decidableFree (s : ℕ) : Decidable (L.Free s) :=
  inferInstanceAs (Decidable (∀ x ∈ L.live, _))

/-- The first of some values whose slot is free. -/
def pick (draws : List ℕ) : Option ℕ :=
  (draws.map fun h => h &&& (EXT_CONN_TABLE_SIZE - 1)).find? fun s => L.Free s

/-- The entry that is created in a slot. -/
def newEntry (ci : ConnectionJob) (inConnId : UInt64) (co : Option ConnectionJob)
    (authKeyId : UInt64) (s : ℕ) : ExtEntry where
  inFd := ci.fd
  inGen := ci.generation
  inConnId := inConnId
  out := co.map fun d => (d.fd, d.generation)
  outConnId := nextOutConnId (L.issued s) s
  authKeyId := authKeyId

/-- **An entry is entered.** -/
def create (a : ℕ) (e : ExtEntry) : ExtLedger :=
  { L with
    live := L.live ++ [(a, e)]
    issued := Function.update L.issued (slotOf e.outConnId) e.outConnId }

/-- **An entry is struck out.** -/
def remove (a : ℕ) : ExtLedger :=
  { L with
    live := L.live.filter fun x => x.1 ≠ a
    removed := L.removed ++ (L.live.filter fun x => x.1 = a).map Prod.snd
    lru := L.lru.erase a }

/-- Entries are struck out one by one. -/
def removeAll (l : List ℕ) : ExtLedger := l.foldl remove L

/-- A connection of a data centre is ready. -/
def markReady (c : ConnectionJob) : ExtLedger := { L with ready := L.ready ++ [c] }

/-- A connection of a data centre is closed, and what was joined to it goes. -/
def close (c : ConnectionJob) : ExtLedger :=
  if c ∈ L.ready then
    { L.removeAll (L.having fun e => e.OutOn c.fd) with ready := L.ready.filter fun d => d ≠ c }
  else L

/-- The entry of a client is the last that was used. -/
def touch (c : ConnectionJob) : ExtLedger :=
  match L.live.find? fun x => x.2.inFd = c.fd ∧ x.2.inGen = c.generation ∧ c.fd ≠ 0 with
  | some x => { L with lru := L.lru.erase x.1 ++ [x.1] }
  | none => L

/-- **What holds of every ledger.** -/
structure Sound : Prop where
  cells : L.addresses.Nodup
  sole : (L.live.map fun x => x.2.inFd).Nodup
  ids : (L.live.map fun x => x.2.outConnId).Nodup
  inRange : ∀ x ∈ L.live, x.2.inFd < MAX_CONNECTIONS
  joined : ∀ x ∈ L.live, ∀ o ∈ x.2.out, ∃ c ∈ L.ready, c.fd = o.1 ∧ c.generation = o.2
  readyRange : ∀ c ∈ L.ready, c.fd < MAX_CONNECTIONS
  readyFds : (L.ready.map ConnectionJob.fd).Nodup
  readyJobs : (L.ready.map ConnectionJob.job).Nodup
  current : ∀ x ∈ L.live,
    L.issued (slotOf x.2.outConnId) = x.2.outConnId ∧ x.2.outConnId ≠ 0
  past : ∀ e ∈ L.removed, e.outConnId.toNat ≤ (L.issued (slotOf e.outConnId)).toNat ∧
    ∀ x ∈ L.live, x.2.outConnId ≠ e.outConnId
  used : L.lru.Nodup ∧ ∀ a ∈ L.lru, a ∈ L.addresses

theorem start_sound : start.Sound where
  cells := List.nodup_nil
  sole := List.nodup_nil
  ids := List.nodup_nil
  inRange := by simp [start]
  joined := by simp [start]
  readyRange := by simp [start]
  readyFds := List.nodup_nil
  readyJobs := List.nodup_nil
  current := by simp [start]
  past := by simp [start]
  used := ⟨List.nodup_nil, by simp [start]⟩

variable {L} {a : ℕ} {e : ExtEntry}

theorem mem_addresses : a ∈ L.addresses ↔ ∃ e, (a, e) ∈ L.live := by simp [addresses]

theorem mem_having {p : ExtEntry → Bool} : a ∈ L.having p ↔ ∃ e, (a, e) ∈ L.live ∧ p e := by
  simp [having]

/-- A cell holds one entry. -/
theorem Sound.entry_unique (hL : L.Sound) {e e' : ExtEntry} (h : (a, e) ∈ L.live)
    (h' : (a, e') ∈ L.live) : e = e' :=
  congrArg Prod.snd (List.inj_on_of_nodup_map hL.cells h h' rfl)

/-- A client has one entry. -/
theorem Sound.of_inFd (hL : L.Sound) {x y : ℕ × ExtEntry} (hx : x ∈ L.live) (hy : y ∈ L.live)
    (h : x.2.inFd = y.2.inFd) : x = y := List.inj_on_of_nodup_map hL.sole hx hy h

/-- An id has one entry. -/
theorem Sound.of_outConnId (hL : L.Sound) {x y : ℕ × ExtEntry} (hx : x ∈ L.live)
    (hy : y ∈ L.live) (h : x.2.outConnId = y.2.outConnId) : x = y :=
  List.inj_on_of_nodup_map hL.ids hx hy h

/-- A slot has one entry. -/
theorem Sound.of_slot (hL : L.Sound) {x y : ℕ × ExtEntry} (hx : x ∈ L.live) (hy : y ∈ L.live)
    (h : slotOf x.2.outConnId = slotOf y.2.outConnId) : x = y := by
  refine hL.of_outConnId hx hy ?_
  rw [← (hL.current x hx).1, ← (hL.current y hy).1, h]

theorem nodup_having (hL : L.Sound) (p : ExtEntry → Bool) : (L.having p).Nodup :=
  hL.cells.sublist (List.filter_sublist.map Prod.fst)

/-- **There are fewer entries than the table has room for**, as each has an `fd` of its own. -/
theorem Sound.length_le (hL : L.Sound) : L.live.length ≤ MAX_CONNECTIONS := by
  have hsub : (L.live.map fun x => x.2.inFd) ⊆ List.range MAX_CONNECTIONS := by
    intro fd hfd
    obtain ⟨x, hx, rfl⟩ := List.mem_map.mp hfd
    exact List.mem_range.mpr (hL.inRange x hx)
  have hle := (List.subperm_of_subset hL.sole hsub).length_le
  rwa [List.length_map, List.length_range] at hle

/-! ### An entry is entered -/

theorem having_create (p : ExtEntry → Bool) :
    (L.create a e).having p = if p e then L.having p ++ [a] else L.having p := by
  unfold having create
  rw [List.filter_append, List.map_append]
  split_ifs with h <;> simp [h]

@[simp] theorem addresses_create : (L.create a e).addresses = L.addresses ++ [a] := by
  simp [addresses, create]

@[simp] theorem issued_create_self : (L.create a e).issued (slotOf e.outConnId) = e.outConnId :=
  Function.update_self ..

theorem issued_create_of_ne {s : ℕ} (h : s ≠ slotOf e.outConnId) :
    (L.create a e).issued s = L.issued s := Function.update_of_ne h ..

/-- **What the entry must be for the ledger to stay sound.** -/
structure Fits (L : ExtLedger) (a : ℕ) (e : ExtEntry) : Prop where
  fresh : a ∉ L.addresses
  none : ∀ x ∈ L.live, x.2.inFd ≠ e.inFd
  inRange : e.inFd < MAX_CONNECTIONS
  joined : ∀ o ∈ e.out, ∃ c ∈ L.ready, c.fd = o.1 ∧ c.generation = o.2
  later : (L.issued (slotOf e.outConnId)).toNat < e.outConnId.toNat
  free : L.Free (slotOf e.outConnId)

theorem Sound.create (hL : L.Sound) (h : L.Fits a e) : (L.create a e).Sound := by
  have hnew : ∀ x ∈ L.live, x.2.outConnId ≠ e.outConnId := fun x hx he =>
    h.free x hx (congrArg slotOf he)
  refine ⟨?_, ?_, ?_, ?_, ?_, hL.readyRange, hL.readyFds, hL.readyJobs, ?_, ?_, ?_⟩
  · rw [addresses_create]
    refine List.nodup_append.mpr ⟨hL.cells, List.nodup_singleton a, ?_⟩
    rintro x hx y hy rfl
    exact h.fresh (List.mem_singleton.mp hy ▸ hx)
  · have hsole := hL.sole
    simp only [ExtLedger.create, List.map_append, List.map_cons, List.map_nil]
    refine List.nodup_append.mpr ⟨hsole, List.nodup_singleton _, ?_⟩
    rintro fd hfd y hy rfl
    obtain ⟨x, hx, rfl⟩ := List.mem_map.mp hfd
    exact h.none x hx (List.mem_singleton.mp hy)
  · have hids := hL.ids
    simp only [ExtLedger.create, List.map_append, List.map_cons, List.map_nil]
    refine List.nodup_append.mpr ⟨hids, List.nodup_singleton _, ?_⟩
    rintro id hid y hy rfl
    obtain ⟨x, hx, rfl⟩ := List.mem_map.mp hid
    exact hnew x hx (List.mem_singleton.mp hy)
  · intro x hx
    rcases List.mem_append.mp hx with hx | hx
    · exact hL.inRange x hx
    · rw [List.mem_singleton.mp hx]
      exact h.inRange
  · intro x hx
    rcases List.mem_append.mp hx with hx | hx
    · exact hL.joined x hx
    · rw [List.mem_singleton.mp hx]
      exact h.joined
  · intro x hx
    rcases List.mem_append.mp hx with hx | hx
    · refine ⟨?_, (hL.current x hx).2⟩
      exact (Function.update_of_ne (h.free x hx) ..).trans (hL.current x hx).1
    · rw [List.mem_singleton.mp hx]
      refine ⟨Function.update_self .., fun hzero => ?_⟩
      have hlater := h.later
      rw [hzero] at hlater
      exact Nat.not_lt_zero _ hlater
  · intro e' he'
    obtain ⟨hle, hne⟩ := hL.past e' he'
    by_cases hs : slotOf e'.outConnId = slotOf e.outConnId
    · have hlt : e'.outConnId.toNat < e.outConnId.toNat := by
        rw [hs] at hle
        exact lt_of_le_of_lt hle h.later
      refine ⟨?_, fun x hx => ?_⟩
      · rw [hs, issued_create_self]
        exact hlt.le
      · rcases List.mem_append.mp hx with hx | hx
        · exact hne x hx
        · rw [List.mem_singleton.mp hx]
          intro heq
          rw [heq] at hlt
          exact lt_irrefl _ hlt
    · refine ⟨?_, fun x hx => ?_⟩
      · rw [issued_create_of_ne hs]
        exact hle
      · rcases List.mem_append.mp hx with hx | hx
        · exact hne x hx
        · rw [List.mem_singleton.mp hx]
          exact fun heq => hs (congrArg slotOf heq.symm)
  · refine ⟨hL.used.1, fun b hb => ?_⟩
    rw [addresses_create]
    exact List.mem_append_left [a] (hL.used.2 b hb)

/-! ### An entry is struck out -/

theorem mem_live_remove {x : ℕ × ExtEntry} :
    x ∈ (L.remove a).live ↔ x ∈ L.live ∧ x.1 ≠ a := by
  simp [ExtLedger.remove]

theorem having_remove (hL : L.Sound) (p : ExtEntry → Bool) :
    (L.remove a).having p = (L.having p).erase a := by
  rw [(nodup_having hL p).erase_eq_filter]
  unfold having ExtLedger.remove
  rw [List.filter_map, List.filter_filter, List.filter_filter]
  congr 1
  refine List.filter_congr fun x _ => ?_
  simp only [Function.comp, decide_not, Bool.and_comm]
  by_cases hx : x.1 = a <;> simp [hx]

theorem addresses_remove (hL : L.Sound) : (L.remove a).addresses = L.addresses.erase a := by
  rw [hL.cells.erase_eq_filter]
  unfold addresses ExtLedger.remove
  rw [List.filter_map]
  congr 1
  refine List.filter_congr fun x _ => ?_
  simp only [Function.comp, decide_not]
  by_cases hx : x.1 = a <;> simp [hx]

theorem Sound.remove (hL : L.Sound) (a : ℕ) : (L.remove a).Sound := by
  have hsub : (L.remove a).live.Sublist L.live := List.filter_sublist
  refine ⟨hL.cells.sublist (hsub.map _), hL.sole.sublist (hsub.map _), hL.ids.sublist (hsub.map _),
    fun x hx => hL.inRange x (hsub.subset hx), fun x hx => hL.joined x (hsub.subset hx),
    hL.readyRange, hL.readyFds, hL.readyJobs, fun x hx => hL.current x (hsub.subset hx), ?_, ?_⟩
  · intro e he
    rcases List.mem_append.mp he with he | he
    · exact ⟨(hL.past e he).1, fun x hx => (hL.past e he).2 x (hsub.subset hx)⟩
    · obtain ⟨y, hy, rfl⟩ := List.mem_map.mp he
      obtain ⟨hy, hya⟩ := List.mem_filter.mp hy
      refine ⟨?_, fun x hx heq => ?_⟩
      · exact (congrArg UInt64.toNat (hL.current y hy).1).ge
      · obtain ⟨hx, hxa⟩ := mem_live_remove.mp hx
        rw [hL.of_outConnId hx hy heq] at hxa
        exact hxa (of_decide_eq_true hya)
  · refine ⟨hL.used.1.erase a, fun b hb => ?_⟩
    rw [addresses_remove hL]
    have hba : b ≠ a := by
      rintro rfl
      exact hL.used.1.not_mem_erase hb
    exact (List.mem_erase_of_ne hba).mpr (hL.used.2 b (List.mem_of_mem_erase hb))

@[simp] theorem removeAll_ready (l : List ℕ) : (L.removeAll l).ready = L.ready := by
  induction l generalizing L with
  | nil => rfl
  | cons a l ih => exact ih

theorem mem_live_removeAll {l : List ℕ} {x : ℕ × ExtEntry} :
    x ∈ (L.removeAll l).live ↔ x ∈ L.live ∧ x.1 ∉ l := by
  induction l generalizing L with
  | nil => simp [ExtLedger.removeAll]
  | cons a l ih =>
    change x ∈ ((L.remove a).removeAll l).live ↔ _
    rw [ih, mem_live_remove, List.mem_cons, not_or, and_assoc]

/-! ### The other events -/

theorem Sound.markReady (hL : L.Sound) {c : ConnectionJob} (hfd : c.fd < MAX_CONNECTIONS)
    (hfds : ∀ d ∈ L.ready, d.fd ≠ c.fd) (hjobs : ∀ d ∈ L.ready, d.job ≠ c.job) :
    (L.markReady c).Sound := by
  refine ⟨hL.cells, hL.sole, hL.ids, hL.inRange, fun x hx o ho => ?_, fun d hd => ?_, ?_, ?_,
    hL.current, hL.past, hL.used⟩
  · obtain ⟨d, hd, hdo⟩ := hL.joined x hx o ho
    exact ⟨d, List.mem_append_left [c] hd, hdo⟩
  · rcases List.mem_append.mp hd with hd | hd
    · exact hL.readyRange d hd
    · rw [List.mem_singleton.mp hd]
      exact hfd
  · simp only [ExtLedger.markReady, List.map_append, List.map_cons, List.map_nil]
    refine List.nodup_append.mpr ⟨hL.readyFds, List.nodup_singleton _, ?_⟩
    rintro fd hmem y hy rfl
    obtain ⟨d, hd, rfl⟩ := List.mem_map.mp hmem
    exact hfds d hd (List.mem_singleton.mp hy)
  · simp only [ExtLedger.markReady, List.map_append, List.map_cons, List.map_nil]
    refine List.nodup_append.mpr ⟨hL.readyJobs, List.nodup_singleton _, ?_⟩
    rintro fd hmem y hy rfl
    obtain ⟨d, hd, rfl⟩ := List.mem_map.mp hmem
    exact hjobs d hd (List.mem_singleton.mp hy)

theorem Sound.touch (hL : L.Sound) (c : ConnectionJob) : (L.touch c).Sound := by
  unfold ExtLedger.touch
  split
  · rename_i x hx
    refine ⟨hL.cells, hL.sole, hL.ids, hL.inRange, hL.joined, hL.readyRange, hL.readyFds,
      hL.readyJobs, hL.current, hL.past, ?_, fun b hb => ?_⟩
    · refine List.nodup_append.mpr ⟨hL.used.1.erase x.1, List.nodup_singleton _, ?_⟩
      rintro b hb y hy rfl
      rw [List.mem_singleton.mp hy] at hb
      exact hL.used.1.not_mem_erase hb
    · rcases List.mem_append.mp hb with hb | hb
      · exact hL.used.2 b (List.mem_of_mem_erase hb)
      · rw [List.mem_singleton.mp hb]
        exact List.mem_map_of_mem (List.mem_of_find?_eq_some hx)
  · exact hL

end ExtLedger

end Server
end Teleproto3
