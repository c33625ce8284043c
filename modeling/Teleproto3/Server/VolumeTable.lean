/-
# Accounting for addresses

The other half of `net-tcp-rpc-ext-top-ips.c`: how a row of the table comes to its entries.  An
address that has an entry keeps it; another gets an empty place, or the place of an entry that has
no connection and has been quiet for five seconds, or none.

`Accounts` says what that does to a row.  `RowSound` is what the entries have to do with the
connections that are live, and `RowBytes` what their bytes have to do with the traffic there has
been; both are kept by all of it.
-/

import Teleproto3.Server.AddressTable
import Teleproto3.Server.TopIps

namespace Teleproto3
namespace Server

open Lib

/-! ### Finding a place -/

/-- The test of `ip_volume_lookup`. -/
def IpVolumeEntry.Matches (e : IpVolumeEntry) (ip : ℕ) (ipv6 : Bytes) : Prop :=
  if ip ≠ 0 then e.ip = ip
  else ipv6 ≠ zeroIpv6 ∧ e.ip = 0 ∧ e.ipv6 = ipv6 ∧ e.ipv6 ≠ zeroIpv6

instance (e : IpVolumeEntry) (ip : ℕ) (ipv6 : Bytes) : Decidable (e.Matches ip ipv6) := by
  unfold IpVolumeEntry.Matches
  infer_instance

/-- `ip_volume_lookup`. -/
def ipVolumeLookup (row : IpVolumeRow) (ip : ℕ) (ipv6 : Bytes) :
    Option (Fin IP_VOLUME_TABLE_SIZE) :=
  places.find? fun i => (row i).Matches ip ipv6

/-- An entry that may be evicted. -/
def IpVolumeEntry.Stale (e : IpVolumeEntry) (now : ℚ) : Prop :=
  e.connections ≤ 0 ∧ e.lastSeen < now - IP_VOLUME_STALE_SEC

instance (e : IpVolumeEntry) (now : ℚ) : Decidable (e.Stale now) :=
  inferInstanceAs (Decidable (_ ∧ _))

/-- One turn of the search for a victim: the entry with the least bytes so far. -/
def victimTurn (now : ℚ) (row : IpVolumeRow) (victim : Option (Fin IP_VOLUME_TABLE_SIZE))
    (i : Fin IP_VOLUME_TABLE_SIZE) : Option (Fin IP_VOLUME_TABLE_SIZE) :=
  if ¬ (row i).Stale now then victim
  else
    match victim with
    | none => some i
    | some j => if (row i).total < (row j).total then some i else some j

/-- `ip_volume_acquire_slot`. -/
def ipVolumeAcquireSlot (now : ℚ) (row : IpVolumeRow) :
    Option (Fin IP_VOLUME_TABLE_SIZE) × IpVolumeRow :=
  match places.find? fun i => (row i).IsEmpty with
  | some i => (some i, row)
  | none =>
    match places.foldl (victimTurn now row) none with
    | some i => (some i, Function.update row i .zero)
    | none => (none, row)

/-- An entry that has just been made for an address. -/
def IpVolumeEntry.made (now : ℚ) (ip : ℕ) (ipv6 : Bytes) : IpVolumeEntry :=
  ⟨ip, if ip = 0 then ipv6 else zeroIpv6, 0, 0, 0, now⟩

/-- `ip_volume_get_or_create`. -/
def ipVolumeGetOrCreate (now : ℚ) (row : IpVolumeRow) (ip : ℕ) (ipv6 : Bytes) :
    Option (Fin IP_VOLUME_TABLE_SIZE) × IpVolumeRow :=
  match ipVolumeLookup row ip ipv6 with
  | some i => (some i, row)
  | none =>
    match ipVolumeAcquireSlot now row with
    | (some i, row) => (some i, Function.update row i (.made now ip ipv6))
    | (none, row) => (none, row)

/-! ### The accounting functions -/

/-- Another row for a slot. -/
def IpVolume.setRow (v : IpVolume) (s : ℕ) (row : IpVolumeRow) : IpVolume :=
  { v with row := Function.update v.row s row }

/-- What the two functions do that make an entry: `f` is done to it. -/
def ipVolumeAccount (v : IpVolume) (sid : ℤ) (ip : ℕ) (ipv6 : Bytes)
    (f : IpVolumeEntry → IpVolumeEntry) : IpVolume :=
  if v.topIpsPerSecret ≤ 0 then v
  else if sid < 0 ∨ sid ≥ 16 then v
  else
    match ipVolumeGetOrCreate v.preciseNow (v.row sid.toNat) ip ipv6 with
    | (some i, row) => v.setRow sid.toNat (Function.update row i (f (row i)))
    | (none, row) => v.setRow sid.toNat row

/-- A connection more. -/
def IpVolumeEntry.connect (now : ℚ) (e : IpVolumeEntry) : IpVolumeEntry :=
  { e with connections := e.connections + 1, lastSeen := now }

/-- Bytes more, one way or the other. -/
def IpVolumeEntry.addBytes (now : ℚ) (bytes : ℤ) (direction : ℤ) (e : IpVolumeEntry) :
    IpVolumeEntry :=
  if direction = 0 then { e with bytesIn := wrap64 (e.bytesIn + bytes), lastSeen := now }
  else { e with bytesOut := wrap64 (e.bytesOut + bytes), lastSeen := now }

/-- A connection less. -/
def IpVolumeEntry.disconnect (now : ℚ) (e : IpVolumeEntry) : IpVolumeEntry :=
  { e with
    connections := if e.connections > 0 then e.connections - 1 else e.connections
    lastSeen := now }

/-- `tcp_rpcs_account_connect`. -/
def tcpRpcsAccountConnect (v : IpVolume) (sid : ℤ) (ip : ℕ) (ipv6 : Bytes) : IpVolume :=
  ipVolumeAccount v sid ip ipv6 (.connect v.preciseNow)

/-- `tcp_rpcs_account_bytes`. -/
def tcpRpcsAccountBytes (v : IpVolume) (sid : ℤ) (ip : ℕ) (ipv6 : Bytes) (bytes direction : ℤ) :
    IpVolume :=
  if bytes ≤ 0 then v
  else ipVolumeAccount v sid ip ipv6 (.addBytes v.preciseNow bytes direction)

/-- `tcp_rpcs_account_disconnect`. -/
def tcpRpcsAccountDisconnect (v : IpVolume) (sid : ℤ) (ip : ℕ) (ipv6 : Bytes) : IpVolume :=
  if v.topIpsPerSecret ≤ 0 then v
  else if sid < 0 ∨ sid ≥ 16 then v
  else
    match ipVolumeLookup (v.row sid.toNat) ip ipv6 with
    | none => v
    | some i =>
      v.setRow sid.toNat (Function.update (v.row sid.toNat) i
        ((v.row sid.toNat i).disconnect v.preciseNow))

/-! ### Addresses of entries -/

/-- The address of an entry. -/
def IpVolumeEntry.address (e : IpVolumeEntry) : ℕ × Bytes := addressOf e.ip e.ipv6

/-- The address of an empty entry. -/
def noAddress : ℕ × Bytes := addressOf 0 zeroIpv6

theorem addressOf_eq_noAddress_iff (ip : ℕ) (ipv6 : Bytes) :
    addressOf ip ipv6 = noAddress ↔ Unspecified ip ipv6 := by
  unfold noAddress addressOf Unspecified
  by_cases hip : ip = 0
  · simp [hip, zeroIpv6]
  · simp [hip]

theorem addressOf_ne_noAddress {ip : ℕ} {ipv6 : Bytes} (h : ¬ Unspecified ip ipv6) :
    addressOf ip ipv6 ≠ noAddress := mt (addressOf_eq_noAddress_iff ip ipv6).mp h

theorem IpVolumeEntry.isEmpty_iff (e : IpVolumeEntry) : e.IsEmpty ↔ e.address = noAddress :=
  (addressOf_eq_noAddress_iff e.ip e.ipv6).symm

/-- The entry of an address. -/
theorem IpVolumeEntry.not_isEmpty {e : IpVolumeEntry} {a : ℕ × Bytes} (ha : a ≠ noAddress)
    (he : e.address = a) : ¬ e.IsEmpty := by
  rw [e.isEmpty_iff, he]
  exact ha

/-- An entry is found under its address, unless it is empty. -/
theorem IpVolumeEntry.matches_iff (e : IpVolumeEntry) (ip : ℕ) (ipv6 : Bytes) :
    e.Matches ip ipv6 ↔ e.address = addressOf ip ipv6 ∧ ¬ Unspecified ip ipv6 := by
  unfold Matches IpVolumeEntry.address addressOf Unspecified
  by_cases hip : ip = 0
  · by_cases he : e.ip = 0
    · simp only [hip, he, ne_eq, not_true_eq_false, if_false, Prod.mk.injEq, true_and]
      constructor
      · rintro ⟨hne, heq, -⟩
        exact ⟨heq, hne⟩
      · rintro ⟨heq, hne⟩
        exact ⟨hne, heq, heq.symm ▸ hne⟩
    · simp [hip, he]
  · by_cases he : e.ip = 0
    · simp [hip, he, Ne.symm hip]
    · simp [hip, he]

theorem IpVolumeEntry.made_address (now : ℚ) (ip : ℕ) (ipv6 : Bytes) :
    (IpVolumeEntry.made now ip ipv6).address = addressOf ip ipv6 := by
  unfold IpVolumeEntry.made IpVolumeEntry.address addressOf
  by_cases hip : ip = 0
  · simp [hip]
  · simp [hip]

@[simp] theorem IpVolumeEntry.connect_address (now : ℚ) (e : IpVolumeEntry) :
    (e.connect now).address = e.address := rfl

@[simp] theorem IpVolumeEntry.disconnect_address (now : ℚ) (e : IpVolumeEntry) :
    (e.disconnect now).address = e.address := rfl

@[simp] theorem IpVolumeEntry.addBytes_address (now : ℚ) (bytes direction : ℤ)
    (e : IpVolumeEntry) : (e.addBytes now bytes direction).address = e.address := by
  unfold IpVolumeEntry.addBytes
  split <;> rfl

@[simp] theorem IpVolumeEntry.addBytes_connections (now : ℚ) (bytes direction : ℤ)
    (e : IpVolumeEntry) : (e.addBytes now bytes direction).connections = e.connections := by
  unfold IpVolumeEntry.addBytes
  split <;> rfl

/-! ### What is found -/

section Finding

variable {row : IpVolumeRow} {ip : ℕ} {ipv6 : Bytes} {now : ℚ} {i : Fin IP_VOLUME_TABLE_SIZE}

theorem ipVolumeLookup_some (h : ipVolumeLookup row ip ipv6 = some i) :
    (row i).Matches ip ipv6 := by
  have hi := List.find?_some h
  simpa using hi

theorem ipVolumeLookup_none (h : ipVolumeLookup row ip ipv6 = none)
    (j : Fin IP_VOLUME_TABLE_SIZE) : ¬ (row j).Matches ip ipv6 := by
  have hj := List.find?_eq_none.mp h j (mem_places j)
  simpa using hj

/-- Some entry may be made for another address. -/
def VolumeRoom (now : ℚ) (row : IpVolumeRow) : Prop := ∃ i, (row i).IsEmpty ∨ (row i).Stale now

/-- What the search for a victim has found among the places it has seen: a stale entry, if there
is any. -/
structure VictimSoFar (now : ℚ) (row : IpVolumeRow) (seen : List (Fin IP_VOLUME_TABLE_SIZE))
    (v : Option (Fin IP_VOLUME_TABLE_SIZE)) : Prop where
  stale : ∀ i, v = some i → (row i).Stale now
  nobody : v = none → ∀ i ∈ seen, ¬ (row i).Stale now

/-- One place more. -/
theorem VictimSoFar.turn {seen : List (Fin IP_VOLUME_TABLE_SIZE)}
    {v : Option (Fin IP_VOLUME_TABLE_SIZE)} (h : VictimSoFar now row seen v)
    (k : Fin IP_VOLUME_TABLE_SIZE) :
    VictimSoFar now row (seen ++ [k]) (victimTurn now row v k) := by
  constructor
  · intro i hi
    unfold victimTurn at hi
    split at hi
    · exact h.stale i hi
    next hk =>
      rw [not_not] at hk
      split at hi
      · exact Option.some.inj hi ▸ hk
      · split at hi
        · exact Option.some.inj hi ▸ hk
        · exact h.stale i hi
  · intro hv i hi
    unfold victimTurn at hv
    split at hv
    next hk =>
      rw [List.mem_append, List.mem_singleton] at hi
      rcases hi with hi | rfl
      · exact h.nobody hv i hi
      · exact hk
    · split at hv
      · cases hv
      · split at hv <;> cases hv

/-- **The search for a victim** finds a stale entry, if there is any. -/
theorem victim_stale (now : ℚ) (row : IpVolumeRow) :
    VictimSoFar now row places (places.foldl (victimTurn now row) none) := by
  have hstart : VictimSoFar now row [] none :=
    ⟨fun i hi => absurd hi (by simp), fun _ i hi => absurd hi List.not_mem_nil⟩
  exact found_foldl VictimSoFar.turn hstart places

/-- The place an address has or gets, and what stands there for it. -/
inductive Placed (now : ℚ) (row : IpVolumeRow) (ip : ℕ) (ipv6 : Bytes)
    (i : Fin IP_VOLUME_TABLE_SIZE) : IpVolumeEntry → Prop
  | found (h : ipVolumeLookup row ip ipv6 = some i) : Placed now row ip ipv6 i (row i)
  | made (h : ipVolumeLookup row ip ipv6 = none) (hroom : (row i).IsEmpty ∨ (row i).Stale now) :
      Placed now row ip ipv6 i (.made now ip ipv6)

/-- **What accounting for an address does to a row.** -/
inductive Accounts (now : ℚ) (row : IpVolumeRow) (ip : ℕ) (ipv6 : Bytes)
    (f : IpVolumeEntry → IpVolumeEntry) : IpVolumeRow → Prop
  | placed {i : Fin IP_VOLUME_TABLE_SIZE} {e : IpVolumeEntry} (h : Placed now row ip ipv6 i e) :
      Accounts now row ip ipv6 f (Function.update row i (f e))
  | full (hnone : ipVolumeLookup row ip ipv6 = none) (hfull : ¬ VolumeRoom now row) :
      Accounts now row ip ipv6 f row

/-- The place that is got, or made. -/
theorem ipVolumeGetOrCreate_cases (now : ℚ) (row : IpVolumeRow) (ip : ℕ) (ipv6 : Bytes) :
    (∃ i e, ipVolumeGetOrCreate now row ip ipv6 = (some i, Function.update row i e) ∧
        Placed now row ip ipv6 i e) ∨
      (ipVolumeGetOrCreate now row ip ipv6 = (none, row) ∧
        ipVolumeLookup row ip ipv6 = none ∧ ¬ VolumeRoom now row) := by
  unfold ipVolumeGetOrCreate
  cases hlookup : ipVolumeLookup row ip ipv6 with
  | some i =>
    refine .inl ⟨i, row i, ?_, .found hlookup⟩
    rw [Function.update_eq_self]
  | none =>
    unfold ipVolumeAcquireSlot
    cases hempty : places.find? fun i => decide (row i).IsEmpty with
    | some i =>
      have hi := List.find?_some hempty
      rw [decide_eq_true_eq] at hi
      exact .inl ⟨i, _, rfl, .made hlookup (.inl hi)⟩
    | none =>
      have hsearch := victim_stale now row
      cases hvictim : places.foldl (victimTurn now row) none with
      | some i =>
        refine .inl ⟨i, _, ?_, .made hlookup (.inr (hsearch.stale i hvictim))⟩
        dsimp only
        rw [Function.update_idem]
      | none =>
        refine .inr ⟨rfl, rfl, fun hroom => ?_⟩
        obtain ⟨i, hi | hi⟩ := hroom
        · have hnot := List.find?_eq_none.mp hempty i (mem_places i)
          rw [decide_eq_true_eq] at hnot
          exact hnot hi
        · exact hsearch.nobody hvictim i (mem_places i) hi

/-- **The accounting functions** change the row of their slot, and nothing else. -/
theorem ipVolumeAccount_accounts {v : IpVolume} (hon : 0 < v.topIpsPerSecret) {s : ℕ} (hs : s < 16)
    (ip : ℕ) (ipv6 : Bytes) (f : IpVolumeEntry → IpVolumeEntry) :
    ∃ row, ipVolumeAccount v s ip ipv6 f = v.setRow s row ∧
      Accounts v.preciseNow (v.row s) ip ipv6 f row := by
  have hin : ¬ ((s : ℤ) < 0 ∨ (s : ℤ) ≥ 16) := by omega
  unfold ipVolumeAccount
  rw [if_neg (not_le.mpr hon), if_neg hin, Int.toNat_natCast]
  rcases ipVolumeGetOrCreate_cases v.preciseNow (v.row s) ip ipv6 with
    ⟨i, e, hget, hplaced⟩ | ⟨hget, hnone, hfull⟩
  · rw [hget]
    dsimp only
    rw [Function.update_self, Function.update_idem]
    exact ⟨_, rfl, .placed hplaced⟩
  · rw [hget]
    exact ⟨_, rfl, .full hnone hfull⟩

theorem tcpRpcsAccountDisconnect_of_none {v : IpVolume} {s : ℕ}
    (hlookup : ipVolumeLookup (v.row s) ip ipv6 = none) :
    tcpRpcsAccountDisconnect v s ip ipv6 = v := by
  unfold tcpRpcsAccountDisconnect
  rw [Int.toNat_natCast, hlookup]
  split
  · rfl
  · split <;> rfl

theorem tcpRpcsAccountDisconnect_of_some {v : IpVolume} (hon : 0 < v.topIpsPerSecret) {s : ℕ}
    (hs : s < 16) (hlookup : ipVolumeLookup (v.row s) ip ipv6 = some i) :
    tcpRpcsAccountDisconnect v s ip ipv6 =
      v.setRow s (Function.update (v.row s) i ((v.row s i).disconnect v.preciseNow)) := by
  have hin : ¬ ((s : ℤ) < 0 ∨ (s : ℤ) ≥ 16) := by omega
  unfold tcpRpcsAccountDisconnect
  rw [if_neg (not_le.mpr hon), if_neg hin, Int.toNat_natCast, hlookup]

/-- What the row has for an address. -/
def volumeOf (row : IpVolumeRow) (ip : ℕ) (ipv6 : Bytes) : IpVolumeEntry :=
  match ipVolumeLookup row ip ipv6 with
  | some i => row i
  | none => .zero

/-- Two entries that count the same. -/
structure SameCounts (e e' : IpVolumeEntry) : Prop where
  connections : e.connections = e'.connections
  bytesIn : e.bytesIn = e'.bytesIn
  bytesOut : e.bytesOut = e'.bytesOut

variable {e : IpVolumeEntry}

theorem Placed.address (h : Placed now row ip ipv6 i e) : e.address = addressOf ip ipv6 := by
  cases h with
  | found h => exact (((row i).matches_iff ip ipv6).mp (ipVolumeLookup_some h)).1
  | made h => exact IpVolumeEntry.made_address now ip ipv6

/-- An entry that is made counts what the row had for its address: nothing. -/
theorem Placed.sameCounts (h : Placed now row ip ipv6 i e) :
    SameCounts e (volumeOf row ip ipv6) := by
  unfold volumeOf
  cases h with
  | found h =>
    rw [h]
    exact ⟨rfl, rfl, rfl⟩
  | made h =>
    rw [h]
    exact ⟨rfl, rfl, rfl⟩

theorem SameCounts.connect {e' : IpVolumeEntry} (h : SameCounts e e') (now : ℚ) :
    SameCounts (e.connect now) (e'.connect now) :=
  ⟨congrArg (· + 1) h.connections, h.bytesIn, h.bytesOut⟩

theorem SameCounts.addBytes {e' : IpVolumeEntry} (h : SameCounts e e') (now : ℚ)
    (bytes direction : ℤ) :
    SameCounts (e.addBytes now bytes direction) (e'.addBytes now bytes direction) := by
  unfold IpVolumeEntry.addBytes
  rw [h.bytesIn, h.bytesOut]
  split
  · exact ⟨h.connections, rfl, rfl⟩
  · exact ⟨h.connections, rfl, rfl⟩

/-! ### A row and the connections that are live -/

/-- **The entries of a row and the connections**, `count a` of them from the address `a`: an address
has one entry, its entry has the number of its connections, and those that have connections have an
entry. -/
structure RowSound (row : IpVolumeRow) (count : ℕ × Bytes → ℕ) : Prop where
  unique : ∀ i j, ¬ (row i).IsEmpty → (row i).address = (row j).address → i = j
  connections : ∀ i, ¬ (row i).IsEmpty → (row i).connections = count (row i).address
  entered : ∀ a, 0 < count a → ∃ i, (row i).address = a
  nobody : count noAddress = 0

/-- The entry at `i` may be that of the address `a`. -/
structure Settles (row : IpVolumeRow) (count : ℕ × Bytes → ℕ) (a : ℕ × Bytes)
    (i : Fin IP_VOLUME_TABLE_SIZE) : Prop where
  others : ∀ j, j ≠ i → (row j).address ≠ a
  remain : ∀ b, b ≠ a → 0 < count b → ∃ j, j ≠ i ∧ (row j).address = b

variable {count count' : ℕ × Bytes → ℕ} {a : ℕ × Bytes}

/-- An entry is put in its place. -/
theorem RowSound.put (h : RowSound row count) (ha : a ≠ noAddress) (hi : Settles row count a i)
    (haddress : e.address = a) (hcount : e.connections = count' a)
    (hother : ∀ b, b ≠ a → count' b = count b) : RowSound (Function.update row i e) count' where
  unique p q hp hpq := by
    by_cases hpi : p = i
    · by_cases hqi : q = i
      · rw [hpi, hqi]
      · rw [hpi, Function.update_self, Function.update_of_ne hqi, haddress] at hpq
        exact absurd hpq.symm (hi.others q hqi)
    · rw [Function.update_of_ne hpi] at hp hpq
      by_cases hqi : q = i
      · rw [hqi, Function.update_self, haddress] at hpq
        exact absurd hpq (hi.others p hpi)
      · rw [Function.update_of_ne hqi] at hpq
        exact h.unique p q hp hpq
  connections p hp := by
    by_cases hpi : p = i
    · rw [hpi, Function.update_self, haddress]
      exact hcount
    · rw [Function.update_of_ne hpi] at hp ⊢
      rw [hother _ (hi.others p hpi)]
      exact h.connections p hp
  entered b hb := by
    by_cases hba : b = a
    · exact ⟨i, by rw [Function.update_self, haddress, hba]⟩
    · rw [hother b hba] at hb
      obtain ⟨j, hji, hj⟩ := hi.remain b hba hb
      exact ⟨j, by rw [Function.update_of_ne hji, hj]⟩
  nobody := by
    rw [hother _ ha.symm]
    exact h.nobody

/-- The place of an entry that is there. -/
theorem RowSound.settles_of_address (h : RowSound row count) (ha : a ≠ noAddress)
    (hi : (row i).address = a) : Settles row count a i where
  others j hj hja := by
    exact hj (h.unique i j (IpVolumeEntry.not_isEmpty ha hi) (hi.trans hja.symm)).symm
  remain b hba hb := by
    obtain ⟨j, hj⟩ := h.entered b hb
    refine ⟨j, ?_, hj⟩
    rintro rfl
    exact hba (hj.symm.trans hi)

/-- **The place an address has or gets.** -/
theorem RowSound.settles (h : RowSound row count) (haddr : ¬ Unspecified ip ipv6)
    (hplaced : Placed now row ip ipv6 i e) :
    Settles row count (addressOf ip ipv6) i ∧ e.connections = count (addressOf ip ipv6) := by
  have ha := addressOf_ne_noAddress haddr
  have haddress := hplaced.address
  cases hplaced with
  | found hlookup =>
    refine ⟨h.settles_of_address ha haddress, ?_⟩
    rw [← haddress]
    exact h.connections i (IpVolumeEntry.not_isEmpty ha haddress)
  | made hlookup hroom =>
    have hnone (j : Fin IP_VOLUME_TABLE_SIZE) : (row j).address ≠ addressOf ip ipv6 := fun hj =>
      ipVolumeLookup_none hlookup j (((row j).matches_iff ip ipv6).mpr ⟨hj, haddr⟩)
    constructor
    · refine ⟨fun j _ => hnone j, fun b hba hb => ?_⟩
      obtain ⟨j, hj⟩ := h.entered b hb
      refine ⟨j, ?_, hj⟩
      rintro rfl
      -- whoever has connections is not evicted
      have hempty : ¬ (row j).IsEmpty := by
        intro hempty
        rw [IpVolumeEntry.isEmpty_iff, hj] at hempty
        rw [hempty, h.nobody] at hb
        exact lt_irrefl _ hb
      have hconnections := h.connections j hempty
      rw [hj] at hconnections
      have hstale := (hroom.resolve_left hempty).1
      omega
    · have hzero : count (addressOf ip ipv6) = 0 := by
        refine Nat.eq_zero_of_not_pos fun hpos => ?_
        obtain ⟨j, hj⟩ := h.entered _ hpos
        exact hnone j hj
      rw [hzero]
      rfl

theorem ipVolumeLookup_isSome (h : (row i).Matches ip ipv6) :
    (ipVolumeLookup row ip ipv6).isSome = true := by
  unfold ipVolumeLookup
  rw [List.find?_isSome]
  exact ⟨i, mem_places i, by simpa using h⟩

/-- **A connection comes.** -/
theorem RowSound.connect {row' : IpVolumeRow} (h : RowSound row count)
    (haddr : ¬ Unspecified ip ipv6) (haccounts : Accounts now row ip ipv6 (.connect now) row') :
    RowSound row' fun b => count b +
      if (ipVolumeLookup row' ip ipv6).isSome = true ∧ b = addressOf ip ipv6 then 1 else 0 := by
  cases haccounts with
  | full hnone hfull =>
    rw [hnone]
    simpa using h
  | @placed i e hplaced =>
    obtain ⟨hsettles, hcount⟩ := h.settles haddr hplaced
    have haddress : (e.connect now).address = addressOf ip ipv6 := hplaced.address
    have hsome :
        (ipVolumeLookup (Function.update row i (e.connect now)) ip ipv6).isSome = true := by
      refine ipVolumeLookup_isSome (i := i) ?_
      rw [Function.update_self]
      exact ((e.connect now).matches_iff ip ipv6).mpr ⟨haddress, haddr⟩
    have ha := addressOf_ne_noAddress haddr
    rw [hsome]
    refine h.put ha hsettles haddress ?_ fun b hb => ?_
    · show e.connections + 1 = _
      rw [hcount]
      simp
    · simp [hb]

/-- **Bytes are relayed.** -/
theorem RowSound.addBytes {row' : IpVolumeRow} {bytes direction : ℤ} (h : RowSound row count)
    (haddr : ¬ Unspecified ip ipv6)
    (haccounts : Accounts now row ip ipv6 (.addBytes now bytes direction) row') :
    RowSound row' count := by
  cases haccounts with
  | full hnone hfull => exact h
  | @placed i e hplaced =>
    obtain ⟨hsettles, hcount⟩ := h.settles haddr hplaced
    have ha := addressOf_ne_noAddress haddr
    refine h.put ha hsettles ?_ ?_ fun _ _ => rfl
    · rw [IpVolumeEntry.addBytes_address, hplaced.address]
    · rw [IpVolumeEntry.addBytes_connections, hcount]

/-- **A connection goes** that has an entry. -/
theorem RowSound.disconnect (h : RowSound row count) (haddr : ¬ Unspecified ip ipv6)
    (hi : ipVolumeLookup row ip ipv6 = some i)
    (hcount : count' (addressOf ip ipv6) = count (addressOf ip ipv6) - 1)
    (hother : ∀ b, b ≠ addressOf ip ipv6 → count' b = count b) :
    RowSound (Function.update row i ((row i).disconnect now)) count' := by
  have hplaced : Placed now row ip ipv6 i (row i) := .found hi
  obtain ⟨hsettles, hconnections⟩ := h.settles haddr hplaced
  have haddress := hplaced.address
  have ha := addressOf_ne_noAddress haddr
  refine h.put ha hsettles haddress ?_ hother
  show (if (row i).connections > 0 then (row i).connections - 1 else (row i).connections) = _
  rw [hconnections, hcount]
  split <;> omega

/-- Who has connections has an entry. -/
theorem RowSound.lookup_ne_none (h : RowSound row count) (haddr : ¬ Unspecified ip ipv6)
    (hpos : 0 < count (addressOf ip ipv6)) : ipVolumeLookup row ip ipv6 ≠ none := by
  intro hnone
  obtain ⟨j, hj⟩ := h.entered _ hpos
  exact ipVolumeLookup_none hnone j (((row j).matches_iff ip ipv6).mpr ⟨hj, haddr⟩)

/-! ### A row and the traffic there has been -/

/-- Bytes that a connection has been relayed, or a connection that has come, with none. -/
structure Traffic where
  address : ℕ × Bytes
  bytesIn : ℤ
  bytesOut : ℤ
  deriving DecidableEq

/-- The bytes to the server from an address. -/
def trafficIn (a : ℕ × Bytes) (log : List Traffic) : ℤ :=
  ((log.filter fun t => t.address = a).map Traffic.bytesIn).sum

/-- The bytes to an address. -/
def trafficOut (a : ℕ × Bytes) (log : List Traffic) : ℤ :=
  ((log.filter fun t => t.address = a).map Traffic.bytesOut).sum

theorem trafficIn_concat (a : ℕ × Bytes) (log : List Traffic) (t : Traffic) :
    trafficIn a (log ++ [t]) = trafficIn a log + if t.address = a then t.bytesIn else 0 := by
  unfold trafficIn
  rw [List.filter_append, List.map_append, List.sum_append]
  by_cases ht : t.address = a
  · simp [ht]
  · simp [ht]

theorem trafficOut_concat (a : ℕ × Bytes) (log : List Traffic) (t : Traffic) :
    trafficOut a (log ++ [t]) = trafficOut a log + if t.address = a then t.bytesOut else 0 := by
  unfold trafficOut
  rw [List.filter_append, List.map_append, List.sum_append]
  by_cases ht : t.address = a
  · simp [ht]
  · simp [ht]

/-- Who has sent or been sent bytes is in the log. -/
theorem exists_traffic {a : ℕ × Bytes} {log : List Traffic}
    (h : trafficIn a log ≠ 0 ∨ trafficOut a log ≠ 0) : ∃ t ∈ log, t.address = a := by
  by_contra hnone
  have hfilter : log.filter (fun t => t.address = a) = [] := by
    refine List.filter_eq_nil_iff.mpr fun t ht => ?_
    rw [decide_eq_true_eq]
    exact fun hta => hnone ⟨t, ht, hta⟩
  unfold trafficIn trafficOut at h
  rw [hfilter] at h
  simp at h

/-- **The bytes are those of the traffic of an address** from some moment on. -/
def CountsTraffic (log : List Traffic) (a : ℕ × Bytes) (bytesIn bytesOut : ℤ) : Prop :=
  ∃ recent, recent <:+ log ∧ bytesIn = wrap64 (trafficIn a recent) ∧
    bytesOut = wrap64 (trafficOut a recent)

/-- From this moment on there is nothing. -/
theorem countsTraffic_zero (log : List Traffic) (a : ℕ × Bytes) : CountsTraffic log a 0 0 :=
  ⟨[], List.nil_suffix, rfl, rfl⟩

/-- More traffic. -/
theorem CountsTraffic.concat {log : List Traffic} {a : ℕ × Bytes} {bytesIn bytesOut x y : ℤ}
    (h : CountsTraffic log a bytesIn bytesOut) (t : Traffic)
    (hx : ∀ z, bytesIn = wrap64 z → x = wrap64 (z + if t.address = a then t.bytesIn else 0))
    (hy : ∀ z, bytesOut = wrap64 z → y = wrap64 (z + if t.address = a then t.bytesOut else 0)) :
    CountsTraffic (log ++ [t]) a x y := by
  obtain ⟨recent, ⟨old, hold⟩, hin, hout⟩ := h
  refine ⟨recent ++ [t], ⟨old, ?_⟩, ?_, ?_⟩
  · rw [← List.append_assoc, hold]
  · rw [trafficIn_concat]
    exact hx _ hin
  · rw [trafficOut_concat]
    exact hy _ hout

/-- Traffic of another address. -/
theorem CountsTraffic.other {log : List Traffic} {a : ℕ × Bytes} {bytesIn bytesOut : ℤ}
    (h : CountsTraffic log a bytesIn bytesOut) {t : Traffic} (ht : t.address ≠ a) :
    CountsTraffic (log ++ [t]) a bytesIn bytesOut := by
  refine h.concat t (fun z hz => ?_) fun z hz => ?_
  · rw [if_neg ht, add_zero, hz]
  · rw [if_neg ht, add_zero, hz]

/-- **The bytes of a row** are those of the traffic in the log. -/
def RowBytes (row : IpVolumeRow) (log : List Traffic) : Prop :=
  ∀ i, ¬ (row i).IsEmpty → CountsTraffic log (row i).address (row i).bytesIn (row i).bytesOut

/-- Bytes as they come to be in the log. -/
def Traffic.relayed (address : ℕ × Bytes) (bytes direction : ℤ) : Traffic :=
  if direction = 0 then ⟨address, bytes, 0⟩ else ⟨address, 0, bytes⟩

theorem Traffic.relayed_address (address : ℕ × Bytes) (bytes direction : ℤ) :
    (Traffic.relayed address bytes direction).address = address := by
  unfold Traffic.relayed
  split <;> rfl

/-- What an entry does with a piece of traffic. -/
structure TakesTraffic (f : IpVolumeEntry → IpVolumeEntry) (t : Traffic) : Prop where
  address : ∀ e, (f e).address = e.address
  bytesIn : ∀ e z, e.bytesIn = wrap64 z → (f e).bytesIn = wrap64 (z + t.bytesIn)
  bytesOut : ∀ e z, e.bytesOut = wrap64 z → (f e).bytesOut = wrap64 (z + t.bytesOut)

theorem wrap64_add (z n : ℤ) : wrap64 (wrap64 z + n) = wrap64 (z + n) := Int.bmod_add_bmod

theorem takesTraffic_connect (now : ℚ) (address : ℕ × Bytes) :
    TakesTraffic (.connect now) ⟨address, 0, 0⟩ where
  address _ := rfl
  bytesIn e z hz := by
    rw [add_zero]
    exact hz
  bytesOut e z hz := by
    rw [add_zero]
    exact hz

theorem takesTraffic_addBytes (now : ℚ) (address : ℕ × Bytes) (bytes direction : ℤ) :
    TakesTraffic (.addBytes now bytes direction) (.relayed address bytes direction) := by
  unfold IpVolumeEntry.addBytes Traffic.relayed
  by_cases hdirection : direction = 0
  · simp only [if_pos hdirection]
    refine ⟨fun _ => rfl, fun e z hz => ?_, fun e z hz => ?_⟩
    · rw [hz, wrap64_add]
    · rw [add_zero]
      exact hz
  · simp only [if_neg hdirection]
    refine ⟨fun _ => rfl, fun e z hz => ?_, fun e z hz => ?_⟩
    · rw [add_zero]
      exact hz
    · rw [hz, wrap64_add]

/-- **Accounting** keeps the bytes of a row those of the traffic. -/
theorem RowBytes.accounts {f : IpVolumeEntry → IpVolumeEntry} {row' : IpVolumeRow}
    {log : List Traffic} {t : Traffic} (h : RowBytes row log) (hsound : RowSound row count)
    (haddr : ¬ Unspecified ip ipv6) (ht : t.address = addressOf ip ipv6)
    (hf : TakesTraffic f t) (haccounts : Accounts now row ip ipv6 f row') :
    RowBytes row' (log ++ [t]) := by
  cases haccounts with
  | full hnone hfull =>
    intro j hj
    refine (h j hj).other fun heq => ?_
    exact ipVolumeLookup_none hnone j
      (((row j).matches_iff ip ipv6).mpr ⟨heq.symm.trans ht, haddr⟩)
  | @placed i e hplaced =>
    obtain ⟨hsettles, -⟩ := hsound.settles haddr hplaced
    have hbefore : CountsTraffic log (addressOf ip ipv6) e.bytesIn e.bytesOut := by
      have haddress := hplaced.address
      cases hplaced with
      | made hlookup hroom => exact countsTraffic_zero log _
      | found hlookup =>
        rw [← haddress]
        exact h i (IpVolumeEntry.not_isEmpty (addressOf_ne_noAddress haddr) haddress)
    intro j hj
    by_cases hji : j = i
    · rw [hji, Function.update_self, hf.address, hplaced.address]
      refine hbefore.concat t (fun z hz => ?_) fun z hz => ?_
      · rw [if_pos ht]
        exact hf.bytesIn e z hz
      · rw [if_pos ht]
        exact hf.bytesOut e z hz
    · rw [Function.update_of_ne hji] at hj ⊢
      exact (h j hj).other fun heq => hsettles.others j hji (heq.symm.trans ht)

/-- A connection that goes leaves the bytes. -/
theorem RowBytes.disconnect {log : List Traffic} (h : RowBytes row log)
    (i : Fin IP_VOLUME_TABLE_SIZE) :
    RowBytes (Function.update row i ((row i).disconnect now)) log := by
  intro j hj
  by_cases hji : j = i
  · rw [hji, Function.update_self] at hj ⊢
    exact h i hj
  · rw [Function.update_of_ne hji] at hj ⊢
    exact h j hj

end Finding

end Server
end Teleproto3
