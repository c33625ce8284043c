/-
# The addresses with the most traffic

`net-tcp-rpc-ext-top-ips.c`: for each of sixteen slots a table of 64 addresses with their
connections and bytes, and a snapshot of the addresses with the most bytes.  An address gets an
empty place or that of an address that has been quiet for five seconds; where there is none it is
not tracked.

`tcpRpcsSnapshotTopIps_topOf` says what a snapshot puts out, whatever the table holds.
-/

import Mathlib.Data.Int.ConditionallyCompleteOrder
import Mathlib.Data.List.FinRange
import Mathlib.Logic.Function.Basic
import Teleproto3.Lib.Selection
import Teleproto3.Lib.Word32
import Teleproto3.Server.Conn

namespace Teleproto3
namespace Server

open Lib

/-! ### The table -/

/-- `IP_VOLUME_TABLE_SIZE`. -/
def IP_VOLUME_TABLE_SIZE : ℕ := 64

/-- `IP_VOLUME_STALE_SEC`. -/
def IP_VOLUME_STALE_SEC : ℚ := 5

/-- `WORKER_TOP_IPS_MAX`. -/
def WORKER_TOP_IPS_MAX : ℤ := 32

/-- An IPv6 address of zeros. -/
def zeroIpv6 : Bytes := List.replicate 16 0

/-- `struct ip_volume_entry`. -/
structure IpVolumeEntry where
  ip : ℕ
  ipv6 : Bytes
  connections : ℤ
  bytesIn : ℤ
  bytesOut : ℤ
  lastSeen : ℚ
  deriving DecidableEq

/-- An entry as `memset` leaves it. -/
def IpVolumeEntry.zero : IpVolumeEntry := ⟨0, zeroIpv6, 0, 0, 0, 0⟩

/-- There is no address in the entry. -/
def IpVolumeEntry.IsEmpty (e : IpVolumeEntry) : Prop := e.ip = 0 ∧ e.ipv6 = zeroIpv6

instance (e : IpVolumeEntry) : Decidable e.IsEmpty := inferInstanceAs (Decidable (_ ∧ _))

/-- The bytes of an entry both ways, in a `long long`. -/
def IpVolumeEntry.total (e : IpVolumeEntry) : ℤ := wrap64 (e.bytesIn + e.bytesOut)

/-- The table of one slot. -/
abbrev IpVolumeRow : Type := Fin IP_VOLUME_TABLE_SIZE → IpVolumeEntry

/-- The places of a table, in the order of the loops. -/
def places : List (Fin IP_VOLUME_TABLE_SIZE) := List.finRange IP_VOLUME_TABLE_SIZE

@[simp] theorem mem_places (i : Fin IP_VOLUME_TABLE_SIZE) : i ∈ places := List.mem_finRange i

theorem places_nodup : places.Nodup := List.nodup_finRange _

/-- `ip_volume`, `top_ips_per_secret_runtime` and `precise_now`.  The rows from the sixteenth on are
not there. -/
structure IpVolume where
  row : ℕ → IpVolumeRow
  topIpsPerSecret : ℤ
  preciseNow : ℚ

/-- `tcp_rpcs_set_top_ips_per_secret`. -/
def tcpRpcsSetTopIpsPerSecret (v : IpVolume) (n : ℤ) : IpVolume :=
  { v with topIpsPerSecret := min (max n 0) WORKER_TOP_IPS_MAX }

/-- The table a worker starts with. -/
def IpVolume.start (n : ℤ) (preciseNow : ℚ) : IpVolume :=
  tcpRpcsSetTopIpsPerSecret ⟨fun _ _ => .zero, 0, preciseNow⟩ n

/-! ### The snapshot -/

/-- `struct worker_top_ip`. -/
structure WorkerTopIp where
  ip : ℕ
  ipv6 : Bytes
  connections : ℤ
  bytesIn : ℤ
  bytesOut : ℤ
  deriving DecidableEq

/-- What a snapshot keeps of an entry. -/
def IpVolumeEntry.worker (e : IpVolumeEntry) : WorkerTopIp :=
  ⟨e.ip, e.ipv6, e.connections, e.bytesIn, e.bytesOut⟩

/-- One turn of the search for the best entry that is not picked: `best` and `best_total`. -/
def bestTurn (row : IpVolumeRow) (picked : List (Fin IP_VOLUME_TABLE_SIZE))
    (b : Option (Fin IP_VOLUME_TABLE_SIZE) × ℤ) (i : Fin IP_VOLUME_TABLE_SIZE) :
    Option (Fin IP_VOLUME_TABLE_SIZE) × ℤ :=
  if i ∈ picked then b
  else if (row i).IsEmpty then b
  else if (row i).total = 0 ∧ (row i).connections = 0 then b
  else if (row i).total > b.2 then (some i, (row i).total)
  else b

/-- `best`, at the end of the search. -/
def bestEntry (row : IpVolumeRow) (picked : List (Fin IP_VOLUME_TABLE_SIZE)) :
    Option (Fin IP_VOLUME_TABLE_SIZE) :=
  (places.foldl (bestTurn row picked) (none, -1)).1

/-- The entries a snapshot picks. -/
def snapshotPicks (row : IpVolumeRow) (max : ℕ) : List (Fin IP_VOLUME_TABLE_SIZE) :=
  pickLoop (bestEntry row) max []

/-- `tcp_rpcs_snapshot_top_ips`. -/
def tcpRpcsSnapshotTopIps (v : IpVolume) (sid max : ℤ) : List WorkerTopIp :=
  if v.topIpsPerSecret ≤ 0 then []
  else if sid < 0 ∨ sid ≥ 16 ∨ max ≤ 0 then []
  else (snapshotPicks (v.row sid.toNat) max.toNat).map fun i => (v.row sid.toNat i).worker

/-- **An entry to report**: it has an address, and bytes, which are not negative, or connections. -/
def Reportable (row : IpVolumeRow) (i : Fin IP_VOLUME_TABLE_SIZE) : Prop :=
  ¬ (row i).IsEmpty ∧ ¬ ((row i).total = 0 ∧ (row i).connections = 0) ∧ 0 ≤ (row i).total

instance (row : IpVolumeRow) : DecidablePred (Reportable row) :=
  fun _ => inferInstanceAs (Decidable (_ ∧ _ ∧ _))

/-- What the search has found among the places it has seen. -/
inductive BestSoFar (row : IpVolumeRow) (picked seen : List (Fin IP_VOLUME_TABLE_SIZE)) :
    Option (Fin IP_VOLUME_TABLE_SIZE) × ℤ → Prop
  | none (h : ∀ i ∈ seen, Reportable row i → i ∈ picked) : BestSoFar row picked seen (none, -1)
  | some {i : Fin IP_VOLUME_TABLE_SIZE} (hi : i ∈ seen) (hP : Reportable row i)
      (hnew : i ∉ picked)
      (hmax : ∀ j ∈ seen, Reportable row j → j ∉ picked → (row j).total ≤ (row i).total) :
      BestSoFar row picked seen (some i, (row i).total)

section BestSoFar

variable {row : IpVolumeRow} {picked seen : List (Fin IP_VOLUME_TABLE_SIZE)}
  {b : Option (Fin IP_VOLUME_TABLE_SIZE) × ℤ} {i : Fin IP_VOLUME_TABLE_SIZE}

/-- A place is passed over. -/
theorem BestSoFar.skip (h : BestSoFar row picked seen b)
    (hi : Reportable row i → i ∉ picked → (row i).total ≤ b.2) :
    BestSoFar row picked (seen ++ [i]) b := by
  cases h with
  | none h =>
    refine .none fun j hj hP => ?_
    rw [List.mem_append, List.mem_singleton] at hj
    rcases hj with hj | rfl
    · exact h j hj hP
    · by_contra hnew
      have hle := hi hP hnew
      have hlow := hP.2.2
      omega
  | some hk hP hnew hmax =>
    refine .some (List.mem_append_left _ hk) hP hnew fun j hj hPj hnewj => ?_
    rw [List.mem_append, List.mem_singleton] at hj
    rcases hj with hj | rfl
    · exact hmax j hj hPj hnewj
    · exact hi hPj hnewj

/-- A place with more bytes is taken. -/
theorem BestSoFar.take (h : BestSoFar row picked seen b) (hempty : ¬ (row i).IsEmpty)
    (hsome : ¬ ((row i).total = 0 ∧ (row i).connections = 0)) (hpicked : i ∉ picked)
    (hbetter : (row i).total > b.2) :
    BestSoFar row picked (seen ++ [i]) (Option.some i, (row i).total) := by
  have hlow : 0 ≤ (row i).total ∧
      ∀ j ∈ seen, Reportable row j → j ∉ picked → (row j).total ≤ (row i).total := by
    cases h with
    | none h =>
      refine ⟨?_, fun j hj hP hnew => absurd (h j hj hP) hnew⟩
      dsimp only at hbetter
      omega
    | some hk hP hnew hmax =>
      dsimp only at hbetter
      have hlow := hP.2.2
      exact ⟨by omega, fun j hj hPj hnewj => (hmax j hj hPj hnewj).trans hbetter.le⟩
  refine .some (by simp) ⟨hempty, hsome, hlow.1⟩ hpicked fun j hj hP hnew => ?_
  rw [List.mem_append, List.mem_singleton] at hj
  rcases hj with hj | rfl
  · exact hlow.2 j hj hP hnew
  · exact le_rfl

/-- One place more. -/
theorem BestSoFar.turn (h : BestSoFar row picked seen b) (i : Fin IP_VOLUME_TABLE_SIZE) :
    BestSoFar row picked (seen ++ [i]) (bestTurn row picked b i) := by
  unfold bestTurn
  by_cases hpicked : i ∈ picked
  · rw [if_pos hpicked]
    exact h.skip fun _ hnew => absurd hpicked hnew
  rw [if_neg hpicked]
  by_cases hempty : (row i).IsEmpty
  · rw [if_pos hempty]
    exact h.skip fun hP => absurd hempty hP.1
  rw [if_neg hempty]
  by_cases hnothing : (row i).total = 0 ∧ (row i).connections = 0
  · rw [if_pos hnothing]
    exact h.skip fun hP => absurd hnothing hP.2.1
  rw [if_neg hnothing]
  by_cases hbetter : (row i).total > b.2
  · rw [if_pos hbetter]
    exact h.take hempty hnothing hpicked hbetter
  · rw [if_neg hbetter]
    exact h.skip fun _ _ => not_lt.mp hbetter

end BestSoFar

/-- **The search finds a best entry that is left.** -/
theorem best_bestEntry (row : IpVolumeRow) (picked : List (Fin IP_VOLUME_TABLE_SIZE)) :
    Best (fun i => (row i).total) (Reportable row) places picked (bestEntry row picked) := by
  have hstart : BestSoFar row picked [] (none, -1) := .none (by simp)
  have hbest := found_foldl BestSoFar.turn hstart places
  rw [List.nil_append] at hbest
  unfold bestEntry
  generalize places.foldl (bestTurn row picked) (none, -1) = b at hbest
  cases hbest with
  | none h => exact .none h
  | some hi hP hnew hmax => exact .some hi hP hnew hmax

/-- How many entries a snapshot may put out: none where nothing is tracked. -/
def snapshotMax (v : IpVolume) (sid max : ℤ) : ℕ :=
  if v.topIpsPerSecret ≤ 0 ∨ sid < 0 ∨ sid ≥ 16 then 0 else max.toNat

/-- **What a snapshot puts out**: the entries to report with the most bytes, as many as there are,
and no more than it may; for every table, every slot and every `max`. -/
theorem tcpRpcsSnapshotTopIps_topOf (v : IpVolume) (sid max : ℤ) :
    ∃ picks, tcpRpcsSnapshotTopIps v sid max = picks.map (fun i => (v.row sid.toNat i).worker) ∧
      TopOf (fun i => (v.row sid.toNat i).total) (Reportable (v.row sid.toNat)) places
        (snapshotMax v sid max) picks := by
  have htop (k : ℕ) := topOf_pickLoop places_nodup (best_bestEntry (v.row sid.toNat)) k
  unfold tcpRpcsSnapshotTopIps snapshotMax
  by_cases hoff : v.topIpsPerSecret ≤ 0
  · rw [if_pos hoff, if_pos (Or.inl hoff)]
    exact ⟨[], rfl, htop 0⟩
  rw [if_neg hoff]
  by_cases hsid : sid < 0 ∨ sid ≥ 16
  · have hguard : sid < 0 ∨ sid ≥ 16 ∨ max ≤ 0 := by omega
    rw [if_pos hguard, if_pos (Or.inr hsid)]
    exact ⟨[], rfl, htop 0⟩
  have hlimit : ¬ (v.topIpsPerSecret ≤ 0 ∨ sid < 0 ∨ sid ≥ 16) := by omega
  rw [if_neg hlimit]
  by_cases hmax : max ≤ 0
  · rw [if_pos (Or.inr (Or.inr hmax)), Int.toNat_of_nonpos hmax]
    exact ⟨[], rfl, htop 0⟩
  have hguard : ¬ (sid < 0 ∨ sid ≥ 16 ∨ max ≤ 0) := by omega
  rw [if_neg hguard]
  exact ⟨_, rfl, htop max.toNat⟩

/-- A table with one address, which has a connection. -/
def sampleVolume (topIpsPerSecret : ℤ) : IpVolume :=
  ⟨fun _ _ => { IpVolumeEntry.zero with ip := 0x01020304, connections := 1 }, topIpsPerSecret, 0⟩

/-- With tracking off a snapshot is empty, whatever the table holds. -/
theorem tcpRpcsSnapshotTopIps_off :
    ¬ ((tcpRpcsSnapshotTopIps (sampleVolume 0) 0 1).length : ℤ) =
      min 1 ((places.filter fun i => Reportable ((sampleVolume 0).row 0) i).length : ℤ) := by
  have hall : places.filter (fun i => Reportable ((sampleVolume 0).row 0) i) = places := by
    refine List.filter_eq_self.mpr fun i _ => ?_
    simp [Reportable, sampleVolume, IpVolumeEntry.IsEmpty, IpVolumeEntry.total,
      IpVolumeEntry.zero]
    decide
  rw [hall]
  decide

end Server
end Teleproto3
