/-
# The traffic of a slot and its secrets

Connections come to the slots of the table of secrets, are relayed bytes and go; slots are drained
and released, and a reload gives a free slot to another secret.  The row of the table of addresses
that goes with a slot is in another file, has sixteen rows where there are 32 slots, and is cleared
by neither the release nor the reload, which clear all else that is kept about the slot.

`volume_isolated` is about every run whose steps meet `VolumeKept`: what a snapshot shows of a slot
is the traffic of the secret the slot has now.  `volume_leaks` is a run that does not meet it.
-/

import Teleproto3.Lib.Runs
import Teleproto3.Server.VolumeTable

namespace Teleproto3
namespace Server

open Lib

/-! ### Runs -/

/-- A live connection of a slot, and whether its coming has been entered into the table. -/
structure VolumeConn where
  slot : ℕ
  remote : RemoteAddr
  tracked : Bool

/-- The two tables, the connections that are live, and for each slot the traffic there has been
since its secret was given the slot. -/
structure VolumeRun where
  table : SecretTable
  volume : IpVolume
  live : List VolumeConn
  log : ℕ → List Traffic

/-- What happens. -/
inductive VolumeEvent
  /-- a connection is authenticated with the secret of a slot -/
  | connect (s : ℕ) (remote : RemoteAddr)
  /-- bytes are relayed for a live connection, to the server or from it -/
  | relay (i : ℕ) (bytes direction : ℤ)
  | disconnect (i : ℕ)
  | release (s : ℕ)
  | reload (cfgs : List SecretConfig)
  | tick (now : ℚ)

/-- A slot that has a secret. -/
def Usable (t : SecretTable) (s : ℕ) : Prop := s < EXT_SECRET_MAX_SLOTS ∧ (t.slot s).state ≠ .free

instance (t : SecretTable) (s : ℕ) : Decidable (Usable t s) :=
  inferInstanceAs (Decidable (_ ∧ _))

/-- The bytes of a slot, one way or the other. -/
def SecretSlot.relay (x : SecretSlot) (bytes direction : ℤ) : SecretSlot :=
  if direction = 0 then { x with bytesReceived := x.bytesReceived + bytes }
  else { x with bytesSent := x.bytesSent + bytes }

namespace VolumeRun

variable (x : VolumeRun)

/-- A connection comes. -/
def connect (s : ℕ) (remote : RemoteAddr) : VolumeRun :=
  let volume := tcpRpcsAccountConnect x.volume s remote.ip remote.ipv6
  { table := x.table.set s ((x.table.slot s).connect remote)
    volume := volume
    live := x.live ++ [⟨s, remote, (ipVolumeLookup (volume.row s) remote.ip remote.ipv6).isSome⟩]
    log := Function.update x.log s (x.log s ++ [⟨remote.address, 0, 0⟩]) }

/-- A live connection is relayed bytes. -/
def relay (c : VolumeConn) (bytes direction : ℤ) : VolumeRun :=
  { table := x.table.set c.slot ((x.table.slot c.slot).relay bytes direction)
    volume := tcpRpcsAccountBytes x.volume c.slot c.remote.ip c.remote.ipv6 bytes direction
    live := x.live
    log := Function.update x.log c.slot
      (x.log c.slot ++ [.relayed c.remote.address bytes direction]) }

/-- A live connection goes. -/
def disconnect (i : ℕ) (c : VolumeConn) : VolumeRun :=
  { table := x.table.set c.slot ((x.table.slot c.slot).disconnect c.remote)
    volume := tcpRpcsAccountDisconnect x.volume c.slot c.remote.ip c.remote.ipv6
    live := x.live.eraseIdx i
    log := x.log }

/-- A new configuration.  The traffic of a slot that is taken into use begins here. -/
def reload (cfgs : List SecretConfig) : VolumeRun :=
  let table := (tcpRpcsReloadExtSecrets x.table x.volume.preciseNow cfgs).1
  { table := table
    volume := x.volume
    live := x.live
    log := fun s =>
      if (x.table.slot s).state = .free ∧ (table.slot s).state ≠ .free then [] else x.log s }

end VolumeRun

/-- One event. -/
def volumeStep (x : VolumeRun) : VolumeEvent → VolumeRun
  | .connect s remote => if Usable x.table s then x.connect s remote else x
  | .relay i bytes direction =>
    match x.live[i]? with
    | none => x
    | some c => if bytes > 0 then x.relay c bytes direction else x
  | .disconnect i =>
    match x.live[i]? with
    | none => x
    | some c => x.disconnect i c
  | .release s => { x with table := tcpRpcsDrainReleaseSlotIfEmpty x.table s }
  | .reload cfgs => x.reload cfgs
  | .tick now => { x with volume := { x.volume with preciseNow := now } }

/-- A server that begins to serve: the secrets of the command line, which are pinned, and those of
the configuration. -/
def VolumeRun.start (pinned cfgs : List SecretConfig) (n : ℤ) (now : ℚ) : VolumeRun where
  table := cfgs.foldl tcpRpcsSetExtSecret
    (tcpRpcsPinExtSecrets (pinned.foldl tcpRpcsSetExtSecret .empty))
  volume := .start n now
  live := []
  log := fun _ => []

/-! ### What is promised -/

/-- Where a connection has been entered. -/
def VolumeConn.place (c : VolumeConn) : Option (ℕ × ℕ × Bytes) :=
  if c.tracked = true then some (c.slot, c.remote.address) else none

/-- The slot of a connection. -/
def VolumeConn.home (c : VolumeConn) : Option ℕ := some c.slot

/-- **The traffic of a secret is its own**: a snapshot of a slot in use shows addresses of
connections that have been authenticated with the secret the slot has now, and bytes they have been
relayed; and no entry has fewer connections than have been entered and are live. -/
structure VolumeIsolated (x : VolumeRun) : Prop where
  snapshot : ∀ s max, (x.table.slot s).state ≠ .free →
    ∀ w ∈ tcpRpcsSnapshotTopIps x.volume (s : ℕ) max,
      (∃ t ∈ x.log s, t.address = addressOf w.ip w.ipv6) ∧
        CountsTraffic (x.log s) (addressOf w.ip w.ipv6) w.bytesIn w.bytesOut
  connections : ∀ s i, s < 16 → ¬ (x.volume.row s i).IsEmpty →
    (tally VolumeConn.place x.live (s, (x.volume.row s i).address) : ℤ) ≤
      (x.volume.row s i).connections

/-- The row has an entry for the address, which counts what it had for it with `f` done to that. -/
def Recorded (row row' : IpVolumeRow) (ip : ℕ) (ipv6 : Bytes)
    (f : IpVolumeEntry → IpVolumeEntry) : Prop :=
  ∃ i, (row' i).Matches ip ipv6 ∧ SameCounts (row' i) (f (volumeOf row ip ipv6))

/-- There is an entry for the address, or one may be made. -/
def Enterable (v : IpVolume) (s : ℕ) (remote : RemoteAddr) : Prop :=
  ipVolumeLookup (v.row s) remote.ip remote.ipv6 ≠ none ∨ VolumeRoom v.preciseNow (v.row s)

/-- **The traffic of every slot in use is tracked**, where its row has room. -/
def VolumeTracked (x : VolumeRun) (e : VolumeEvent) : Prop :=
  match e with
  | .connect s remote => Usable x.table s → Enterable x.volume s remote →
      Recorded (x.volume.row s) ((volumeStep x e).volume.row s) remote.ip remote.ipv6
        (.connect x.volume.preciseNow)
  | .relay i bytes direction => ∀ c, x.live[i]? = some c → bytes > 0 →
      Enterable x.volume c.slot c.remote →
      Recorded (x.volume.row c.slot) ((volumeStep x e).volume.row c.slot) c.remote.ip c.remote.ipv6
        (.addBytes x.volume.preciseNow bytes direction)
  | _ => True

/-- **What a step has to keep to**: a connection comes to one of the first sixteen slots, and has an
address; one that goes without having been entered finds no connections under its address; and a
slot that is given to another secret has no bytes left in its row. -/
def VolumeKept (x : VolumeRun) : VolumeEvent → Prop
  | .connect s remote => Usable x.table s → s < 16 ∧ ¬ Unspecified remote.ip remote.ipv6
  | .disconnect i => ∀ c, x.live[i]? = some c → c.tracked = false →
      ∀ j, (x.volume.row c.slot j).Matches c.remote.ip c.remote.ipv6 →
        (x.volume.row c.slot j).connections ≤ 0
  | .reload cfgs => ∀ s, (x.table.slot s).state = .free →
      ((tcpRpcsReloadExtSecrets x.table x.volume.preciseNow cfgs).1.slot s).state ≠ .free →
      ∀ i, ¬ (x.volume.row s i).IsEmpty →
        (x.volume.row s i).bytesIn = 0 ∧ (x.volume.row s i).bytesOut = 0
  | _ => True

/-! ### The invariant -/

/-- The number of connections from an address that a row's entry for it is to have. -/
def entered (live : List VolumeConn) (s : ℕ) (a : ℕ × Bytes) : ℕ :=
  tally VolumeConn.place live (s, a)

/-- **The invariant.** -/
structure VolumeInv (x : VolumeRun) : Prop where
  on : 0 < x.volume.topIpsPerSecret
  counted : ∀ s, (x.table.slot s).state ≠ .free →
    (x.table.slot s).connections = tally VolumeConn.home x.live s
  free : ∀ s, (x.table.slot s).state = .free → tally VolumeConn.home x.live s = 0
  home : ∀ c ∈ x.live, c.slot < 16 ∧ ¬ Unspecified c.remote.ip c.remote.ipv6
  known : ∀ c ∈ x.live, ∃ t ∈ x.log c.slot, t.address = c.remote.address
  rows : ∀ s, RowSound (x.volume.row s) (entered x.live s)
  bytes : ∀ s, (x.table.slot s).state ≠ .free → RowBytes (x.volume.row s) (x.log s)

/-! ### What the invariant says -/

theorem mem_snapshot {v : IpVolume} {s : ℕ} {max : ℤ} {w : WorkerTopIp}
    (hw : w ∈ tcpRpcsSnapshotTopIps v (s : ℕ) max) :
    ∃ i, w = (v.row s i).worker ∧ Reportable (v.row s) i := by
  unfold tcpRpcsSnapshotTopIps at hw
  split at hw
  · exact absurd hw List.not_mem_nil
  · split at hw
    · exact absurd hw List.not_mem_nil
    · rw [Int.toNat_natCast] at hw
      obtain ⟨i, hi, rfl⟩ := List.mem_map.mp hw
      have htop := topOf_pickLoop places_nodup (best_bestEntry (v.row s)) max.toNat
      exact ⟨i, rfl, (htop.candidates i hi).2⟩

theorem VolumeConn.place_eq_some {c : VolumeConn} {s : ℕ} {a : ℕ × Bytes} :
    c.place = some (s, a) ↔ c.tracked = true ∧ c.slot = s ∧ c.remote.address = a := by
  unfold VolumeConn.place
  split
  next h => simp [h]
  next h => simp [h]

theorem entered_pos {live : List VolumeConn} {s : ℕ} {a : ℕ × Bytes} (h : 0 < entered live s a) :
    ∃ c ∈ live, c.slot = s ∧ c.remote.address = a := by
  by_contra hnone
  have hzero : entered live s a = 0 := by
    refine tally_eq_zero _ fun c hc hplace => hnone ?_
    obtain ⟨-, hs, ha⟩ := VolumeConn.place_eq_some.mp hplace
    exact ⟨c, hc, hs, ha⟩
  omega

/-- **What the invariant promises.** -/
theorem VolumeInv.isolated {x : VolumeRun} (h : VolumeInv x) : VolumeIsolated x where
  snapshot s max hs w hw := by
    obtain ⟨i, rfl, hempty, hsome, -⟩ := mem_snapshot hw
    have hbytes := h.bytes s hs i hempty
    refine ⟨?_, hbytes⟩
    by_cases hconnections : (x.volume.row s i).connections = 0
    · have htotal : (x.volume.row s i).total ≠ 0 := fun hzero => hsome ⟨hzero, hconnections⟩
      obtain ⟨recent, hrecent, hin, hout⟩ := hbytes
      have htraffic : trafficIn (x.volume.row s i).address recent ≠ 0 ∨
          trafficOut (x.volume.row s i).address recent ≠ 0 := by
        by_contra hnot
        rw [not_or, not_not, not_not] at hnot
        rw [hnot.1] at hin
        rw [hnot.2] at hout
        refine htotal ?_
        unfold IpVolumeEntry.total
        rw [hin, hout]
        rfl
      obtain ⟨t, ht, hta⟩ := exists_traffic htraffic
      exact ⟨t, hrecent.mem ht, hta⟩
    · have hpos : 0 < entered x.live s (x.volume.row s i).address := by
        have hcount := (h.rows s).connections i hempty
        omega
      obtain ⟨c, hc, rfl, hca⟩ := entered_pos hpos
      obtain ⟨t, ht, hta⟩ := h.known c hc
      exact ⟨t, ht, hta.trans hca⟩
  connections s i _ hempty := le_of_eq ((h.rows s).connections i hempty).symm

/-- **What is accounted for is recorded**, where there is an entry or room for one. -/
theorem Accounts.recorded {now : ℚ} {row row' : IpVolumeRow} {ip : ℕ} {ipv6 : Bytes}
    {f : IpVolumeEntry → IpVolumeEntry} (h : Accounts now row ip ipv6 f row')
    (haddr : ¬ Unspecified ip ipv6)
    (hroom : ipVolumeLookup row ip ipv6 ≠ none ∨ VolumeRoom now row)
    (haddress : ∀ e, (f e).address = e.address)
    (hcounts : ∀ {e e'}, SameCounts e e' → SameCounts (f e) (f e')) :
    Recorded row row' ip ipv6 f := by
  cases h with
  | full hnone hfull => exact absurd hroom (not_or.mpr ⟨not_not.mpr hnone, hfull⟩)
  | @placed i e hplaced =>
    refine ⟨i, ?_, ?_⟩
    · rw [Function.update_self]
      exact ((f e).matches_iff ip ipv6).mpr ⟨(haddress e).trans hplaced.address, haddr⟩
    · rw [Function.update_self]
      exact hcounts hplaced.sameCounts

/-! ### One event -/

theorem volumeStep_connect {x : VolumeRun} {s : ℕ} {remote : RemoteAddr} (h : Usable x.table s) :
    volumeStep x (.connect s remote) = x.connect s remote := if_pos h

theorem volumeStep_relay {x : VolumeRun} {i : ℕ} {c : VolumeConn} {bytes direction : ℤ}
    (hi : x.live[i]? = some c) (hbytes : bytes > 0) :
    volumeStep x (.relay i bytes direction) = x.relay c bytes direction := by
  simp only [volumeStep, hi, if_pos hbytes]

theorem weight_place (c : VolumeConn) (s : ℕ) (a : ℕ × Bytes) :
    weight VolumeConn.place c (s, a) =
      if c.tracked = true ∧ c.slot = s ∧ c.remote.address = a then 1 else 0 := by
  unfold weight
  exact if_congr VolumeConn.place_eq_some rfl rfl

theorem weight_home (c : VolumeConn) (s : ℕ) :
    weight VolumeConn.home c s = if c.slot = s then 1 else 0 := by
  unfold weight VolumeConn.home
  exact if_congr (by rw [Option.some.injEq]) rfl rfl

@[simp] theorem IpVolume.setRow_row_self (v : IpVolume) (s : ℕ) (row : IpVolumeRow) :
    (v.setRow s row).row s = row := Function.update_self ..

theorem IpVolume.setRow_row_of_ne (v : IpVolume) {s r : ℕ} (row : IpVolumeRow) (h : r ≠ s) :
    (v.setRow s row).row r = v.row r := Function.update_of_ne h ..

theorem entered_concat (live : List VolumeConn) (c : VolumeConn) (s : ℕ) (a : ℕ × Bytes) :
    entered (live ++ [c]) s a = entered live s a +
      if c.tracked = true ∧ c.slot = s ∧ c.remote.address = a then 1 else 0 := by
  rw [entered, tally_concat, weight_place]
  rfl

theorem entered_eraseIdx {live : List VolumeConn} {i : ℕ} {c : VolumeConn} (hi : live[i]? = some c)
    (s : ℕ) (a : ℕ × Bytes) :
    entered live s a = entered (live.eraseIdx i) s a +
      if c.tracked = true ∧ c.slot = s ∧ c.remote.address = a then 1 else 0 := by
  rw [entered, tally_eraseIdx _ hi, weight_place]
  rfl

/-- **What an event of one slot leaves alone**: the other slots, their rows and their traffic. -/
structure OneSlot (x x' : VolumeRun) (s : ℕ) : Prop where
  on : x'.volume.topIpsPerSecret = x.volume.topIpsPerSecret
  state : ∀ r, (x'.table.slot r).state = (x.table.slot r).state
  connections : ∀ r, r ≠ s → (x'.table.slot r).connections = (x.table.slot r).connections
  row : ∀ r, r ≠ s → x'.volume.row r = x.volume.row r
  log : ∀ r, r ≠ s → x'.log r = x.log r
  home : ∀ r, r ≠ s → tally VolumeConn.home x'.live r = tally VolumeConn.home x.live r
  entered : ∀ r, r ≠ s → entered x'.live r = entered x.live r

/-- One slot is set, and its row. -/
theorem OneSlot.of_set {x x' : VolumeRun} {s : ℕ} {y : SecretSlot} {row : IpVolumeRow}
    (htable : x'.table = x.table.set s y) (hstate : y.state = (x.table.slot s).state)
    (hvolume : x'.volume = x.volume.setRow s row) (hlog : ∀ r, r ≠ s → x'.log r = x.log r)
    (hhome : ∀ r, r ≠ s → tally VolumeConn.home x'.live r = tally VolumeConn.home x.live r)
    (hentered : ∀ r, r ≠ s → Server.entered x'.live r = Server.entered x.live r) :
    OneSlot x x' s where
  on := by
    rw [hvolume]
    rfl
  state r := by
    rw [htable]
    by_cases hr : r = s
    · rw [hr, SecretTable.set_slot_self, hstate]
    · rw [x.table.set_slot_of_ne y hr]
  connections r hr := by rw [htable, x.table.set_slot_of_ne y hr]
  row r hr := by rw [hvolume, x.volume.setRow_row_of_ne row hr]
  log := hlog
  home := hhome
  entered := hentered

/-- What has been in a log stays there. -/
theorem mem_update_log {log : ℕ → List Traffic} {r : ℕ} {t : Traffic} (h : t ∈ log r) (s : ℕ)
    (u : Traffic) : t ∈ Function.update log s (log s ++ [u]) r := by
  by_cases hr : r = s
  · rw [hr] at h ⊢
    rw [Function.update_self]
    exact List.mem_append_left _ h
  · rw [Function.update_of_ne hr]
    exact h

namespace VolumeInv

variable {x x' : VolumeRun} {s : ℕ}

/-- An event of one slot. -/
theorem of_oneSlot (h : VolumeInv x) (hone : OneSlot x x' s)
    (hused : (x.table.slot s).state ≠ .free)
    (hcounted : (x'.table.slot s).connections = tally VolumeConn.home x'.live s)
    (hhome : ∀ c ∈ x'.live, c.slot < 16 ∧ ¬ Unspecified c.remote.ip c.remote.ipv6)
    (hknown : ∀ c ∈ x'.live, ∃ t ∈ x'.log c.slot, t.address = c.remote.address)
    (hrow : RowSound (x'.volume.row s) (entered x'.live s))
    (hbytes : RowBytes (x'.volume.row s) (x'.log s)) : VolumeInv x' where
  on := by
    rw [hone.on]
    exact h.on
  counted r hr := by
    rw [hone.state] at hr
    by_cases hrs : r = s
    · rw [hrs]
      exact hcounted
    · rw [hone.connections r hrs, hone.home r hrs]
      exact h.counted r hr
  free r hr := by
    rw [hone.state] at hr
    have hrs : r ≠ s := by
      rintro rfl
      exact hused hr
    rw [hone.home r hrs]
    exact h.free r hr
  home := hhome
  known := hknown
  rows r := by
    by_cases hrs : r = s
    · rw [hrs]
      exact hrow
    · rw [hone.row r hrs, hone.entered r hrs]
      exact h.rows r
  bytes r hr := by
    rw [hone.state] at hr
    by_cases hrs : r = s
    · rw [hrs]
      exact hbytes
    · rw [hone.row r hrs, hone.log r hrs]
      exact h.bytes r hr

/-- The connection that comes is entered if there is an entry for its address then. -/
theorem live_connect {remote : RemoteAddr} {row : IpVolumeRow}
    (hvolume : (x.connect s remote).volume = x.volume.setRow s row) :
    (x.connect s remote).live =
      x.live ++ [⟨s, remote, (ipVolumeLookup row remote.ip remote.ipv6).isSome⟩] := by
  have hrow : (tcpRpcsAccountConnect x.volume s remote.ip remote.ipv6).row s = row :=
    (congrArg (IpVolume.row · s) hvolume).trans (IpVolume.setRow_row_self ..)
  unfold VolumeRun.connect
  dsimp only
  rw [hrow]

/-- **A connection comes.** -/
theorem connect (h : VolumeInv x) {remote : RemoteAddr} (hused : Usable x.table s)
    (hs : s < 16) (haddr : ¬ Unspecified remote.ip remote.ipv6) :
    VolumeInv (x.connect s remote) := by
  obtain ⟨row, hvolume, haccounts⟩ := ipVolumeAccount_accounts h.on hs remote.ip remote.ipv6
    (.connect x.volume.preciseNow)
  have hvolume' : (x.connect s remote).volume = x.volume.setRow s row := hvolume
  obtain ⟨ips, n, hconnect⟩ := (x.table.slot s).connect_eq remote
  have hself : (x.connect s remote).table.slot s = { x.table.slot s with
      connections := (x.table.slot s).connections + 1, ips := ips, uniqueIpCount := n } :=
    (x.table.set_slot_self s _).trans hconnect
  have hlog : (x.connect s remote).log s = x.log s ++ [⟨remote.address, 0, 0⟩] :=
    Function.update_self ..
  have hlive := live_connect hvolume'
  have hmem {c : VolumeConn} (hc : c ∈ (x.connect s remote).live) :
      c ∈ x.live ∨ c = ⟨s, remote, (ipVolumeLookup row remote.ip remote.ipv6).isSome⟩ := by
    rwa [hlive, List.mem_append, List.mem_singleton] at hc
  have hone : OneSlot x (x.connect s remote) s := by
    refine .of_set rfl (by rw [hconnect]) hvolume'
      (fun r hr => Function.update_of_ne hr ..) (fun r hr => ?_) (fun r hr => ?_)
    · rw [hlive, tally_concat, weight_home, if_neg (Ne.symm hr), add_zero]
    · funext a
      rw [hlive, entered_concat, if_neg fun hplace => hr hplace.2.1.symm, add_zero]
  refine h.of_oneSlot hone hused.2 ?_ (fun c hc => ?_) (fun c hc => ?_) ?_ ?_
  · rw [hself, hlive, tally_concat, weight_home, if_pos rfl]
    push_cast
    rw [← h.counted s hused.2]
  · rcases hmem hc with hc | rfl
    · exact h.home c hc
    · exact ⟨hs, haddr⟩
  · rcases hmem hc with hc | rfl
    · obtain ⟨t, ht, hta⟩ := h.known c hc
      exact ⟨t, mem_update_log ht s _, hta⟩
    · refine ⟨⟨remote.address, 0, 0⟩, ?_, rfl⟩
      rw [hlog]
      exact List.mem_append_right _ (List.mem_singleton_self _)
  · have hrow := (h.rows s).connect haddr haccounts
    have hcount : entered (x.connect s remote).live s = fun b => entered x.live s b +
        if (ipVolumeLookup row remote.ip remote.ipv6).isSome = true ∧
          b = addressOf remote.ip remote.ipv6 then 1 else 0 := by
      funext b
      rw [hlive, entered_concat]
      refine congrArg _ (if_congr ?_ rfl rfl)
      constructor
      · rintro ⟨hsome, -, hb⟩
        exact ⟨hsome, hb.symm⟩
      · rintro ⟨hsome, hb⟩
        exact ⟨hsome, rfl, hb.symm⟩
    rw [hvolume', IpVolume.setRow_row_self, hcount]
    exact hrow
  · rw [hvolume', IpVolume.setRow_row_self, hlog]
    exact (h.bytes s hused.2).accounts (h.rows s) haddr rfl
      (takesTraffic_connect x.volume.preciseNow remote.address) haccounts

/-- The slot of a live connection is in use. -/
theorem used (h : VolumeInv x) {c : VolumeConn} (hc : c ∈ x.live) :
    (x.table.slot c.slot).state ≠ .free := by
  intro hfree
  have hpos := tally_pos VolumeConn.home hc rfl
  rw [h.free c.slot hfree] at hpos
  exact lt_irrefl _ hpos

/-- **Bytes are relayed.** -/
theorem relay (h : VolumeInv x) {c : VolumeConn} (hc : c ∈ x.live) {bytes : ℤ} (hbytes : bytes > 0)
    (direction : ℤ) : VolumeInv (x.relay c bytes direction) := by
  obtain ⟨hslot, haddr⟩ := h.home c hc
  obtain ⟨row, hvolume, haccounts⟩ := ipVolumeAccount_accounts h.on hslot c.remote.ip c.remote.ipv6
    (.addBytes x.volume.preciseNow bytes direction)
  have hvolume' : (x.relay c bytes direction).volume = x.volume.setRow c.slot row := by
    show tcpRpcsAccountBytes _ _ _ _ _ _ = _
    unfold tcpRpcsAccountBytes
    rw [if_neg (not_le.mpr hbytes)]
    exact hvolume
  have hlog : (x.relay c bytes direction).log c.slot =
      x.log c.slot ++ [.relayed c.remote.address bytes direction] := Function.update_self ..
  have hself : (x.relay c bytes direction).table.slot c.slot =
      (x.table.slot c.slot).relay bytes direction := x.table.set_slot_self c.slot _
  have hrelay (y : SecretSlot) : (y.relay bytes direction).state = y.state ∧
      (y.relay bytes direction).connections = y.connections := by
    unfold SecretSlot.relay
    split <;> exact ⟨rfl, rfl⟩
  have hone : OneSlot x (x.relay c bytes direction) c.slot :=
    .of_set rfl (hrelay _).1 hvolume' (fun r hr => Function.update_of_ne hr ..)
      (fun _ _ => rfl) fun _ _ => rfl
  refine h.of_oneSlot hone (h.used hc) ?_ h.home (fun d hd => ?_) ?_ ?_
  · rw [hself, (hrelay _).2]
    exact h.counted c.slot (h.used hc)
  · obtain ⟨t, ht, hta⟩ := h.known d hd
    exact ⟨t, mem_update_log ht c.slot _, hta⟩
  · rw [hvolume', IpVolume.setRow_row_self]
    exact (h.rows c.slot).addBytes haddr haccounts
  · rw [hvolume', IpVolume.setRow_row_self, hlog]
    exact (h.bytes c.slot (h.used hc)).accounts (h.rows c.slot) haddr
      (Traffic.relayed_address _ _ _)
      (takesTraffic_addBytes x.volume.preciseNow c.remote.address bytes direction) haccounts

/-- What a connection that goes does to the row of its slot. -/
theorem disconnect_row (h : VolumeInv x) {i : ℕ} {c : VolumeConn} (hi : x.live[i]? = some c)
    (hkept : VolumeKept x (.disconnect i)) :
    ∃ row, (x.disconnect i c).volume = x.volume.setRow c.slot row ∧
      RowSound row (entered (x.live.eraseIdx i) c.slot) ∧
      ∀ log, RowBytes (x.volume.row c.slot) log → RowBytes row log := by
  obtain ⟨hslot, haddr⟩ := h.home c (List.mem_of_getElem? hi)
  have hcount (a : ℕ × Bytes) := entered_eraseIdx hi c.slot a
  have hrow := h.rows c.slot
  have hvolume : (x.disconnect i c).volume =
      tcpRpcsAccountDisconnect x.volume c.slot c.remote.ip c.remote.ipv6 := rfl
  cases hlookup : ipVolumeLookup (x.volume.row c.slot) c.remote.ip c.remote.ipv6 with
  | none =>
    have huntracked : ¬ c.tracked = true := by
      intro htracked
      refine hrow.lookup_ne_none haddr ?_ hlookup
      rw [hcount, if_pos ⟨htracked, rfl, rfl⟩]
      exact Nat.succ_pos _
    have hsame : entered x.live c.slot = entered (x.live.eraseIdx i) c.slot := by
      funext a
      rw [hcount, if_neg fun hplace => huntracked hplace.1, add_zero]
    refine ⟨x.volume.row c.slot, ?_, hsame ▸ hrow, fun _ hlog => hlog⟩
    rw [hvolume, tcpRpcsAccountDisconnect_of_none hlookup, IpVolume.setRow, Function.update_eq_self]
  | some j =>
    refine ⟨_, hvolume.trans (tcpRpcsAccountDisconnect_of_some h.on hslot hlookup),
      hrow.disconnect haddr hlookup ?_ fun b hb => ?_, fun _ hlog => hlog.disconnect j⟩
    · have hself := hcount (addressOf c.remote.ip c.remote.ipv6)
      by_cases htracked : c.tracked = true
      · rw [if_pos ⟨htracked, rfl, rfl⟩] at hself
        omega
      · -- The entry has no connections, for one that has not been entered finds none.
        have hmatches := ipVolumeLookup_some hlookup
        have hnone := hkept c hi (Bool.eq_false_of_not_eq_true htracked) j hmatches
        have haddress := (((x.volume.row c.slot j).matches_iff _ _).mp hmatches).1
        have hempty := IpVolumeEntry.not_isEmpty (addressOf_ne_noAddress haddr) haddress
        have hconnections := hrow.connections j hempty
        rw [haddress] at hconnections
        rw [if_neg fun hplace => htracked hplace.1] at hself
        omega
    · rw [hcount b, if_neg fun hplace => hb hplace.2.2.symm, add_zero]

/-- **A connection goes.** -/
theorem disconnect (h : VolumeInv x) {i : ℕ} {c : VolumeConn} (hi : x.live[i]? = some c)
    (hkept : VolumeKept x (.disconnect i)) : VolumeInv (x.disconnect i c) := by
  have hc : c ∈ x.live := List.mem_of_getElem? hi
  obtain ⟨row, hvolume, hrow, hbytes⟩ := h.disconnect_row hi hkept
  obtain ⟨ips, n, hdisconnect⟩ := (x.table.slot c.slot).disconnect_eq c.remote
  have hself : (x.disconnect i c).table.slot c.slot = { x.table.slot c.slot with
      connections := (x.table.slot c.slot).connections - 1, ips := ips, uniqueIpCount := n } :=
    (x.table.set_slot_self c.slot _).trans hdisconnect
  have hhome (r : ℕ) := tally_eraseIdx VolumeConn.home hi r
  have hone : OneSlot x (x.disconnect i c) c.slot := by
    refine .of_set rfl (by rw [hdisconnect]) hvolume (fun _ _ => rfl)
      (fun r hr => ?_) fun r hr => ?_
    · rw [hhome r, weight_home, if_neg (Ne.symm hr), add_zero]
      rfl
    · funext a
      rw [entered_eraseIdx hi r a, if_neg fun hplace => hr hplace.2.1.symm, add_zero]
      rfl
  refine h.of_oneSlot hone (h.used hc) ?_ (fun d hd => ?_) (fun d hd => ?_) ?_ ?_
  · have hcounted := h.counted c.slot (h.used hc)
    rw [hhome c.slot, weight_home, if_pos rfl] at hcounted
    rw [hself]
    show (x.table.slot c.slot).connections - 1 = (tally VolumeConn.home (x.live.eraseIdx i) _ : ℤ)
    omega
  · exact h.home d (List.mem_of_mem_eraseIdx hd)
  · exact h.known d (List.mem_of_mem_eraseIdx hd)
  · rw [hvolume, IpVolume.setRow_row_self]
    exact hrow
  · rw [hvolume, IpVolume.setRow_row_self]
    exact hbytes _ (h.bytes c.slot (h.used hc))

/-- **A slot is released**, where it drains and has no connections. -/
theorem release (h : VolumeInv x) (s : ℕ) :
    VolumeInv { x with table := tcpRpcsDrainReleaseSlotIfEmpty x.table s } := by
  have hsweeps := tcpRpcsDrainReleaseSlotIfEmpty_sweeps x.table s
  refine ⟨h.on, fun r hr => ?_, fun r hr => ?_, h.home, h.known, h.rows, fun r hr => ?_⟩
  · rcases hsweeps.slot r with hsame | ⟨-, -, -, hzero⟩
    · dsimp only at hr ⊢
      rw [hsame] at hr ⊢
      exact h.counted r hr
    · exact absurd (congrArg SecretSlot.state hzero) hr
  · rcases hsweeps.slot r with hsame | ⟨-, hstate, hcount, -⟩
    · dsimp only at hr
      rw [hsame] at hr
      exact h.free r hr
    · have hused : (x.table.slot r).state ≠ .free := by
        rw [hstate]
        exact SlotState.noConfusion
      have hcounted := h.counted r hused
      rw [hcount] at hcounted
      exact_mod_cast hcounted.symm
  · rcases hsweeps.slot r with hsame | ⟨-, -, -, hzero⟩
    · dsimp only at hr
      rw [hsame] at hr
      exact h.bytes r hr
    · exact absurd (congrArg SecretSlot.state hzero) hr

/-- **A reload**, that gives no slot with bytes in its row to another secret. -/
theorem reload (h : VolumeInv x) {cfgs : List SecretConfig} (hkept : VolumeKept x (.reload cfgs)) :
    VolumeInv (x.reload cfgs) := by
  have hcarries (r : ℕ) : Carries (x.table.slot r) ((x.reload cfgs).table.slot r) :=
    (tcpRpcsReloadExtSecrets_reloads x.table x.volume.preciseNow cfgs).carries r
  have hused {r : ℕ} (hr : (x.table.slot r).state ≠ .free) :
      (x.reload cfgs).log r = x.log r := if_neg fun hnew => hr hnew.1
  refine ⟨h.on, fun r hr => ?_, fun r hr => ?_, h.home, fun c hc => ?_, h.rows, fun r hr => ?_⟩
  · by_cases hfree : (x.table.slot r).state = .free
    · rw [(hcarries r).fresh hfree hr]
      exact_mod_cast (h.free r hfree).symm
    · rw [(hcarries r).connections hfree]
      exact h.counted r hfree
  · by_cases hfree : (x.table.slot r).state = .free
    · exact h.free r hfree
    · exact absurd hr ((hcarries r).state hfree)
  · rw [hused (h.used hc)]
    exact h.known c hc
  · by_cases hfree : (x.table.slot r).state = .free
    · intro j hj
      obtain ⟨hin, hout⟩ := hkept r hfree hr j hj
      have hbytesIn : ((x.reload cfgs).volume.row r j).bytesIn = 0 := hin
      have hbytesOut : ((x.reload cfgs).volume.row r j).bytesOut = 0 := hout
      rw [hbytesIn, hbytesOut]
      exact countsTraffic_zero _ _
    · rw [hused hfree]
      exact h.bytes r hfree

/-- **One event** that keeps to the condition. -/
theorem step (h : VolumeInv x) {e : VolumeEvent} (hkept : VolumeKept x e) :
    VolumeInv (volumeStep x e) := by
  cases e with
  | connect s remote =>
    by_cases hused : Usable x.table s
    · obtain ⟨hs, haddr⟩ := hkept hused
      rw [volumeStep_connect hused]
      exact h.connect hused hs haddr
    · have hstep : volumeStep x (.connect s remote) = x := if_neg hused
      rw [hstep]
      exact h
  | relay i bytes direction =>
    cases hi : x.live[i]? with
    | none =>
      have hstep : volumeStep x (.relay i bytes direction) = x := by simp only [volumeStep, hi]
      rw [hstep]
      exact h
    | some c =>
      by_cases hbytes : bytes > 0
      · rw [volumeStep_relay hi hbytes]
        exact h.relay (List.mem_of_getElem? hi) hbytes direction
      · have hstep : volumeStep x (.relay i bytes direction) = x := by
          simp only [volumeStep, hi, if_neg hbytes]
        rw [hstep]
        exact h
  | disconnect i =>
    cases hi : x.live[i]? with
    | none =>
      have hstep : volumeStep x (.disconnect i) = x := by simp only [volumeStep, hi]
      rw [hstep]
      exact h
    | some c =>
      have hstep : volumeStep x (.disconnect i) = x.disconnect i c := by
        simp only [volumeStep, hi]
      rw [hstep]
      exact h.disconnect hi hkept
  | release s => exact h.release s
  | reload cfgs => exact h.reload hkept
  | tick now => exact ⟨h.on, h.counted, h.free, h.home, h.known, h.rows, h.bytes⟩

/-- **What an event has tracked.** -/
theorem tracked (h : VolumeInv x) {e : VolumeEvent} (hkept : VolumeKept x e) :
    VolumeTracked x e := by
  cases e with
  | connect s remote =>
    intro hused henterable
    obtain ⟨hs, haddr⟩ := hkept hused
    obtain ⟨row, hvolume, haccounts⟩ := ipVolumeAccount_accounts h.on hs remote.ip remote.ipv6
      (.connect x.volume.preciseNow)
    have hrow : (volumeStep x (.connect s remote)).volume.row s = row := by
      rw [volumeStep_connect hused]
      exact (congrArg (IpVolume.row · s) hvolume).trans (IpVolume.setRow_row_self ..)
    rw [hrow]
    exact haccounts.recorded haddr henterable (fun _ => rfl) fun hcounts => hcounts.connect _
  | relay i bytes direction =>
    intro c hi hbytes henterable
    obtain ⟨hs, haddr⟩ := h.home c (List.mem_of_getElem? hi)
    obtain ⟨row, hvolume, haccounts⟩ := ipVolumeAccount_accounts h.on hs c.remote.ip c.remote.ipv6
      (.addBytes x.volume.preciseNow bytes direction)
    have hrow : (volumeStep x (.relay i bytes direction)).volume.row c.slot = row := by
      rw [volumeStep_relay hi hbytes]
      show (tcpRpcsAccountBytes _ _ _ _ _ _).row _ = _
      unfold tcpRpcsAccountBytes
      rw [if_neg (not_le.mpr hbytes), hvolume, IpVolume.setRow_row_self]
    rw [hrow]
    exact haccounts.recorded haddr henterable
      (fun e => e.addBytes_address x.volume.preciseNow bytes direction)
      fun hcounts => hcounts.addBytes _ _ _
  | disconnect i => trivial
  | release s => trivial
  | reload cfgs => trivial
  | tick now => trivial

end VolumeInv

/-! ### Whole runs -/

/-- The secrets that are there from the start have no connections. -/
theorem foldl_tcpRpcsSetExtSecret_connections (cfgs : List SecretConfig) {t : SecretTable}
    (h : ∀ s, (t.slot s).connections = 0) (s : ℕ) :
    ((cfgs.foldl tcpRpcsSetExtSecret t).slot s).connections = 0 := by
  induction cfgs generalizing t with
  | nil => exact h s
  | cons cfg cfgs ih =>
    refine ih fun r => ?_
    by_cases hr : r = t.cnt
    · rw [hr]
      exact (congrArg SecretSlot.connections (t.set_slot_self t.cnt _)).trans (h t.cnt)
    · exact (congrArg SecretSlot.connections (t.set_slot_of_ne _ hr)).trans (h r)

/-- An entry of a new table is empty. -/
theorem zero_isEmpty : IpVolumeEntry.zero.IsEmpty := by decide

theorem VolumeInv.start (pinned cfgs : List SecretConfig) {n : ℤ} (hon : 0 < n) (now : ℚ) :
    VolumeInv (.start pinned cfgs n now) where
  on := by
    show 0 < min (max n 0) WORKER_TOP_IPS_MAX
    exact lt_min (lt_max_of_lt_left hon) (by decide)
  counted s _ := by
    refine foldl_tcpRpcsSetExtSecret_connections cfgs (fun r => ?_) s
    exact foldl_tcpRpcsSetExtSecret_connections pinned (fun _ => rfl) r
  free _ _ := rfl
  home _ hc := absurd hc List.not_mem_nil
  known _ hc := absurd hc List.not_mem_nil
  rows s := by
    exact ⟨fun i _ hi => absurd zero_isEmpty hi, fun i hi => absurd zero_isEmpty hi,
      fun a ha => absurd ha (lt_irrefl 0), rfl⟩
  bytes s _ i hi := absurd zero_isEmpty hi

/-- **The traffic of a secret is its own, and is tracked**, in every run whose steps all keep to the
condition. -/
theorem volume_isolated (pinned cfgs : List SecretConfig) {n : ℤ} (hon : 0 < n) (now : ℚ)
    (es : List VolumeEvent) (h : Along volumeStep VolumeKept (.start pinned cfgs n now) es) :
    Throughout volumeStep VolumeIsolated (.start pinned cfgs n now) es ∧
      Along volumeStep VolumeTracked (.start pinned cfgs n now) es := by
  have hstart := VolumeInv.start pinned cfgs hon now
  constructor
  · have hinv := throughout_of_along (I := VolumeInv) (fun _ _ hs he => hs.step he) hstart h
    exact hinv.imp fun _ hs => hs.isolated
  · exact along_of_inv (I := VolumeInv) (fun _ _ hs he => hs.step he)
      (fun _ _ hs he => hs.tracked he) hstart h

/-- A secret without limits. -/
def sampleTenant (k : UInt8) : SecretConfig := ⟨List.replicate 16 k, [], 0, 0, 0, 0, 0⟩

def sampleVisitor : RemoteAddr := ⟨0x01020304, zeroIpv6, 4000, false⟩

/-- A connection is relayed bytes and goes. -/
def sampleVisit : List VolumeEvent := [.connect 0 sampleVisitor, .relay 0 5 0, .disconnect 0]

/-- A slot is given to another secret. -/
def sampleReuse : List VolumeEvent := [.reload [], .release 0, .reload [sampleTenant 1]]

/-- A slot may be given to another secret that has had no traffic. -/
theorem volume_isolated_sample :
    (0 : ℤ) < 10 ∧
      Along volumeStep VolumeKept (.start [] [sampleTenant 0] 10 0) (sampleReuse ++ sampleVisit) ∧
      Throughout volumeStep VolumeIsolated (.start [] [sampleTenant 0] 10 0)
        (sampleReuse ++ sampleVisit) ∧
      Along volumeStep VolumeTracked (.start [] [sampleTenant 0] 10 0)
        (sampleReuse ++ sampleVisit) := by
  have hkept : Along volumeStep VolumeKept (.start [] [sampleTenant 0] 10 0)
      (sampleReuse ++ sampleVisit) := by
    refine ⟨fun _ _ _ i hi => absurd zero_isEmpty hi, trivial,
      fun _ _ _ i hi => absurd zero_isEmpty hi, fun _ => by decide, trivial,
      fun c hc htracked => ?_, trivial⟩
    have hentered : (finish volumeStep (.start [] [sampleTenant 0] 10 0)
        (sampleReuse ++ sampleVisit.take 2)).live[0]?.map VolumeConn.tracked = some true := by
      decide +kernel
    have hfalse : some c.tracked = some true := (congrArg _ hc).symm.trans hentered
    rw [htracked] at hfalse
    cases hfalse
  exact ⟨by decide, hkept, volume_isolated [] [sampleTenant 0] (by decide) 0 _ hkept⟩

/-- One that has had traffic leaves it to the next secret. -/
theorem volume_leaks :
    ¬ Throughout volumeStep VolumeIsolated (.start [] [sampleTenant 0] 10 0)
      (sampleVisit ++ sampleReuse) := by
  intro h
  have hused : ((finish volumeStep (.start [] [sampleTenant 0] 10 0)
      (sampleVisit ++ sampleReuse)).table.slot 0).state ≠ .free := by
    decide +kernel
  have hshown : (⟨0x01020304, zeroIpv6, 0, 5, 0⟩ : WorkerTopIp) ∈
      tcpRpcsSnapshotTopIps (finish volumeStep (.start [] [sampleTenant 0] 10 0)
        (sampleVisit ++ sampleReuse)).volume 0 10 := by
    decide +kernel
  have hlog : (finish volumeStep (.start [] [sampleTenant 0] 10 0)
      (sampleVisit ++ sampleReuse)).log 0 = [] := by
    decide +kernel
  obtain ⟨⟨t, ht, -⟩, -⟩ := h.finish.snapshot 0 10 hused _ hshown
  exact absurd (hlog ▸ ht) List.not_mem_nil

end Server
end Teleproto3
