/-
# The table of secrets

The slots of `ext_secret` with everything the server keeps about them:
`tcp_rpcs_set_ext_secret`, the checks of a slot's limits and the tracking of addresses of
`server/src/net/net-tcp-rpc-ext-server.c`, the reload and the draining of
`net-tcp-rpc-ext-drain.c`, and `drain_sweep_gw` of `mtproto/mtproto-proxy.c`.

A slot is free, active or draining.  A reload matches the secrets of the new configuration
with the slots in four passes; `SecretTable.Reloads` says what it can do to a table, whether it
succeeds or fails, and `SecretTable.Sweeps` what a sweep can.
-/

import Mathlib.Logic.Function.Basic
import Teleproto3.Server.ExtServer

namespace Teleproto3
namespace Server

open Lib

/-! ### Slots -/

/-- `EXT_SECRET_MAX_ACTIVE`. -/
def EXT_SECRET_MAX_ACTIVE : ℕ := 16

/-- `EXT_SECRET_LABEL_MAX`. -/
def EXT_SECRET_LABEL_MAX : ℕ := 32

/-- `SECRET_MAX_TRACKED_IPS`. -/
def SECRET_MAX_TRACKED_IPS : ℕ := 256

/-- `struct tracked_ip` without its token bucket, which no check of a slot reads. -/
structure TrackedIp where
  ip : ℕ
  ipv6 : Bytes
  connections : ℤ
  deriving DecidableEq, Repr

/-- An entry of `per_secret_ips` as `memset` leaves it. -/
def TrackedIp.zero : TrackedIp := ⟨0, List.replicate 16 0, 0⟩

/-- What the arrays hold at one index: the secret with its state, label and limits, and the
counters behind the limits.  The counts that only the statistics show are left out; they are
reset where `connections` is. -/
structure SecretSlot where
  state : SlotState
  key : Bytes
  /-- `ext_secret_label` up to its zero byte -/
  label : Bytes
  limit : ℤ
  quota : ℤ
  rateLimit : ℤ
  maxIps : ℤ
  expires : ℤ
  drainStartedAt : ℚ
  /-- `per_secret_connections` -/
  connections : ℤ
  bytesReceived : ℤ
  bytesSent : ℤ
  ips : List TrackedIp
  uniqueIpCount : ℤ
  deriving DecidableEq, Repr

/-- A slot as the program starts with it, and as `tcp_rpcs_drain_release_slot_if_empty` leaves
it. -/
def SecretSlot.zero : SecretSlot where
  state := .free
  key := List.replicate 16 0
  label := []
  limit := 0
  quota := 0
  rateLimit := 0
  maxIps := 0
  expires := 0
  drainStartedAt := 0
  connections := 0
  bytesReceived := 0
  bytesSent := 0
  ips := List.replicate SECRET_MAX_TRACKED_IPS TrackedIp.zero
  uniqueIpCount := 0

/-- The arrays, `ext_secret_cnt` and `ext_secret_pinned`. -/
structure SecretTable where
  slot : ℕ → SecretSlot
  cnt : ℕ
  pinned : ℕ

/-- The table the program starts with. -/
def SecretTable.empty : SecretTable := ⟨fun _ => SecretSlot.zero, 0, 0⟩

/-- An assignment to the arrays at one index. -/
def SecretTable.set (t : SecretTable) (s : ℕ) (x : SecretSlot) : SecretTable :=
  { t with slot := Function.update t.slot s x }

@[simp] theorem SecretTable.set_slot_self (t : SecretTable) (s : ℕ) (x : SecretSlot) :
    (t.set s x).slot s = x := Function.update_self ..

theorem SecretTable.set_slot_of_ne (t : SecretTable) {s r : ℕ} (x : SecretSlot) (h : r ≠ s) :
    (t.set s x).slot r = t.slot r := Function.update_of_ne h ..

@[simp] theorem SecretTable.set_cnt (t : SecretTable) (s : ℕ) (x : SecretSlot) :
    (t.set s x).cnt = t.cnt := rfl

@[simp] theorem SecretTable.set_pinned (t : SecretTable) (s : ℕ) (x : SecretSlot) :
    (t.set s x).pinned = t.pinned := rfl

/-- The slots up to `ext_secret_cnt`. -/
def SecretTable.secrets (t : SecretTable) : List ExtSecret :=
  (List.range t.cnt).map fun s => ⟨(t.slot s).state, (t.slot s).key⟩

/-! ### The limits of a slot -/

/-- What a limit comes to with so many workers. -/
def effectiveLimit (workers : ℕ) (limit : ℤ) : ℤ :=
  let eff := if workers > 1 then limit / workers else limit
  if eff < 1 then 1 else eff

namespace SecretSlot

variable (workers : ℕ) (x : SecretSlot)

/-- `secret_over_limit`. -/
def OverLimit : Prop := ¬ x.limit ≤ 0 ∧ x.connections ≥ effectiveLimit workers x.limit

/-- `secret_expired`. -/
def Expired (now : ℤ) : Prop := x.expires > 0 ∧ now ≥ x.expires

/-- `secret_over_quota`. -/
def OverQuota : Prop :=
  ¬ x.quota ≤ 0 ∧ x.bytesReceived + x.bytesSent ≥ effectiveLimit workers x.quota

end SecretSlot

/-- An entry in use for this address. -/
def TrackedIp.Tracks (e : TrackedIp) (ip : ℕ) (ipv6 : Bytes) : Prop :=
  ¬ e.connections ≤ 0 ∧
    if ip ≠ 0 then e.ip = ip
    else e.ip = 0 ∧ e.ipv6 ≠ List.replicate 16 0 ∧ e.ipv6 = ipv6

instance (e : TrackedIp) (ip : ℕ) (ipv6 : Bytes) : Decidable (e.Tracks ip ipv6) := by
  unfold TrackedIp.Tracks
  infer_instance

namespace SecretSlot

variable (workers : ℕ) (x : SecretSlot)

/-- `ip_over_limit`. -/
def IpOverLimit (ip : ℕ) (ipv6 : Bytes) : Prop :=
  ¬ x.maxIps ≤ 0 ∧ (∀ e ∈ x.ips, ¬ e.Tracks ip ipv6) ∧
    x.uniqueIpCount ≥ effectiveLimit workers x.maxIps

instance : Decidable (x.OverLimit workers) := by
  unfold OverLimit
  infer_instance

instance (now : ℤ) : Decidable (x.Expired now) := by
  unfold Expired
  infer_instance

instance : Decidable (x.OverQuota workers) := by
  unfold OverQuota
  infer_instance

instance (ip : ℕ) (ipv6 : Bytes) : Decidable (x.IpOverLimit workers ip ipv6) := by
  unfold IpOverLimit
  infer_instance

/-- **The admission checks**: neither draining, expired, at the limit, over the quota nor over
the number of addresses. -/
structure Admissible (now : ℤ) (remote : RemoteAddr) : Prop where
  draining : x.state ≠ .draining
  expired : ¬ x.Expired now
  limit : ¬ x.OverLimit workers
  quota : ¬ x.OverQuota workers
  ips : ¬ x.IpOverLimit workers remote.ip remote.ipv6

theorem admissible_iff (now : ℤ) (remote : RemoteAddr) :
    x.Admissible workers now remote ↔ x.state ≠ .draining ∧ ¬ x.Expired now ∧
      ¬ x.OverLimit workers ∧ ¬ x.OverQuota workers ∧
        ¬ x.IpOverLimit workers remote.ip remote.ipv6 :=
  ⟨fun h => ⟨h.draining, h.expired, h.limit, h.quota, h.ips⟩,
    fun ⟨h1, h2, h3, h4, h5⟩ => ⟨h1, h2, h3, h4, h5⟩⟩

instance (now : ℤ) (remote : RemoteAddr) : Decidable (x.Admissible workers now remote) :=
  decidable_of_iff _ (x.admissible_iff workers now remote).symm

end SecretSlot

/-! ### Addresses -/

/-- The first entry that meets a condition is changed, if there is one. -/
def changeFirst (p : TrackedIp → Bool) (f : TrackedIp → TrackedIp) :
    List TrackedIp → Option (List TrackedIp)
  | [] => none
  | e :: es => if p e then some (f e :: es) else (changeFirst p f es).map (e :: ·)

namespace SecretSlot

variable (x : SecretSlot)

/-- `ip_track_connect`. -/
def ipTrackConnect (ip : ℕ) (ipv6 : Bytes) : SecretSlot :=
  if x.maxIps ≤ 0 ∧ x.rateLimit ≤ 0 then x
  else
    match changeFirst (fun e => e.Tracks ip ipv6)
        (fun e => { e with connections := e.connections + 1 }) x.ips with
    | some ips => { x with ips := ips }
    | none =>
      match changeFirst (fun e => e.connections ≤ 0) (fun _ => ⟨ip, ipv6, 1⟩) x.ips with
      | some ips => { x with ips := ips, uniqueIpCount := x.uniqueIpCount + 1 }
      | none => x

/-- The entry after a connection from its address. -/
def dropConnection (e : TrackedIp) : TrackedIp :=
  if e.connections - 1 ≤ 0 then { e with ip := 0, ipv6 := List.replicate 16 0, connections := 0 }
  else { e with connections := e.connections - 1 }

/-- `ip_track_disconnect_impl`. -/
def ipTrackDisconnect (ip : ℕ) (ipv6 : Bytes) : SecretSlot :=
  if x.maxIps ≤ 0 ∧ x.rateLimit ≤ 0 then x
  else
    match changeFirst (fun e => e.Tracks ip ipv6) dropConnection x.ips with
    | some ips =>
      { x with
        ips := ips
        uniqueIpCount :=
          if (x.ips.find? fun e => e.Tracks ip ipv6).any (fun e => e.connections - 1 ≤ 0) then
            x.uniqueIpCount - 1
          else x.uniqueIpCount }
    | none => x

/-- A connection is counted: `per_secret_connections[s]++` and the address. -/
def connect (remote : RemoteAddr) : SecretSlot :=
  { x with connections := x.connections + 1 }.ipTrackConnect remote.ip remote.ipv6

/-- A connection is no longer counted. -/
def disconnect (remote : RemoteAddr) : SecretSlot :=
  { x with connections := x.connections - 1 }.ipTrackDisconnect remote.ip remote.ipv6

/-- Tracking an address changes only what is kept about addresses. -/
theorem ipTrackConnect_eq (ip : ℕ) (ipv6 : Bytes) :
    ∃ ips n, x.ipTrackConnect ip ipv6 = { x with ips := ips, uniqueIpCount := n } := by
  unfold ipTrackConnect
  by_cases huntracked : x.maxIps ≤ 0 ∧ x.rateLimit ≤ 0
  · rw [if_pos huntracked]
    exact ⟨_, _, rfl⟩
  · rw [if_neg huntracked]
    split
    · exact ⟨_, _, rfl⟩
    · split <;> exact ⟨_, _, rfl⟩

theorem ipTrackDisconnect_eq (ip : ℕ) (ipv6 : Bytes) :
    ∃ ips n, x.ipTrackDisconnect ip ipv6 = { x with ips := ips, uniqueIpCount := n } := by
  unfold ipTrackDisconnect
  by_cases huntracked : x.maxIps ≤ 0 ∧ x.rateLimit ≤ 0
  · rw [if_pos huntracked]
    exact ⟨_, _, rfl⟩
  · rw [if_neg huntracked]
    split <;> exact ⟨_, _, rfl⟩

theorem connect_eq (remote : RemoteAddr) :
    ∃ ips n, x.connect remote =
      { x with connections := x.connections + 1, ips := ips, uniqueIpCount := n } :=
  ipTrackConnect_eq _ _ _

theorem disconnect_eq (remote : RemoteAddr) :
    ∃ ips n, x.disconnect remote =
      { x with connections := x.connections - 1, ips := ips, uniqueIpCount := n } :=
  ipTrackDisconnect_eq _ _ _

end SecretSlot

/-! ### Registering -/

/-- A secret of a configuration. -/
structure SecretConfig where
  key : Bytes
  label : Bytes
  limit : ℤ
  quota : ℤ
  rateLimit : ℤ
  maxIps : ℤ
  expires : ℤ
  deriving DecidableEq, Repr

/-- The label of slot `s`. -/
def slotLabel (s : ℕ) (label : Bytes) : Bytes :=
  if label = [] then ascii "secret_" ++ ascii (toString s) else label.take EXT_SECRET_LABEL_MAX

/-- The label and the limits of slot `s` are those of a secret, and the slot is active. -/
def SecretSlot.refresh (x : SecretSlot) (s : ℕ) (cfg : SecretConfig) : SecretSlot :=
  { x with
    label := slotLabel s cfg.label
    limit := cfg.limit
    quota := cfg.quota
    rateLimit := cfg.rateLimit
    maxIps := cfg.maxIps
    expires := cfg.expires
    state := .active
    drainStartedAt := 0 }

/-- `tcp_rpcs_set_ext_secret` behind its assertion. -/
def tcpRpcsSetExtSecret (t : SecretTable) (cfg : SecretConfig) : SecretTable :=
  { t.set t.cnt
      { (t.slot t.cnt).refresh t.cnt cfg with
        key := cfg.key
        ips := List.replicate SECRET_MAX_TRACKED_IPS TrackedIp.zero
        uniqueIpCount := 0 } with
    cnt := t.cnt + 1 }

/-- `tcp_rpcs_pin_ext_secrets`. -/
def tcpRpcsPinExtSecrets (t : SecretTable) : SecretTable := { t with pinned := t.cnt }

/-! ### Reloading -/

/-- The first slot that is not pinned and meets a condition. -/
def SecretTable.firstSlot (t : SecretTable) (p : SecretSlot → Bool) : Option ℕ :=
  (List.range EXT_SECRET_MAX_SLOTS).find? fun s => t.pinned ≤ s ∧ p (t.slot s)

/-- The secret is that of a pinned slot. -/
def SecretTable.collides (t : SecretTable) (cfg : SecretConfig) : Bool :=
  (List.range t.pinned).any fun p => (t.slot p).key = cfg.key

/-- Pass B: slots whose secret is in the new configuration are refreshed and are no longer
candidates.  The secrets that have no slot are left. -/
def reloadMatch (t : SecretTable) (candidate : ℕ → Bool) :
    List SecretConfig → SecretTable × (ℕ → Bool) × List SecretConfig
  | [] => (t, candidate, [])
  | cfg :: cfgs =>
    match t.firstSlot fun x => x.state ≠ .free ∧ x.key = cfg.key with
    | some s =>
      reloadMatch (t.set s ((t.slot s).refresh s cfg)) (Function.update candidate s false) cfgs
    | none =>
      match reloadMatch t candidate cfgs with
      | (t, candidate, left) => (t, candidate, cfg :: left)

/-- Pass C: the candidates drain. -/
def reloadDrain (t : SecretTable) (candidate : ℕ → Bool) (preciseNow : ℚ) : SecretTable :=
  { t with
    slot := fun s =>
      if t.pinned ≤ s ∧ s < EXT_SECRET_MAX_SLOTS ∧ candidate s then
        { t.slot s with state := .draining, drainStartedAt := preciseNow }
      else t.slot s }

/-- Slot `s` for a new secret. -/
def SecretSlot.fresh (s : ℕ) (cfg : SecretConfig) : SecretSlot :=
  { SecretSlot.zero.refresh s cfg with key := cfg.key }

/-- Pass D: the secrets that are left get free slots, as long as there are any. -/
def reloadAllocate (t : SecretTable) : List SecretConfig → SecretTable × Bool
  | [] => (t, true)
  | cfg :: cfgs =>
    match t.firstSlot fun x => x.state = .free with
    | none => (t, false)
    | some s => reloadAllocate (t.set s (.fresh s cfg)) cfgs

/-- `high_water`. -/
def SecretTable.highWater (t : SecretTable) : ℕ :=
  (List.range EXT_SECRET_MAX_SLOTS).foldl
    (fun h s => if t.pinned ≤ s ∧ (t.slot s).state ≠ .free ∧ s + 1 > h then s + 1 else h) t.pinned

/-- `active_total`. -/
def SecretTable.activeTotal (t : SecretTable) : ℕ :=
  t.pinned + (List.range EXT_SECRET_MAX_SLOTS).countP fun s =>
    t.pinned ≤ s ∧ (t.slot s).state = .active

/-- `tcp_rpcs_reload_ext_secrets`, with what it returns. -/
def tcpRpcsReloadExtSecrets (t : SecretTable) (preciseNow : ℚ) (cfgs : List SecretConfig) :
    SecretTable × ℤ :=
  -- Pass A: the active slots that are not pinned.
  let candidate := fun s =>
    decide (t.pinned ≤ s ∧ s < EXT_SECRET_MAX_SLOTS ∧ (t.slot s).state = .active)
  match reloadMatch t candidate (cfgs.filter fun cfg => !t.collides cfg) with
  | (t, candidate, left) =>
    match reloadAllocate (reloadDrain t candidate preciseNow) left with
    | (t, false) => (t, -1)
    | (t, true) =>
      if t.activeTotal > EXT_SECRET_MAX_ACTIVE then (t, -1)
      else ({ t with cnt := t.highWater }, 0)

/-! ### Draining -/

/-- `tcp_rpcs_drain_release_slot_if_empty`. -/
def tcpRpcsDrainReleaseSlotIfEmpty (t : SecretTable) (s : ℕ) : SecretTable :=
  if s < t.pinned ∨ s ≥ EXT_SECRET_MAX_SLOTS then t
  else if (t.slot s).state ≠ .draining then t
  else if (t.slot s).connections ≠ 0 then t
  else
    let t := t.set s SecretSlot.zero
    { t with cnt := t.highWater }

/-- One turn of the loop of `drain_sweep_gw`, with the slots whose connections are to be closed
by force. -/
def drainSweepTurn (preciseNow timeout : ℚ) (x : SecretTable × List ℕ) (s : ℕ) :
    SecretTable × List ℕ :=
  let (t, forced) := x
  if (t.slot s).state ≠ .draining then (t, forced)
  else if (t.slot s).connections = 0 then (tcpRpcsDrainReleaseSlotIfEmpty t s, forced)
  else if timeout > 0 ∧ preciseNow - (t.slot s).drainStartedAt ≥ timeout then (t, forced ++ [s])
  else (t, forced)

/-- `drain_sweep_gw`. -/
def drainSweepGw (t : SecretTable) (preciseNow timeout : ℚ) : SecretTable × List ℕ :=
  ((List.range t.cnt).filter fun s => t.pinned ≤ s).foldl (drainSweepTurn preciseNow timeout) (t, [])

/-! ### What a reload keeps -/

/-- A slot in use stays in use, with its key and its count; a slot taken into use starts with a
count of zero. -/
structure Carries (x y : SecretSlot) : Prop where
  state : x.state ≠ .free → y.state ≠ .free
  key : x.state ≠ .free → y.key = x.key
  connections : x.state ≠ .free → y.connections = x.connections
  fresh : x.state = .free → y.state ≠ .free → y.connections = 0

theorem Carries.refl (x : SecretSlot) : Carries x x :=
  ⟨id, fun _ => rfl, fun _ => rfl, fun h h' => absurd h h'⟩

theorem Carries.trans {x y z : SecretSlot} (h : Carries x y) (h' : Carries y z) : Carries x z where
  state hx := h'.state (h.state hx)
  key hx := (h'.key (h.state hx)).trans (h.key hx)
  connections hx := (h'.connections (h.state hx)).trans (h.connections hx)
  fresh hx hz := by
    by_cases hy : y.state = .free
    · exact h'.fresh hy hz
    · exact (h'.connections hy).trans (h.fresh hx hy)

/-- A slot in use is changed in neither its key nor its count. -/
theorem Carries.of_used {x y : SecretSlot} (hx : x.state ≠ .free) (hy : y.state ≠ .free)
    (hkey : y.key = x.key) (hcount : y.connections = x.connections) : Carries x y :=
  ⟨fun _ => hy, fun _ => hkey, fun _ => hcount, fun h => absurd h hx⟩

/-- A free slot is taken into use. -/
theorem Carries.of_free {x y : SecretSlot} (h : x.state = .free) (hcount : y.connections = 0) :
    Carries x y :=
  ⟨fun hx => absurd h hx, fun hx => absurd h hx, fun hx => absurd h hx, fun _ _ => hcount⟩

/-- **What a reload can do to a table**: pinned slots stay as they are, and slots in use stay in
use. -/
structure SecretTable.Reloads (t t' : SecretTable) : Prop where
  pinned : t'.pinned = t.pinned
  fixed : ∀ s, s < t.pinned → t'.slot s = t.slot s
  carries : ∀ s, Carries (t.slot s) (t'.slot s)

namespace SecretTable

theorem Reloads.refl (t : SecretTable) : t.Reloads t :=
  ⟨rfl, fun _ _ => rfl, fun s => Carries.refl (t.slot s)⟩

theorem Reloads.trans {t t' t'' : SecretTable} (h : t.Reloads t') (h' : t'.Reloads t'') :
    t.Reloads t'' where
  pinned := h'.pinned.trans h.pinned
  fixed s hs := (h'.fixed s (h.pinned.symm ▸ hs)).trans (h.fixed s hs)
  carries s := (h.carries s).trans (h'.carries s)

theorem Reloads.set {t : SecretTable} {s : ℕ} {x : SecretSlot} (hs : t.pinned ≤ s)
    (hx : Carries (t.slot s) x) : t.Reloads (t.set s x) where
  pinned := rfl
  fixed r hr := t.set_slot_of_ne x (by omega)
  carries r := by
    by_cases hrs : r = s
    · rw [hrs, set_slot_self]
      exact hx
    · rw [t.set_slot_of_ne x hrs]
      exact Carries.refl _

/-- `ext_secret_cnt` is no part of it. -/
theorem Reloads.withCnt {t t' : SecretTable} (h : t.Reloads t') (n : ℕ) :
    t.Reloads { t' with cnt := n } := ⟨h.pinned, h.fixed, h.carries⟩

theorem firstSlot_some {t : SecretTable} {p : SecretSlot → Bool} {s : ℕ}
    (h : t.firstSlot p = some s) : t.pinned ≤ s ∧ s < EXT_SECRET_MAX_SLOTS ∧ p (t.slot s) := by
  have hmem := List.mem_range.mp (List.mem_of_find?_eq_some h)
  have hp := List.find?_some h
  simp only [decide_eq_true_eq] at hp
  exact ⟨hp.1, hmem, hp.2⟩

end SecretTable

theorem reloadMatch_reloads (t : SecretTable) (candidate : ℕ → Bool) (cfgs : List SecretConfig) :
    t.Reloads (reloadMatch t candidate cfgs).1 := by
  induction cfgs generalizing t candidate with
  | nil => exact .refl t
  | cons cfg cfgs ih =>
    rw [reloadMatch]
    split
    · next s hs =>
      obtain ⟨hpinned, -, hmatch⟩ := SecretTable.firstSlot_some hs
      have hused : (t.slot s).state ≠ .free := (of_decide_eq_true hmatch).1
      have hrefresh : Carries (t.slot s) ((t.slot s).refresh s cfg) :=
        .of_used hused SlotState.noConfusion rfl rfl
      exact (SecretTable.Reloads.set hpinned hrefresh).trans (ih _ _)
    · exact ih t candidate

/-- The slots that remain candidates are still the active ones among them. -/
theorem reloadMatch_candidate (t : SecretTable) (candidate : ℕ → Bool) (cfgs : List SecretConfig)
    (h : ∀ s, candidate s → (t.slot s).state ≠ .free) (s : ℕ)
    (hs : (reloadMatch t candidate cfgs).2.1 s) :
    ((reloadMatch t candidate cfgs).1.slot s).state ≠ .free := by
  induction cfgs generalizing t candidate with
  | nil => exact h s hs
  | cons cfg cfgs ih =>
    rw [reloadMatch] at hs ⊢
    split at hs
    · next r hr =>
      refine ih _ _ (fun q hq => ?_) hs
      by_cases hqr : q = r
      · rw [hqr, SecretTable.set_slot_self]
        exact SlotState.noConfusion
      · rw [SecretTable.set_slot_of_ne _ _ hqr]
        rw [Function.update_of_ne hqr] at hq
        exact h q hq
    · exact ih t candidate h hs

theorem reloadDrain_reloads (t : SecretTable) (candidate : ℕ → Bool) (preciseNow : ℚ)
    (h : ∀ s, candidate s → (t.slot s).state ≠ .free) :
    t.Reloads (reloadDrain t candidate preciseNow) where
  pinned := rfl
  fixed s hs := if_neg fun h => absurd h.1 (not_le.mpr hs)
  carries s := by
    unfold reloadDrain
    dsimp only
    split_ifs with hcandidate
    · exact .of_used (h s hcandidate.2.2) SlotState.noConfusion rfl rfl
    · exact Carries.refl _

theorem reloadAllocate_reloads (t : SecretTable) (cfgs : List SecretConfig) :
    t.Reloads (reloadAllocate t cfgs).1 := by
  induction cfgs generalizing t with
  | nil => exact .refl t
  | cons cfg cfgs ih =>
    rw [reloadAllocate]
    split
    · exact .refl t
    · next s hs =>
      obtain ⟨hpinned, -, hfree⟩ := SecretTable.firstSlot_some hs
      exact (SecretTable.Reloads.set hpinned (.of_free (of_decide_eq_true hfree) rfl)).trans (ih _)

/-- **A reload, successful or not, keeps what is in use.** -/
theorem tcpRpcsReloadExtSecrets_reloads (t : SecretTable) (preciseNow : ℚ)
    (cfgs : List SecretConfig) : t.Reloads (tcpRpcsReloadExtSecrets t preciseNow cfgs).1 := by
  unfold tcpRpcsReloadExtSecrets
  dsimp only
  have h1 := reloadMatch_reloads t
    (fun s => decide (t.pinned ≤ s ∧ s < EXT_SECRET_MAX_SLOTS ∧ (t.slot s).state = .active))
    (cfgs.filter fun cfg => !t.collides cfg)
  have hcandidate := reloadMatch_candidate t
    (fun s => decide (t.pinned ≤ s ∧ s < EXT_SECRET_MAX_SLOTS ∧ (t.slot s).state = .active))
    (cfgs.filter fun cfg => !t.collides cfg) fun s hs => by
      rw [(of_decide_eq_true hs).2.2]
      exact SlotState.noConfusion
  generalize reloadMatch t
    (fun s => decide (t.pinned ≤ s ∧ s < EXT_SECRET_MAX_SLOTS ∧ (t.slot s).state = .active))
    (cfgs.filter fun cfg => !t.collides cfg) = m at h1 hcandidate
  obtain ⟨t1, candidate, left⟩ := m
  have h2 := h1.trans (reloadDrain_reloads t1 candidate preciseNow hcandidate)
  have h3 := h2.trans (reloadAllocate_reloads (reloadDrain t1 candidate preciseNow) left)
  dsimp only
  generalize reloadAllocate (reloadDrain t1 candidate preciseNow) left = r at h3
  obtain ⟨t3, placed⟩ := r
  cases placed with
  | false => exact h3
  | true =>
    dsimp only
    split_ifs
    · exact h3
    · exact h3.withCnt _

/-! ### What a sweep releases -/

/-- **What a sweep can do to a table**: draining slots that count no connection and are not pinned
become as the program starts with them. -/
structure SecretTable.Sweeps (t t' : SecretTable) : Prop where
  pinned : t'.pinned = t.pinned
  slot : ∀ s, t'.slot s = t.slot s ∨
    t.pinned ≤ s ∧ (t.slot s).state = .draining ∧ (t.slot s).connections = 0 ∧
      t'.slot s = SecretSlot.zero

namespace SecretTable

theorem Sweeps.refl (t : SecretTable) : t.Sweeps t := ⟨rfl, fun _ => Or.inl rfl⟩

theorem Sweeps.trans {t t' t'' : SecretTable} (h : t.Sweeps t') (h' : t'.Sweeps t'') :
    t.Sweeps t'' where
  pinned := h'.pinned.trans h.pinned
  slot s := by
    rcases h.slot s with heq | ⟨hpinned, hstate, hcount, hzero⟩
    · have hrest := h'.slot s
      rw [heq, h.pinned] at hrest
      exact hrest
    · rcases h'.slot s with heq' | ⟨-, hstate', -, -⟩
      · exact Or.inr ⟨hpinned, hstate, hcount, heq'.trans hzero⟩
      · rw [hzero] at hstate'
        exact nomatch hstate'

end SecretTable

theorem tcpRpcsDrainReleaseSlotIfEmpty_sweeps (t : SecretTable) (s : ℕ) :
    t.Sweeps (tcpRpcsDrainReleaseSlotIfEmpty t s) := by
  unfold tcpRpcsDrainReleaseSlotIfEmpty
  split_ifs with hrange hstate hcount
  · exact .refl t
  · exact .refl t
  · exact .refl t
  · refine ⟨rfl, fun r => ?_⟩
    by_cases hr : r = s
    · rw [hr]
      exact Or.inr ⟨by omega, not_not.mp hstate, not_not.mp hcount, t.set_slot_self s _⟩
    · exact Or.inl (t.set_slot_of_ne _ hr)

theorem drainSweepTurn_sweeps (preciseNow timeout : ℚ) (x : SecretTable × List ℕ) (s : ℕ) :
    x.1.Sweeps (drainSweepTurn preciseNow timeout x s).1 := by
  obtain ⟨t, forced⟩ := x
  unfold drainSweepTurn
  dsimp only
  split_ifs
  · exact .refl t
  · exact tcpRpcsDrainReleaseSlotIfEmpty_sweeps t s
  · exact .refl t
  · exact .refl t

/-- **A sweep releases only what drains and counts no connection.** -/
theorem drainSweepGw_sweeps (t : SecretTable) (preciseNow timeout : ℚ) :
    t.Sweeps (drainSweepGw t preciseNow timeout).1 := by
  have hloop (slots : List ℕ) (x : SecretTable × List ℕ) :
      x.1.Sweeps (slots.foldl (drainSweepTurn preciseNow timeout) x).1 := by
    induction slots generalizing x with
    | nil => exact .refl _
    | cons s slots ih => exact (drainSweepTurn_sweeps preciseNow timeout x s).trans (ih _)
  exact hloop _ (t, [])

end Server
end Teleproto3
