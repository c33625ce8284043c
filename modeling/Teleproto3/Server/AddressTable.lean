/-
# The addresses of a secret

`ip_track_connect` and `ip_track_disconnect_impl` keep a table of the addresses a secret is used
from, with the number of connections from each, and `ip_over_limit` admits no address beyond
`max_ips`.  All three go by the limits of the moment, which a reload changes: a connection may come
while nothing is tracked and go while something is, and the other way round.  Two more are lost
track of: those that come when the table is full, and those from the address of zeros, which is
entered but never found again.

`AddressServed` is what a step needs of the moment it is taken in, and `addresses_tracked` the
promise for the runs whose steps all have it: the table reflects the live connections.
-/

import Mathlib.Data.Finset.Card
import Teleproto3.Lib.Ledger
import Teleproto3.Lib.Runs
import Teleproto3.Lib.Tally
import Teleproto3.Server.SecretTable

namespace Teleproto3
namespace Server

open Lib

/-! ### Addresses -/

/-- The address a table goes by: the IPv4 address, or else the IPv6 address. -/
def addressOf (ip : ℕ) (ipv6 : Bytes) : ℕ × Bytes := if ip ≠ 0 then (ip, []) else (0, ipv6)

/-- The address of zeros. -/
def Unspecified (ip : ℕ) (ipv6 : Bytes) : Prop := ip = 0 ∧ ipv6 = List.replicate 16 0

instance (ip : ℕ) (ipv6 : Bytes) : Decidable (Unspecified ip ipv6) := by
  unfold Unspecified
  infer_instance

/-- The address of a client. -/
def RemoteAddr.address (remote : RemoteAddr) : ℕ × Bytes := addressOf remote.ip remote.ipv6

/-- What a live connection counts under. -/
def RemoteAddr.key (remote : RemoteAddr) : Option (ℕ × Bytes) := some remote.address

theorem RemoteAddr.weight_self (remote : RemoteAddr) :
    weight RemoteAddr.key remote remote.address = 1 := Lib.weight_self RemoteAddr.key rfl

theorem RemoteAddr.weight_of_ne {remote : RemoteAddr} {a : ℕ × Bytes} (h : a ≠ remote.address) :
    weight RemoteAddr.key remote a = 0 :=
  Lib.weight_of_ne RemoteAddr.key fun heq => h (Option.some.inj heq).symm

/-- The address of an entry. -/
def TrackedIp.address (e : TrackedIp) : ℕ × Bytes := addressOf e.ip e.ipv6

/-- An entry is found under its address, unless that is the address of zeros. -/
theorem TrackedIp.tracks_iff (e : TrackedIp) (ip : ℕ) (ipv6 : Bytes) :
    e.Tracks ip ipv6 ↔
      0 < e.connections ∧ e.address = addressOf ip ipv6 ∧ ¬ Unspecified ip ipv6 := by
  unfold Tracks TrackedIp.address addressOf Unspecified
  rw [not_le]
  by_cases hip : ip = 0
  · by_cases he : e.ip = 0
    · simp only [hip, he, ne_eq, not_true_eq_false, if_false, Prod.mk.injEq, true_and]
      constructor
      · rintro ⟨hpos, hne, heq⟩
        exact ⟨hpos, heq, heq ▸ hne⟩
      · rintro ⟨hpos, heq, hne⟩
        exact ⟨hpos, heq.symm ▸ hne, heq⟩
    · simp [hip, he]
  · by_cases he : e.ip = 0
    · simp [hip, he, Ne.symm hip]
    · simp [hip, he]

/-! ### The table -/

/-- The first entry that meets a condition, with what is before and behind it. -/
theorem changeFirst_some {p : TrackedIp → Bool} {f : TrackedIp → TrackedIp} {l l' : List TrackedIp}
    (h : changeFirst p f l = some l') :
    ∃ before e behind, l = before ++ e :: behind ∧ l' = before ++ f e :: behind ∧ p e = true ∧
      l.find? p = some e := by
  induction l generalizing l' with
  | nil => exact nomatch h
  | cons a l ih =>
    rw [changeFirst] at h
    split_ifs at h with ha
    · exact ⟨[], a, l, rfl, (Option.some.inj h).symm, ha, List.find?_cons_of_pos ha⟩
    · obtain ⟨l'', hl, rfl⟩ := Option.map_eq_some_iff.mp h
      obtain ⟨before, e, behind, rfl, rfl, he, hfind⟩ := ih hl
      exact ⟨a :: before, e, behind, rfl, rfl, he, (List.find?_cons_of_neg ha).trans hfind⟩

theorem changeFirst_none {p : TrackedIp → Bool} {f : TrackedIp → TrackedIp} {l : List TrackedIp}
    (h : changeFirst p f l = none) : ∀ e ∈ l, ¬ p e := by
  induction l with
  | nil => exact nofun
  | cons a l ih =>
    rw [changeFirst] at h
    split_ifs at h with ha
    exact List.forall_mem_cons.mpr ⟨ha, ih (Option.map_eq_none_iff.mp h)⟩

/-- The entries in use, with their counts. -/
def ledgerOf (ips : List TrackedIp) : List ((ℕ × Bytes) × ℤ) :=
  (ips.filter fun e => 0 < e.connections).map fun e => (e.address, e.connections)

/-- An entry is in use for this address. -/
def Entered (ips : List TrackedIp) (a : ℕ × Bytes) : Prop := ∃ c ∈ ledgerOf ips, c.1 = a

instance (ips : List TrackedIp) (a : ℕ × Bytes) : Decidable (Entered ips a) := by
  unfold Entered
  infer_instance

/-- An entry is free. -/
def HasRoom (ips : List TrackedIp) : Prop := ∃ e ∈ ips, e.connections ≤ 0

instance (ips : List TrackedIp) : Decidable (HasRoom ips) := by
  unfold HasRoom
  infer_instance

@[simp] theorem ledgerOf_append (l r : List TrackedIp) :
    ledgerOf (l ++ r) = ledgerOf l ++ ledgerOf r := by
  simp [ledgerOf]

theorem ledgerOf_used {e : TrackedIp} (h : 0 < e.connections) (l : List TrackedIp) :
    ledgerOf (e :: l) = (e.address, e.connections) :: ledgerOf l := by
  simp [ledgerOf, h]

theorem ledgerOf_free {e : TrackedIp} (h : e.connections ≤ 0) (l : List TrackedIp) :
    ledgerOf (e :: l) = ledgerOf l := by
  simp [ledgerOf, not_lt.mpr h]

theorem entered_iff {ips : List TrackedIp} {a : ℕ × Bytes} :
    Entered ips a ↔ ∃ e ∈ ips, 0 < e.connections ∧ e.address = a := by
  simp [Entered, ledgerOf, and_assoc]

/-- An address without an entry is not found. -/
theorem not_tracks_of_not_entered {ips : List TrackedIp} {ip : ℕ} {ipv6 : Bytes}
    (h : ¬ Entered ips (addressOf ip ipv6)) : ∀ e ∈ ips, ¬ e.Tracks ip ipv6 := by
  intro e he htracks
  obtain ⟨hpos, haddress, -⟩ := (e.tracks_iff ip ipv6).mp htracks
  exact h (entered_iff.mpr ⟨e, he, hpos, haddress⟩)

/-- An address with an entry is found, unless it is that of zeros. -/
theorem exists_tracks {ips : List TrackedIp} {ip : ℕ} {ipv6 : Bytes}
    (h : Entered ips (addressOf ip ipv6)) (hspec : ¬ Unspecified ip ipv6) :
    ∃ e ∈ ips, e.Tracks ip ipv6 := by
  obtain ⟨e, he, hpos, haddress⟩ := entered_iff.mp h
  exact ⟨e, he, (e.tracks_iff ip ipv6).mpr ⟨hpos, haddress, hspec⟩⟩

namespace SecretSlot

/-- Addresses are tracked. -/
def Tracking (x : SecretSlot) : Prop := ¬ (x.maxIps ≤ 0 ∧ x.rateLimit ≤ 0)

instance (x : SecretSlot) : Decidable x.Tracking := by
  unfold Tracking
  infer_instance

variable {x : SecretSlot} {ip : ℕ} {ipv6 : Bytes}

theorem ipTrackConnect_off (h : ¬ x.Tracking) : x.ipTrackConnect ip ipv6 = x :=
  if_pos (not_not.mp h)

theorem ipTrackDisconnect_off (h : ¬ x.Tracking) : x.ipTrackDisconnect ip ipv6 = x :=
  if_pos (not_not.mp h)

/-- **One more connection from an address that is entered.** -/
theorem ipTrackConnect_raises (h : x.Tracking) (hentered : Entered x.ips (addressOf ip ipv6))
    (hspec : ¬ Unspecified ip ipv6) :
    ∃ l n r, ledgerOf x.ips = l ++ (addressOf ip ipv6, n) :: r ∧
      ledgerOf (x.ipTrackConnect ip ipv6).ips = l ++ (addressOf ip ipv6, n + 1) :: r ∧
      (x.ipTrackConnect ip ipv6).uniqueIpCount = x.uniqueIpCount := by
  rw [ipTrackConnect, if_neg h]
  rcases hchange : changeFirst (fun e => e.Tracks ip ipv6)
    (fun e => { e with connections := e.connections + 1 }) x.ips with _ | ips
  · obtain ⟨e, he, htracks⟩ := exists_tracks hentered hspec
    exact absurd (decide_eq_true htracks) (changeFirst_none hchange e he)
  · obtain ⟨before, e, behind, hips, rfl, he, -⟩ := changeFirst_some hchange
    obtain ⟨hpos, haddress, -⟩ := (e.tracks_iff ip ipv6).mp (of_decide_eq_true he)
    refine ⟨ledgerOf before, e.connections, ledgerOf behind, ?_, ?_, rfl⟩
    · rw [hips, ledgerOf_append, ledgerOf_used hpos, haddress]
    · rw [ledgerOf_append, ledgerOf_used (by dsimp only; omega), ← haddress]
      rfl

/-- **The first connection from an address.** -/
theorem ipTrackConnect_enters (h : x.Tracking) (hnone : ¬ Entered x.ips (addressOf ip ipv6))
    (hroom : HasRoom x.ips) :
    ∃ l r, ledgerOf x.ips = l ++ r ∧
      ledgerOf (x.ipTrackConnect ip ipv6).ips = l ++ (addressOf ip ipv6, 1) :: r ∧
      (x.ipTrackConnect ip ipv6).uniqueIpCount = x.uniqueIpCount + 1 := by
  rw [ipTrackConnect, if_neg h]
  rcases hchange : changeFirst (fun e => e.Tracks ip ipv6)
    (fun e => { e with connections := e.connections + 1 }) x.ips with _ | ips
  · dsimp only
    rcases henter : changeFirst (fun e => e.connections ≤ 0) (fun _ => ⟨ip, ipv6, 1⟩) x.ips with
      _ | ips
    · obtain ⟨e, he, hfree⟩ := hroom
      exact absurd (decide_eq_true hfree) (changeFirst_none henter e he)
    · obtain ⟨before, e, behind, hips, rfl, he, -⟩ := changeFirst_some henter
      refine ⟨ledgerOf before, ledgerOf behind, ?_, ?_, rfl⟩
      · rw [hips, ledgerOf_append, ledgerOf_free (of_decide_eq_true he)]
      · rw [ledgerOf_append, ledgerOf_used Int.one_pos]
        rfl
  · obtain ⟨before, e, behind, hips, -, he, -⟩ := changeFirst_some hchange
    have hmem : e ∈ x.ips := by
      rw [hips]
      exact List.mem_append_right before List.mem_cons_self
    exact absurd (of_decide_eq_true he) (not_tracks_of_not_entered hnone e hmem)

/-- A connection from a new address finds the table full. -/
theorem ipTrackConnect_full (hnone : ¬ Entered x.ips (addressOf ip ipv6))
    (hfull : ¬ HasRoom x.ips) : x.ipTrackConnect ip ipv6 = x := by
  by_cases h : x.Tracking
  · rw [ipTrackConnect, if_neg h]
    rcases hchange : changeFirst (fun e => e.Tracks ip ipv6)
      (fun e => { e with connections := e.connections + 1 }) x.ips with _ | ips
    · dsimp only
      rcases henter : changeFirst (fun e => e.connections ≤ 0) (fun _ => ⟨ip, ipv6, 1⟩) x.ips with
        _ | ips
      · rfl
      · obtain ⟨before, e, behind, hips, -, he, -⟩ := changeFirst_some henter
        refine absurd ⟨e, ?_, of_decide_eq_true he⟩ hfull
        rw [hips]
        exact List.mem_append_right before List.mem_cons_self
    · obtain ⟨before, e, behind, hips, -, he, -⟩ := changeFirst_some hchange
      have hmem : e ∈ x.ips := by
        rw [hips]
        exact List.mem_append_right before List.mem_cons_self
      exact absurd (of_decide_eq_true he) (not_tracks_of_not_entered hnone e hmem)
  · exact ipTrackConnect_off h

/-- A connection goes whose address is not entered. -/
theorem ipTrackDisconnect_none (hnone : ¬ Entered x.ips (addressOf ip ipv6)) :
    x.ipTrackDisconnect ip ipv6 = x := by
  by_cases h : x.Tracking
  · rw [ipTrackDisconnect, if_neg h]
    rcases hchange : changeFirst (fun e => e.Tracks ip ipv6) dropConnection x.ips with _ | ips
    · rfl
    · obtain ⟨before, e, behind, hips, -, he, -⟩ := changeFirst_some hchange
      have hmem : e ∈ x.ips := by
        rw [hips]
        exact List.mem_append_right before List.mem_cons_self
      exact absurd (of_decide_eq_true he) (not_tracks_of_not_entered hnone e hmem)
  · exact ipTrackDisconnect_off h

/-- **A connection goes**, and with the last one from its address the entry. -/
theorem ipTrackDisconnect_lowers (h : x.Tracking) (hentered : Entered x.ips (addressOf ip ipv6))
    (hspec : ¬ Unspecified ip ipv6) :
    ∃ l n r, ledgerOf x.ips = l ++ (addressOf ip ipv6, n) :: r ∧
      (0 < n - 1 ∧
          ledgerOf (x.ipTrackDisconnect ip ipv6).ips = l ++ (addressOf ip ipv6, n - 1) :: r ∧
          (x.ipTrackDisconnect ip ipv6).uniqueIpCount = x.uniqueIpCount ∨
        n - 1 ≤ 0 ∧ ledgerOf (x.ipTrackDisconnect ip ipv6).ips = l ++ r ∧
          (x.ipTrackDisconnect ip ipv6).uniqueIpCount = x.uniqueIpCount - 1) := by
  rw [ipTrackDisconnect, if_neg h]
  rcases hchange : changeFirst (fun e => e.Tracks ip ipv6) dropConnection x.ips with _ | ips
  · obtain ⟨e, he, htracks⟩ := exists_tracks hentered hspec
    exact absurd (decide_eq_true htracks) (changeFirst_none hchange e he)
  · obtain ⟨before, e, behind, hips, rfl, he, hfind⟩ := changeFirst_some hchange
    obtain ⟨hpos, haddress, -⟩ := (e.tracks_iff ip ipv6).mp (of_decide_eq_true he)
    refine ⟨ledgerOf before, e.connections, ledgerOf behind, ?_, ?_⟩
    · rw [hips, ledgerOf_append, ledgerOf_used hpos, haddress]
    · dsimp only
      rw [hfind, Option.any_some, ledgerOf_append]
      rcases lt_or_ge 0 (e.connections - 1) with hmore | hlast
      · refine Or.inl ⟨hmore, ?_, if_neg (by simpa using hmore)⟩
        rw [dropConnection, if_neg (not_le.mpr hmore), ledgerOf_used hmore, ← haddress]
        rfl
      · refine Or.inr ⟨hlast, ?_, if_pos (decide_eq_true hlast)⟩
        rw [dropConnection, if_pos hlast, ledgerOf_free le_rfl]

/-- The effective `max_ips`. -/
def cap (workers : ℕ) (x : SecretSlot) : Option ℤ :=
  if 0 < x.maxIps then some (effectiveLimit workers x.maxIps) else none

end SecretSlot

/-! ### Runs -/

/-- A secret, the clients whose connections are live, and the effective `max_ips` if it has been
the same since there last was none. -/
structure AddressRun where
  slot : SecretSlot
  live : List RemoteAddr
  cap : Option ℤ

/-- A client connects, the connection of a client is closed, or a reload changes the limits. -/
inductive AddressEvent
  | connect (remote : RemoteAddr)
  | disconnect (i : ℕ)
  | reload (cfg : SecretConfig)

namespace AddressRun

/-- The number of live connections from an address. -/
def count (s : AddressRun) (a : ℕ × Bytes) : ℕ := tally RemoteAddr.key s.live a

/-- The addresses there are connections from. -/
def addresses (s : AddressRun) : Finset (ℕ × Bytes) := (s.live.map RemoteAddr.address).toFinset

/-- The effective `max_ips` a client is up against. -/
def capNow (workers : ℕ) (s : AddressRun) : Option ℤ :=
  if s.live = [] then s.slot.cap workers else s.cap

end AddressRun

/-- One step of the secret in slot `i`.  A client is let in when `ip_over_limit` allows it. -/
def addressStep (workers i : ℕ) (s : AddressRun) : AddressEvent → AddressRun
  | .connect remote =>
    if s.slot.IpOverLimit workers remote.ip remote.ipv6 then s
    else ⟨s.slot.connect remote, s.live ++ [remote], s.capNow workers⟩
  | .disconnect j =>
    match s.live[j]? with
    | none => s
    | some remote => { s with slot := s.slot.disconnect remote, live := s.live.eraseIdx j }
  | .reload cfg =>
    { s with
      slot := s.slot.refresh i cfg
      cap := if (s.slot.refresh i cfg).cap workers = s.slot.cap workers then s.cap else none }

/-- What is promised of the addresses of a secret. -/
structure AddressesTracked (s : AddressRun) : Prop where
  count : s.slot.uniqueIpCount = (s.slot.ips.filter fun e => 0 < e.connections).length
  distinct : ((s.slot.ips.filter fun e => 0 < e.connections).map TrackedIp.address).Nodup
  counts : ∀ e ∈ s.slot.ips, 0 < e.connections → e.connections = s.count e.address
  capped : ∀ n, s.cap = some n → (s.addresses.card : ℤ) ≤ n
  closed : s.live = [] → s.slot.uniqueIpCount = 0

/-- **What a step needs of the moment it is taken in.** -/
def AddressServed (workers : ℕ) (s : AddressRun) : AddressEvent → Prop
  | .connect remote =>
    ¬ s.slot.IpOverLimit workers remote.ip remote.ipv6 →
      (Entered s.slot.ips remote.address →
        s.slot.Tracking ∧ ¬ Unspecified remote.ip remote.ipv6) ∧
      (¬ Entered s.slot.ips remote.address → s.slot.Tracking →
        s.count remote.address = 0 ∨ ¬ HasRoom s.slot.ips) ∧
      ((s.capNow workers).isSome → Entered s.slot.ips remote.address ∨ HasRoom s.slot.ips)
  | .disconnect j =>
    ∀ remote ∈ s.live[j]?, Entered s.slot.ips remote.address →
      s.slot.Tracking ∧ ¬ Unspecified remote.ip remote.ipv6
  | .reload _ => True

instance (workers : ℕ) (s : AddressRun) (e : AddressEvent) :
    Decidable (AddressServed workers s e) := by
  cases e <;> unfold AddressServed <;> infer_instance

/-- The invariant of a run. -/
structure AddressesSound (workers : ℕ) (s : AddressRun) : Prop where
  reflects : Reflects (ledgerOf s.slot.ips) s.count
  count : s.slot.uniqueIpCount = (ledgerOf s.slot.ips).length
  inForce : ∀ n, s.cap = some n → s.slot.cap workers = some n
  entered : ∀ n, s.cap = some n → ∀ r ∈ s.live, Entered s.slot.ips r.address
  capped : ∀ n, s.cap = some n → (s.addresses.card : ℤ) ≤ n

namespace AddressesSound

variable {workers i : ℕ} {s : AddressRun}

/-- What is promised follows. -/
theorem tracked (h : AddressesSound workers s) : AddressesTracked s where
  count := by
    rw [h.count, ledgerOf, List.length_map]
  distinct := by
    have hnodup := h.reflects.nodup
    rw [ledgerOf, List.map_map] at hnodup
    exact hnodup
  counts e he hpos := by
    have hmem : (e.address, e.connections) ∈ ledgerOf s.slot.ips :=
      List.mem_map.mpr ⟨e, List.mem_filter.mpr ⟨he, decide_eq_true hpos⟩, rfl⟩
    exact h.reflects.counts _ hmem
  capped := h.capped
  closed hlive := by
    have hnil := h.reflects.eq_nil fun a => by
      rw [AddressRun.count, hlive, tally_nil]
    rw [h.count, hnil]
    rfl

/-- Nobody is connected. -/
theorem start {x : SecretSlot} (hfree : ∀ e ∈ x.ips, e.connections ≤ 0)
    (hcount : x.uniqueIpCount = 0) : AddressesSound workers ⟨x, [], none⟩ := by
  have hnil : ledgerOf x.ips = [] := by
    rw [ledgerOf, List.map_eq_nil_iff, List.filter_eq_nil_iff]
    intro e he
    simpa using hfree e he
  refine ⟨?_, ?_, nofun, nofun, nofun⟩
  · rw [hnil]
    exact .nil _
  · rw [hnil]
    exact hcount

/-- An address that is entered has a live connection. -/
theorem mem_addresses (h : AddressesSound workers s) {a : ℕ × Bytes} (ha : Entered s.slot.ips a) :
    a ∈ s.addresses := by
  obtain ⟨c, hc, rfl⟩ := ha
  have hpos := h.reflects.pos c hc
  rw [h.reflects.counts c hc, Int.natCast_pos, AddressRun.count, tally,
    List.countP_pos_iff] at hpos
  obtain ⟨r, hr, heq⟩ := hpos
  exact List.mem_toFinset.mpr (List.mem_map.mpr ⟨r, hr, Option.some.inj (of_decide_eq_true heq)⟩)

/-- While a cap is in force there are no more addresses than entries. -/
theorem card_le (h : AddressesSound workers s) {n : ℤ} (hcap : s.cap = some n) :
    (s.addresses.card : ℤ) ≤ s.slot.uniqueIpCount := by
  have hsub : s.addresses ⊆ ((ledgerOf s.slot.ips).map Prod.fst).toFinset := by
    intro a ha
    obtain ⟨r, hr, rfl⟩ := List.mem_map.mp (List.mem_toFinset.mp ha)
    obtain ⟨c, hc, heq⟩ := h.entered n hcap r hr
    exact List.mem_toFinset.mpr (List.mem_map.mpr ⟨c, hc, heq⟩)
  have hcard := (Finset.card_le_card hsub).trans (List.toFinset_card_le _)
  rw [List.length_map] at hcard
  rw [h.count]
  exact_mod_cast hcard

end AddressesSound

/-! ### A client connects -/

section Connect

variable {workers : ℕ} {s : AddressRun} {remote : RemoteAddr}

theorem count_concat_self (live : List RemoteAddr) (remote : RemoteAddr) :
    tally RemoteAddr.key (live ++ [remote]) remote.address =
      tally RemoteAddr.key live remote.address + 1 := by
  rw [tally_concat, remote.weight_self]

theorem count_concat_of_ne (live : List RemoteAddr) {remote : RemoteAddr} {a : ℕ × Bytes}
    (h : a ≠ remote.address) :
    tally RemoteAddr.key (live ++ [remote]) a =
      tally RemoteAddr.key live a := by
  rw [tally_concat, RemoteAddr.weight_of_ne h, Nat.add_zero]

/-- **What a connection makes of the table.** -/
structure EntersTable (s : AddressRun) (remote : RemoteAddr) (x : SecretSlot) : Prop where
  reflects : Reflects (ledgerOf x.ips)
    (tally RemoteAddr.key (s.live ++ [remote]))
  count : x.uniqueIpCount = (ledgerOf x.ips).length
  keeps : ∀ a, Entered s.slot.ips a → Entered x.ips a
  enters : s.slot.Tracking → Entered s.slot.ips remote.address ∨ HasRoom s.slot.ips →
    Entered x.ips remote.address

/-- The table stays as it is. -/
theorem EntersTable.of_same {x : SecretSlot} (h : AddressesSound workers s)
    (hnone : ¬ Entered s.slot.ips remote.address) (hips : x.ips = s.slot.ips)
    (hcount : x.uniqueIpCount = s.slot.uniqueIpCount)
    (hout : ¬ s.slot.Tracking ∨ ¬ HasRoom s.slot.ips) : EntersTable s remote x where
  reflects := by
    rw [hips]
    exact h.reflects.elsewhere (fun c hc heq => hnone ⟨c, hc, heq⟩) fun a ha =>
      count_concat_of_ne s.live ha
  count := by
    rw [hcount, hips, h.count]
  keeps a ha := by
    rw [hips]
    exact ha
  enters htracking hroom := by
    rcases hout with hout | hout
    · exact absurd htracking hout
    · exact absurd (hroom.resolve_left hnone) hout

/-- **A connection is entered.** -/
theorem entersTable_connect (h : AddressesSound workers s)
    (hentered : Entered s.slot.ips remote.address →
      s.slot.Tracking ∧ ¬ Unspecified remote.ip remote.ipv6)
    (hnew : ¬ Entered s.slot.ips remote.address → s.slot.Tracking →
      s.count remote.address = 0 ∨ ¬ HasRoom s.slot.ips) :
    EntersTable s remote (s.slot.connect remote) := by
  have hconnect : s.slot.connect remote =
      { s.slot with connections := s.slot.connections + 1 }.ipTrackConnect remote.ip remote.ipv6 :=
    rfl
  rw [hconnect]
  generalize hx : ({ s.slot with connections := s.slot.connections + 1 } : SecretSlot) = x
  have hips : x.ips = s.slot.ips := by rw [← hx]
  have hunique : x.uniqueIpCount = s.slot.uniqueIpCount := by rw [← hx]
  have htracks : x.Tracking ↔ s.slot.Tracking := by
    rw [← hx]
    rfl
  by_cases hin : Entered s.slot.ips remote.address
  · obtain ⟨htracking, hspec⟩ := hentered hin
    obtain ⟨l, n, r, hledger, hledger', hcount⟩ := SecretSlot.ipTrackConnect_raises
      (htracks.mpr htracking) (hips.symm ▸ hin) hspec
    rw [hips] at hledger
    have hreflects := h.reflects
    rw [hledger] at hreflects
    refine ⟨?_, ?_, fun a ha => ?_, fun _ _ => ?_⟩
    · rw [hledger']
      exact hreflects.raise (count_concat_self s.live remote) fun a ha =>
        count_concat_of_ne s.live ha
    · rw [hcount, hunique, h.count, hledger, hledger']
      simp
    · rw [Entered, hledger, exists_cell] at ha
      rw [Entered, hledger', exists_cell]
      exact ha
    · rw [Entered, hledger', exists_cell]
      exact Or.inl rfl
  · by_cases hon : s.slot.Tracking ∧ HasRoom s.slot.ips
    · obtain ⟨htracking, hroom⟩ := hon
      obtain ⟨l, r, hledger, hledger', hcount⟩ := SecretSlot.ipTrackConnect_enters
        (htracks.mpr htracking) (hips.symm ▸ hin) (hips.symm ▸ hroom)
      rw [hips] at hledger
      have hreflects := h.reflects
      rw [hledger] at hreflects
      have hzero := (hnew hin htracking).resolve_right (not_not.mpr hroom)
      refine ⟨?_, ?_, fun a ha => ?_, fun _ _ => ?_⟩
      · rw [hledger']
        refine hreflects.enter (fun c hc heq => hin ⟨c, ?_, heq⟩) ?_ fun a ha =>
          count_concat_of_ne s.live ha
        · rw [hledger]
          exact hc
        · refine (count_concat_self s.live remote).trans ?_
          rw [show tally _ s.live remote.address = 0 from hzero]
      · rw [hcount, hunique, h.count, hledger, hledger']
        simp only [List.length_append, List.length_cons]
        omega
      · rw [Entered, hledger] at ha
        rw [Entered, hledger', exists_cell]
        exact Or.inr ha
      · rw [Entered, hledger', exists_cell]
        exact Or.inl rfl
    · have hsame : x.ipTrackConnect remote.ip remote.ipv6 = x := by
        by_cases htracking : s.slot.Tracking
        · exact SecretSlot.ipTrackConnect_full (hips.symm ▸ hin)
            (hips.symm ▸ fun hroom => hon ⟨htracking, hroom⟩)
        · exact SecretSlot.ipTrackConnect_off (mt htracks.mp htracking)
      rw [hsame]
      exact .of_same h hin hips hunique (not_and_or.mp hon)

end Connect

/-! ### A client goes -/

section Disconnect

variable {workers : ℕ} {s : AddressRun} {remote : RemoteAddr} {j : ℕ}

theorem count_eraseIdx_self {live : List RemoteAddr} (h : live[j]? = some remote) :
    tally RemoteAddr.key live remote.address =
      tally RemoteAddr.key (live.eraseIdx j) remote.address + 1 := by
  rw [tally_eraseIdx RemoteAddr.key h, remote.weight_self]

theorem count_eraseIdx_of_ne {live : List RemoteAddr} (h : live[j]? = some remote)
    {a : ℕ × Bytes} (ha : a ≠ remote.address) :
    tally RemoteAddr.key (live.eraseIdx j) a = tally RemoteAddr.key live a := by
  have herase := tally_eraseIdx RemoteAddr.key h a
  rw [RemoteAddr.weight_of_ne ha, Nat.add_zero] at herase
  exact herase.symm

/-- **What a connection that is closed makes of the table.** -/
structure LeavesTable (s : AddressRun) (j : ℕ) (x : SecretSlot) : Prop where
  reflects : Reflects (ledgerOf x.ips) (tally RemoteAddr.key (s.live.eraseIdx j))
  count : x.uniqueIpCount = (ledgerOf x.ips).length
  keeps : ∀ r ∈ s.live.eraseIdx j, Entered s.slot.ips r.address → Entered x.ips r.address

/-- **A connection is struck out.** -/
theorem leavesTable_disconnect (h : AddressesSound workers s) (hj : s.live[j]? = some remote)
    (hentered : Entered s.slot.ips remote.address →
      s.slot.Tracking ∧ ¬ Unspecified remote.ip remote.ipv6) :
    LeavesTable s j (s.slot.disconnect remote) := by
  have hdisconnect : s.slot.disconnect remote =
      { s.slot with connections := s.slot.connections - 1 }.ipTrackDisconnect remote.ip
        remote.ipv6 := rfl
  rw [hdisconnect]
  generalize hx : ({ s.slot with connections := s.slot.connections - 1 } : SecretSlot) = x
  have hips : x.ips = s.slot.ips := by rw [← hx]
  have hunique : x.uniqueIpCount = s.slot.uniqueIpCount := by rw [← hx]
  have htracks : x.Tracking ↔ s.slot.Tracking := by
    rw [← hx]
    rfl
  have hrest (a : ℕ × Bytes) (ha : a ≠ remote.address) :
      tally RemoteAddr.key (s.live.eraseIdx j) a = s.count a := count_eraseIdx_of_ne hj ha
  by_cases hin : Entered s.slot.ips remote.address
  · obtain ⟨htracking, hspec⟩ := hentered hin
    obtain ⟨l, n, r, hledger, hlowered⟩ := SecretSlot.ipTrackDisconnect_lowers
      (htracks.mpr htracking) (hips.symm ▸ hin) hspec
    rw [hips] at hledger
    have hreflects := h.reflects
    rw [hledger] at hreflects
    have hcount := h.count
    rw [hledger] at hcount
    rcases hlowered with ⟨hmore, hledger', hcount'⟩ | ⟨hlast, hledger', hcount'⟩
    · refine ⟨?_, ?_, fun c _ ha => ?_⟩
      · rw [hledger']
        exact hreflects.lower hmore (count_eraseIdx_self hj) hrest
      · rw [hcount', hunique, hcount, hledger']
        simp only [List.length_append, List.length_cons]
      · rw [Entered, hledger, exists_cell] at ha
        rw [Entered, hledger', exists_cell]
        exact ha
    · refine ⟨?_, ?_, fun c hc ha => ?_⟩
      · rw [hledger']
        exact hreflects.strike hrest
      · rw [hcount', hunique, hcount, hledger']
        simp only [List.length_append, List.length_cons]
        omega
      · rw [Entered, hledger, exists_cell] at ha
        rw [Entered, hledger']
        refine ha.resolve_left fun heq => ?_
        -- The entry is struck out with the last connection from its address.
        have hn : n = s.count remote.address :=
          hreflects.counts (addressOf remote.ip remote.ipv6, n)
            (List.mem_append_right l List.mem_cons_self)
        have hself : s.count remote.address = _ + 1 := count_eraseIdx_self hj
        have hpos : 0 < tally RemoteAddr.key (s.live.eraseIdx j) remote.address :=
          tally_pos RemoteAddr.key hc (congrArg some heq)
        omega
  · rw [SecretSlot.ipTrackDisconnect_none (hips.symm ▸ hin)]
    refine ⟨?_, ?_, fun c _ ha => ?_⟩
    · rw [hips]
      exact h.reflects.elsewhere (fun c hc heq => hin ⟨c, hc, heq⟩) hrest
    · rw [hunique, hips, h.count]
    · rw [hips]
      exact ha

end Disconnect

/-! ### What is promised -/

namespace AddressesSound

variable {workers i : ℕ} {s : AddressRun}

/-- A client is let in from an address that is there already, or there is room for one more. -/
theorem card_concat_le (h : AddressesSound workers s) {remote : RemoteAddr}
    (hallowed : ¬ s.slot.IpOverLimit workers remote.ip remote.ipv6) {n : ℤ}
    (hcap : s.capNow workers = some n) :
    (((s.live ++ [remote]).map RemoteAddr.address).toFinset.card : ℤ) ≤ n := by
  have hinsert : ((s.live ++ [remote]).map RemoteAddr.address).toFinset =
      insert remote.address s.addresses := by
    ext a
    simp [AddressRun.addresses]
  rw [hinsert]
  by_cases hlive : s.live = []
  · have hnil : s.addresses = ∅ := by rw [AddressRun.addresses, hlive]; rfl
    rw [AddressRun.capNow, if_pos hlive, SecretSlot.cap] at hcap
    split_ifs at hcap with hmax
    rw [hnil, ← Option.some.inj hcap, effectiveLimit]
    simp only [insert_empty_eq, Finset.card_singleton]
    split_ifs <;> omega
  · rw [AddressRun.capNow, if_neg hlive] at hcap
    have hcard := h.card_le hcap
    have hmost := h.capped n hcap
    have hforce := h.inForce n hcap
    rw [SecretSlot.cap] at hforce
    split_ifs at hforce with hmax
    by_cases hin : remote.address ∈ s.addresses
    · rw [Finset.insert_eq_of_mem hin]
      exact hmost
    · have hnone : ¬ Entered s.slot.ips remote.address := mt h.mem_addresses hin
      have hroom : ¬ s.slot.uniqueIpCount ≥ effectiveLimit workers s.slot.maxIps := fun hfull =>
        hallowed ⟨not_le.mpr hmax, not_tracks_of_not_entered hnone, hfull⟩
      rw [Finset.card_insert_of_notMem hin, Nat.cast_add, Nat.cast_one,
        ← Option.some.inj hforce]
      omega

theorem connect (h : AddressesSound workers s) {remote : RemoteAddr}
    (hallowed : ¬ s.slot.IpOverLimit workers remote.ip remote.ipv6)
    (hserved : AddressServed workers s (.connect remote)) :
    AddressesSound workers ⟨s.slot.connect remote, s.live ++ [remote], s.capNow workers⟩ := by
  obtain ⟨hentered, hnew, hroom⟩ := hserved hallowed
  have henters := entersTable_connect h hentered hnew
  obtain ⟨ips, m, hconnect⟩ := s.slot.connect_eq remote
  have hsame : (s.slot.connect remote).cap workers = s.slot.cap workers := by
    rw [hconnect]
    rfl
  have hforce {n : ℤ} (hcap : s.capNow workers = some n) : s.slot.cap workers = some n := by
    rw [AddressRun.capNow] at hcap
    split_ifs at hcap with hlive
    · exact hcap
    · exact h.inForce n hcap
  refine ⟨henters.reflects, henters.count, fun n hcap => hsame.trans (hforce hcap),
    fun n hcap r hr => ?_, fun n hcap => h.card_concat_le hallowed hcap⟩
  have htracking : s.slot.Tracking := by
    have hmax := hforce hcap
    rw [SecretSlot.cap] at hmax
    split_ifs at hmax with hpos
    exact fun hoff => absurd hpos (not_lt.mpr hoff.1)
  rcases List.mem_append.mp hr with hold | hthis
  · refine henters.keeps _ (h.entered n ?_ r hold)
    rw [AddressRun.capNow, if_neg (List.ne_nil_of_mem hold)] at hcap
    exact hcap
  · rw [List.mem_singleton.mp hthis]
    exact henters.enters htracking (hroom (Option.isSome_of_eq_some hcap))

theorem disconnect (h : AddressesSound workers s) {j : ℕ} {remote : RemoteAddr}
    (hj : s.live[j]? = some remote) (hserved : AddressServed workers s (.disconnect j)) :
    AddressesSound workers
      { s with slot := s.slot.disconnect remote, live := s.live.eraseIdx j } := by
  have hleaves := leavesTable_disconnect h hj (hserved remote hj)
  obtain ⟨ips, m, hdisconnect⟩ := s.slot.disconnect_eq remote
  have hsame : (s.slot.disconnect remote).cap workers = s.slot.cap workers := by
    rw [hdisconnect]
    rfl
  refine ⟨hleaves.reflects, hleaves.count, fun n hcap => hsame.trans (h.inForce n hcap),
    fun n hcap r hr => hleaves.keeps r hr (h.entered n hcap r ?_), fun n hcap => ?_⟩
  · exact (List.eraseIdx_sublist s.live j).subset hr
  · have hsub : ((s.live.eraseIdx j).map RemoteAddr.address).toFinset ⊆ s.addresses := by
      intro a ha
      obtain ⟨r, hr, rfl⟩ := List.mem_map.mp (List.mem_toFinset.mp ha)
      exact List.mem_toFinset.mpr
        (List.mem_map_of_mem ((List.eraseIdx_sublist s.live j).subset hr))
    have hcard : (((s.live.eraseIdx j).map RemoteAddr.address).toFinset.card : ℤ) ≤
        s.addresses.card := by exact_mod_cast Finset.card_le_card hsub
    exact hcard.trans (h.capped n hcap)

/-- **One step.** -/
theorem step (h : AddressesSound workers s) {e : AddressEvent}
    (hserved : AddressServed workers s e) : AddressesSound workers (addressStep workers i s e) := by
  cases e with
  | connect remote =>
    rw [addressStep]
    split_ifs with hover
    · exact h
    · exact h.connect hover hserved
  | disconnect j =>
    rw [addressStep]
    rcases hj : s.live[j]? with _ | remote
    · exact h
    · exact h.disconnect hj hserved
  | reload cfg =>
    refine ⟨h.reflects, h.count, fun n hcap => ?_, fun n hcap => ?_, fun n hcap => ?_⟩ <;>
      simp only [addressStep] at hcap <;> split_ifs at hcap with hsame
    · exact hsame.trans (h.inForce n hcap)
    · exact h.entered n hcap
    · exact h.capped n hcap

end AddressesSound

/-- **The table of a secret reflects its live connections**, in every run whose steps are served:
each address in use has one entry with the number of its connections, no more addresses are in use
than a constant `max_ips` allows, and none is left when the last connection is closed. -/
theorem addresses_tracked (workers i : ℕ) {x : SecretSlot} (hfree : ∀ e ∈ x.ips, e.connections ≤ 0)
    (hcount : x.uniqueIpCount = 0) {events : List AddressEvent}
    (hserved : Along (addressStep workers i) (AddressServed workers) ⟨x, [], none⟩ events) :
    Throughout (addressStep workers i) AddressesTracked ⟨x, [], none⟩ events :=
  (throughout_of_along (I := AddressesSound workers) (fun _ _ hs he => hs.step he)
    (.start hfree hcount) hserved).imp fun _ hs => hs.tracked

/-- A secret for one address at a time. -/
def sampleOneAddress : SecretSlot :=
  SecretSlot.zero.refresh 0 ⟨List.replicate 16 0, [], 0, 0, 0, 1, 0⟩

/-- The same secret without limits. -/
def sampleUnlimited : SecretConfig := ⟨List.replicate 16 0, [], 0, 0, 0, 0, 0⟩

/-- A client. -/
def sampleRemote : RemoteAddr := ⟨0x7f000001, List.replicate 16 0, 50000, false⟩

/-- The address of a client is not struck out when its connection is closed after a reload that has
lifted the limits. -/
theorem addresses_tracked_lifted :
    ¬ Throughout (addressStep 1 0) AddressesTracked ⟨sampleOneAddress, [], none⟩
      [.connect sampleRemote, .reload sampleUnlimited, .disconnect 0] := by
  rintro ⟨-, -, -, hlast⟩
  exact absurd (hlast.closed (by decide +kernel)) (by decide +kernel)

/-- Two connections of a client, the first of which is closed. -/
theorem addresses_tracked_sample :
    Throughout (addressStep 1 0) AddressesTracked ⟨sampleOneAddress, [], none⟩
      [.connect sampleRemote, .connect sampleRemote, .disconnect 0] :=
  addresses_tracked 1 0 (fun e he => by rw [List.eq_of_mem_replicate he]; exact le_rfl) rfl
    ⟨by decide +kernel, by decide +kernel, by decide +kernel, trivial⟩

end Server
end Teleproto3
