/-
# The table of ext_connections as queries use it

`forward_tcp_query` writes the `auth_key_id` of an entry that it finds, and asks for a new entry
where it finds none.  The first leaves the ledger's entries as they are (`Holds.setAuthKeyId`); of
the second, that the call returned says that there was no entry and that a slot was free
(`Holds.create_of_ok`).

No slot has issued more ids than there were entries (`ExtLedger.Counted`), so the ids do not run
out as long as the entries are few.
-/

import Teleproto3.Server.ExtClosing
import Teleproto3.Server.QueryForwarding

namespace Teleproto3
namespace Server

open Lib ExtMemory

variable {m m' : ExtTable} {L L' : ExtLedger} {a : ℕ} {e : ExtEntry}

/-! ### What is left of the entries -/

namespace ExtLedger

/-- **Entries go, and none comes**: those that are left join what they joined, under the same
ids. -/
structure Within (L' L : ExtLedger) : Prop where
  live : ∀ x' ∈ L'.live, ∃ x ∈ L.live, x'.1 = x.1 ∧ x'.2.inFd = x.2.inFd ∧
    x'.2.inGen = x.2.inGen ∧ x'.2.inConnId = x.2.inConnId ∧ x'.2.outConnId = x.2.outConnId
  issued : L'.issued = L.issued

theorem Within.of_subset (hlive : ∀ x ∈ L'.live, x ∈ L.live) (hissued : L'.issued = L.issued) :
    L'.Within L where
  live x hx := ⟨x, hlive x hx, rfl, rfl, rfl, rfl, rfl⟩
  issued := hissued

theorem Within.refl : L.Within L := .of_subset (fun _ hx => hx) rfl

theorem Within.trans {L'' : ExtLedger} (h : L''.Within L') (h' : L'.Within L) : L''.Within L where
  live x hx := by
    obtain ⟨y, hy, hcell, hfd, hgen, hconn, hid⟩ := h.live x hx
    obtain ⟨z, hz, hcell', hfd', hgen', hconn', hid'⟩ := h'.live y hy
    exact ⟨z, hz, hcell.trans hcell', hfd.trans hfd', hgen.trans hgen', hconn.trans hconn',
      hid.trans hid'⟩
  issued := h.issued.trans h'.issued

/-- How many entries there have been. -/
def made (L : ExtLedger) : ℕ := L.live.length + L.removed.length

theorem remove_within (a : ℕ) : (L.remove a).Within L :=
  .of_subset (fun _ hx => (mem_live_remove.mp hx).1) rfl

@[simp] theorem made_remove (a : ℕ) : (L.remove a).made = L.made := by
  have hsplit := List.length_eq_length_filter_add (l := L.live) fun x => decide (x.1 ≠ a)
  have hrest : (L.live.filter fun x => !decide (x.1 ≠ a)) = L.live.filter fun x => x.1 = a :=
    List.filter_congr fun x _ => by simp
  rw [hrest] at hsplit
  simp only [made, remove, List.length_append, List.length_map]
  omega

theorem removeAll_within (l : List ℕ) : (L.removeAll l).Within L := by
  induction l generalizing L with
  | nil => exact .refl
  | cons a l ih => exact ih.trans (remove_within a)

@[simp] theorem made_removeAll (l : List ℕ) : (L.removeAll l).made = L.made := by
  induction l generalizing L with
  | nil => rfl
  | cons a l ih => exact ih.trans (made_remove a)

theorem close_within (c : ConnectionJob) : (L.close c).Within L := by
  unfold close
  split_ifs
  · have hall := removeAll_within (L := L) (L.having fun e => e.OutOn c.fd)
    exact ⟨hall.live, hall.issued⟩
  · exact .refl

@[simp] theorem made_close (c : ConnectionJob) : (L.close c).made = L.made := by
  unfold close
  split_ifs
  · exact made_removeAll _
  · rfl

theorem mem_ready_close {c d : ConnectionJob} (hd : d ∈ (L.close c).ready) :
    d ∈ L.ready ∧ d ≠ c := by
  unfold close at hd
  split_ifs at hd with hc
  · obtain ⟨hd, hne⟩ := List.mem_filter.mp hd
    exact ⟨hd, of_decide_eq_true hne⟩
  · exact ⟨hd, fun he => hc (he ▸ hd)⟩

@[simp] theorem touch_live_eq (c : ConnectionJob) : (L.touch c).live = L.live := by
  unfold touch
  split <;> rfl

@[simp] theorem touch_ready (c : ConnectionJob) : (L.touch c).ready = L.ready := by
  unfold touch
  split <;> rfl

theorem touch_within (c : ConnectionJob) : (L.touch c).Within L := by
  refine .of_subset (fun x hx => touch_live_eq (L := L) c ▸ hx) ?_
  unfold touch
  split <;> rfl

@[simp] theorem made_touch (c : ConnectionJob) : (L.touch c).made = L.made := by
  unfold touch
  split <;> rfl

theorem made_create : (L.create a e).made = L.made + 1 := by
  simp only [made, create, List.length_append, List.length_singleton]
  omega

/-! ### The ids are enough -/

/-- **Each id is of a generation that is not beyond the number of entries there have been.** -/
def Counted (L : ExtLedger) : Prop := ∀ s, (L.issued s).toNat < (L.made + 1) * EXT_CONN_TABLE_SIZE

theorem start_counted : start.Counted := by
  intro s
  have hpos : 0 < EXT_CONN_TABLE_SIZE := by decide
  change 0 < (0 + 1) * EXT_CONN_TABLE_SIZE
  omega

theorem Counted.of_eq (h : L.Counted) (hmade : L'.made = L.made) (hissued : L'.issued = L.issued) :
    L'.Counted := by
  intro s
  rw [hmade, hissued]
  exact h s

/-- Few entries need few ids. -/
theorem Counted.unwrapped (h : L.Counted) (hfew : L.made < 2 ^ 40) {s : ℕ}
    (hs : s < EXT_CONN_TABLE_SIZE) : Unwrapped (L.issued s) s := by
  have hlt := h s
  unfold Unwrapped EXT_CONN_TABLE_SIZE at *
  omega

theorem Counted.create (h : L.Counted) {ci : ConnectionJob} {inConnId authKeyId : UInt64}
    {co : Option ConnectionJob} {draws : List ℕ} {s : ℕ}
    (hc : L.Creates ci inConnId co a draws s) :
    (L.create a (L.newEntry ci inConnId co authKeyId s)).Counted := by
  intro s'
  rw [made_create]
  have hslot : Server.slotOf (L.newEntry ci inConnId co authKeyId s).outConnId = s := hc.slotOf
  have hs := (pick_spec hc.slot).1
  have hmore : (L.made + 1) * EXT_CONN_TABLE_SIZE ≤ (L.made + 1 + 1) * EXT_CONN_TABLE_SIZE :=
    Nat.mul_le_mul_right _ (Nat.le_succ _)
  by_cases heq : s' = s
  · have hself := issued_create_self (L := L) (a := a) (e := L.newEntry ci inConnId co authKeyId s)
    rw [hslot] at hself
    have hdiv : (L.issued s).toNat / EXT_CONN_TABLE_SIZE < L.made + 1 :=
      Nat.div_lt_of_lt_mul (Nat.mul_comm _ EXT_CONN_TABLE_SIZE ▸ h s)
    rw [heq, hself]
    calc (nextOutConnId (L.issued s) s).toNat
        = ((L.issued s).toNat / EXT_CONN_TABLE_SIZE + 1) * EXT_CONN_TABLE_SIZE + s :=
          nextOutConnId_toNat hc.unwrapped
      _ < ((L.issued s).toNat / EXT_CONN_TABLE_SIZE + 1) * EXT_CONN_TABLE_SIZE +
            EXT_CONN_TABLE_SIZE := Nat.add_lt_add_left hs _
      _ = ((L.issued s).toNat / EXT_CONN_TABLE_SIZE + 1 + 1) * EXT_CONN_TABLE_SIZE :=
          (Nat.succ_mul _ _).symm
      _ ≤ (L.made + 1 + 1) * EXT_CONN_TABLE_SIZE :=
          Nat.mul_le_mul_right _ (Nat.succ_le_succ (Nat.succ_le_of_lt hdiv))
  · rw [issued_create_of_ne (hslot.symm ▸ heq)]
    exact lt_of_lt_of_le (h s') hmore

/-! ### An `auth_key_id` is written -/

/-- The entry of a cell is given another `auth_key_id`. -/
def rekey (L : ExtLedger) (a : ℕ) (authKeyId : UInt64) : ExtLedger :=
  { L with
    live := L.live.map fun x => if x.1 = a then (x.1, { x.2 with authKeyId := authKeyId }) else x }

variable (authKeyId : UInt64)

/-- An entry that was given another `auth_key_id` joins what it joined. -/
theorem mem_live_rekey {x' : ℕ × ExtEntry} (h : x' ∈ (L.rekey a authKeyId).live) :
    ∃ x ∈ L.live, x'.1 = x.1 ∧ x'.2.inFd = x.2.inFd ∧ x'.2.inGen = x.2.inGen ∧
      x'.2.inConnId = x.2.inConnId ∧ x'.2.out = x.2.out ∧ x'.2.outConnId = x.2.outConnId := by
  obtain ⟨x, hx, rfl⟩ := List.mem_map.mp h
  refine ⟨x, hx, ?_⟩
  split_ifs <;> exact ⟨rfl, rfl, rfl, rfl, rfl, rfl⟩

theorem exists_mem_rekey {x : ℕ × ExtEntry} (hx : x ∈ L.live) :
    ∃ x' ∈ (L.rekey a authKeyId).live, x'.1 = x.1 ∧ x'.2.outConnId = x.2.outConnId := by
  refine ⟨_, List.mem_map_of_mem hx, ?_⟩
  split_ifs <;> exact ⟨rfl, rfl⟩

theorem rekey_within : (L.rekey a authKeyId).Within L where
  live x' hx' := by
    obtain ⟨x, hx, hcell, hfd, hgen, hconn, -, hid⟩ := mem_live_rekey authKeyId hx'
    exact ⟨x, hx, hcell, hfd, hgen, hconn, hid⟩
  issued := rfl

@[simp] theorem made_rekey : (L.rekey a authKeyId).made = L.made := by
  simp only [made, rekey, List.length_map]

/-- What does not depend on the `auth_key_id` is the same. -/
theorem map_rekey {γ : Type} (f : ℕ × ExtEntry → γ)
    (hf : ∀ x : ℕ × ExtEntry, f (x.1, { x.2 with authKeyId := authKeyId }) = f x) :
    (L.rekey a authKeyId).live.map f = L.live.map f := by
  rw [rekey, List.map_map]
  refine List.map_congr_left fun x _ => ?_
  simp only [Function.comp]
  split_ifs
  · exact hf x
  · rfl

theorem having_rekey (p : ExtEntry → Bool)
    (hp : ∀ e : ExtEntry, p { e with authKeyId := authKeyId } = p e) :
    (L.rekey a authKeyId).having p = L.having p := by
  have hsame (x : ℕ × ExtEntry) :
      p (if x.1 = a then (x.1, { x.2 with authKeyId := authKeyId }) else x).2 = p x.2 := by
    split_ifs
    · exact hp x.2
    · rfl
  unfold having rekey
  rw [List.filter_map, List.map_map]
  simp only [Function.comp_def, hsame]
  refine List.map_congr_left fun x _ => ?_
  split_ifs <;> rfl

theorem addresses_rekey : (L.rekey a authKeyId).addresses = L.addresses :=
  map_rekey authKeyId Prod.fst fun _ => rfl

theorem Sound.rekey (hL : L.Sound) : (L.rekey a authKeyId).Sound where
  cells := (addresses_rekey (a := a) authKeyId).symm ▸ hL.cells
  sole := (map_rekey authKeyId (fun x => x.2.inFd) fun _ => rfl).symm ▸ hL.sole
  ids := (map_rekey authKeyId (fun x => x.2.outConnId) fun _ => rfl).symm ▸ hL.ids
  inRange x hx := by
    obtain ⟨y, hy, -, hfd, -⟩ := mem_live_rekey authKeyId hx
    exact hfd ▸ hL.inRange y hy
  joined x hx o ho := by
    obtain ⟨y, hy, -, -, -, -, hout, -⟩ := mem_live_rekey authKeyId hx
    exact hL.joined y hy o (hout ▸ ho)
  readyRange := hL.readyRange
  readyFds := hL.readyFds
  readyJobs := hL.readyJobs
  current x hx := by
    obtain ⟨y, hy, -, -, -, -, -, hid⟩ := mem_live_rekey authKeyId hx
    rw [hid]
    exact hL.current y hy
  past e he := by
    refine ⟨(hL.past e he).1, fun x hx => ?_⟩
    obtain ⟨y, hy, -, -, -, -, -, hid⟩ := mem_live_rekey authKeyId hx
    rw [hid]
    exact (hL.past e he).2 y hy
  used := (addresses_rekey (a := a) authKeyId).symm ▸ hL.used

/-- What memory has to hold. -/
theorem layout_rekey (used : ExtRing → Prop) :
    (L.rekey a authKeyId).layout used =
      { L.layout used with
        cells := cellsWrite (L.layout used).cells a
          fun c => { c with authKeyId := authKeyId } } := by
  refine ExtLayout.ext ?_ rfl (funext fun R => ?_) (funext fun i => ?_)
  · simp only [layout, rekey, cellsWrite, List.map_map]
    refine List.map_congr_left fun x _ => ?_
    simp only [Function.comp]
    split_ifs <;> rfl
  · cases R with
    | lru => rfl
    | outbound fd => exact having_rekey authKeyId (fun e => e.OutOn fd) fun _ => rfl
    | inbound fd =>
      simp only [layout, ring]
      split_ifs
      · rfl
      · exact having_rekey authKeyId (fun e => e.inFd = fd) fun _ => rfl
  · exact congrArg List.reverse
      (having_rekey authKeyId (fun e => extConnHash e.inFd e.inConnId = i) fun _ => rfl)

end ExtLedger

/-- **An entry is given an `auth_key_id`.** -/
theorem ExtTable.Holds.setAuthKeyId (h : m.Holds L) (hx : (a, e) ∈ L.live) (authKeyId : UInt64) :
    ∃ m' L', m.setAuthKeyId (.cell a) authKeyId = .ok m' ∧ m'.Holds L' ∧
      (L' = L ∨ L' = L.rekey a authKeyId) := by
  obtain ⟨c, hc, -⟩ := h.load hx
  by_cases hkey : c.authKeyId = authKeyId
  · refine ⟨m, L, ?_, h, .inl rfl⟩
    simp only [ExtTable.setAuthKeyId, load_eq hc, ok_seq, hkey, if_true]
    rfl
  · obtain ⟨used, hl, hlru, hout⟩ := h.laidOut
    let f : ExtConnection → ExtConnection := fun c => { c with authKeyId := authKeyId }
    have hw : LaidOut (m.mem.alter (.cell a) f) m.inExtConnectionHash
        ((L.rekey a authKeyId).layout used) := by
      rw [ExtLedger.layout_rekey]
      refine hl.write (fun c => rfl) (fun c => rfl) fun c k => ?_
      cases k <;> rfl
    refine ⟨{ m with mem := m.mem.alter (.cell a) f }, L.rekey a authKeyId, ?_,
      ⟨h.sound.rekey authKeyId, ⟨used, hw, hlru, hout⟩, h.ids, fun s r => (h.refs s r).trans ?_,
        ?_, ?_, h.tags, h.untagged⟩, .inr rfl⟩
    · simp only [ExtTable.setAuthKeyId, load_eq hc, ok_seq, hkey, if_false, modify_eq hc]
      rfl
    · constructor
      · rintro ⟨x, hx, rfl, hs⟩
        obtain ⟨x', hx', hcell, hid⟩ := ExtLedger.exists_mem_rekey (a := a) authKeyId hx
        exact ⟨x', hx', congrArg ExtRef.cell hcell.symm, hid ▸ hs⟩
      · rintro ⟨x', hx', rfl, hs⟩
        obtain ⟨x, hx, hcell, -, -, -, -, hid⟩ := ExtLedger.mem_live_rekey authKeyId hx'
        exact ⟨x, hx, congrArg ExtRef.cell hcell, hid ▸ hs⟩
    · rw [h.count, ExtLedger.rekey, List.length_map]
    · rw [h.created, ExtLedger.rekey, List.length_map]

/-! ### A new entry -/

/-- A step of a call that returned has returned. -/
theorem seq_eq_ok {ε α β : Type} {x : Except ε α} {f : α → Except ε β} {b : β}
    (h : (x >>= f) = .ok b) : ∃ a, x = .ok a ∧ f a = .ok b := by
  cases x with
  | ok a => exact ⟨a, rfl, h⟩
  | error e => cases h

/-- **That a slot was found says that the ledger finds it.** -/
theorem ExtTable.Holds.pick_of_slotLoop (h : m.Holds L) {draws : List ℕ} {s : ℕ}
    (hs : m.slotLoop draws = .ok s) : L.pick draws = some s := by
  cases hp : L.pick draws with
  | some s' => exact congrArg some (Except.ok.inj ((h.slotLoop hp).symm.trans hs))
  | none =>
    exfalso
    induction draws with
    | nil => cases hs
    | cons d draws ih =>
      rw [ExtLedger.pick, List.map_cons, List.find?_cons] at hp
      by_cases hf : L.Free (d &&& (EXT_CONN_TABLE_SIZE - 1))
      · rw [decide_eq_true hf] at hp
        cases hp
      · rw [decide_eq_false hf] at hp
        have href : (m.outExtConnections (d &&& (EXT_CONN_TABLE_SIZE - 1))).ref ≠ none := by
          obtain ⟨x, hx, hxs⟩ : ∃ x ∈ L.live,
              slotOf x.2.outConnId = d &&& (EXT_CONN_TABLE_SIZE - 1) := by
            simpa [ExtLedger.Free] using hf
          rw [(h.refs _ (.cell x.1)).mpr ⟨x, hx, rfl, hxs⟩]
          exact Option.some_ne_none _
        rw [ExtTable.slotLoop, if_neg href] at hs
        exact ih hs hp

/-- The slots are as they were when the loop looks for one that is free. -/
theorem ExtTable.slotLoop_of_createNew {b inFd inGen : ℕ} {inConnId : UInt64} {room : Option ℕ}
    {draws : List ℕ} {y : ExtTable × ExtRef}
    (h : m.createNew b inFd inGen inConnId room draws = .ok y) :
    ∃ a s, room = some a ∧
      m.slotLoop (if inConnId ≠ 0 then draws else inFd :: draws) = .ok s := by
  obtain ⟨-, -, h⟩ := seq_eq_ok h
  cases room with
  | none => cases h
  | some a =>
    obtain ⟨m₁, h₁, h⟩ := seq_eq_ok h
    obtain ⟨-, -, h⟩ := seq_eq_ok h
    obtain ⟨m₂, h₂, h⟩ := seq_eq_ok h
    obtain ⟨m₃, h₃, -⟩ := seq_eq_ok h
    obtain ⟨s, hs, -⟩ := seq_eq_ok h₃
    have hout₁ : m₁.outExtConnections = m.outExtConnections := by
      obtain ⟨_, _, h₁⟩ := seq_eq_ok h₁
      obtain ⟨_, _, h₁⟩ := seq_eq_ok h₁
      exact Except.ok.inj h₁ ▸ rfl
    have hout₂ : m₂.outExtConnections = m₁.outExtConnections := by
      unfold ExtTable.linkInbound at h₂
      split_ifs at h₂
      · exact Except.ok.inj h₂ ▸ rfl
      · obtain ⟨-, -, h₂⟩ := seq_eq_ok h₂
        obtain ⟨_, _, h₂⟩ := seq_eq_ok h₂
        obtain ⟨_, _, h₂⟩ := seq_eq_ok h₂
        obtain ⟨_, _, h₂⟩ := seq_eq_ok h₂
        obtain ⟨_, _, h₂⟩ := seq_eq_ok h₂
        exact Except.ok.inj h₂ ▸ rfl
    rw [slotLoop_congr (hout₂.trans hout₁)] at hs
    exact ⟨a, s, rfl, hs⟩

/-- Where there is an entry, no other is made. -/
theorem ExtTable.Holds.create_live (h : m.Holds L) (hx : (a, e) ∈ L.live) (hzero : e.inConnId = 0)
    {ci : ConnectionJob} (hfd : e.inFd = ci.fd) (co : Option ConnectionJob) (authKeyId : UInt64)
    (room : Option ℕ) (draws : List ℕ) :
    m.createExtConnection ci 0 co authKeyId room draws = .error .alreadyExists := by
  obtain ⟨c, hc, hce⟩ := h.load hx
  obtain ⟨l₁, l₂, -, hloop⟩ := h.chainLoop_live hx hc hce
  rw [hzero, hfd] at hloop
  have hne : c.outConnId ≠ 0 := by
    rw [show c.outConnId = e.outConnId from congrArg ExtConnection.outConnId hce]
    exact (h.sound.current _ hx).2
  simp only [ExtTable.createExtConnection, ExtTable.getExtConnectionByInConnId, hloop, ok_seq,
    load_eq hc, check_pos hne]
  rfl

/-- **That a new entry was made says that there was none**, and what it is. -/
theorem ExtTable.Holds.create_of_ok (h : m.Holds L) (hzero : ∀ x ∈ L.live, x.2.inConnId = 0)
    (hcounted : L.Counted) (hfew : L.made < 2 ^ 40) {ci d : ConnectionJob} {authKeyId : UInt64}
    {room : Option ℕ} {draws : List ℕ} {r : ExtRef} (hfd : ci.fd < MAX_CONNECTIONS)
    (hfresh : ∀ a ∈ room, m.mem (.cell a) = none) (hd : d ∈ L.ready) (hne : d ≠ ci)
    (hrun : m.createExtConnection ci 0 (some d) authKeyId room draws = .ok (m', r)) :
    ∃ a s, r = .cell a ∧ L.Creates ci 0 (some d) a draws s ∧
      m'.Holds (L.create a (L.newEntry ci 0 (some d) authKeyId s)) := by
  by_cases hno : ∀ x ∈ L.live, x.2.inFd ≠ ci.fd
  · obtain ⟨x, hfound, -⟩ := seq_eq_ok hrun
    obtain ⟨y, hloop, hnew⟩ := seq_eq_ok hfound
    rw [h.chainLoop_absent 0 hno] at hloop
    obtain rfl := Except.ok.inj hloop
    obtain ⟨z, hnew, -⟩ := seq_eq_ok hnew
    obtain ⟨a, s, hroom, hs⟩ := ExtTable.slotLoop_of_createNew hnew
    have hp := h.pick_of_slotLoop hs
    have hc : L.Creates ci 0 (some d) a draws s :=
      { inRange := hfd
        none := hno
        fresh := by
          intro hmem
          obtain ⟨e, hx⟩ := ExtLedger.mem_addresses.mp hmem
          obtain ⟨c, hc, -⟩ := h.load hx
          exact Option.some_ne_none c (hc.symm.trans (hfresh a hroom))
        ready := by
          rintro d' hd'
          obtain rfl := Option.some.inj hd'
          exact ⟨hd, hne⟩
        slot := hp
        unwrapped := hcounted.unwrapped hfew (pick_spec hp).1 }
    obtain ⟨m'', hrun', h'⟩ := h.create authKeyId hc
    rw [← hroom, hrun] at hrun'
    obtain ⟨rfl, rfl⟩ := Prod.mk.inj (Except.ok.inj hrun')
    exact ⟨a, s, rfl, hc, h'⟩
  · push Not at hno
    obtain ⟨⟨a, e⟩, hx, he⟩ := hno
    rw [h.create_live hx (hzero _ hx) he] at hrun
    cases hrun

end Server
end Teleproto3
