/-
# One slot for a key

What a key may use and what it has used are kept in its slot.  A reload drops an entry whose key
is pinned and refreshes the slot of one whose key is in use, but takes a slot for each entry
without one: a key the configuration repeats gets as many slots as entries.

Pass D is where a key comes to be in two slots, so all turns on `FreshOnce`
(`reload_uniqueKeys_iff`); no other event of a server changes what key a slot in use has.
-/

import Teleproto3.Server.ReloadAtomicity
import Teleproto3.Server.SlotStability
import Teleproto3.Server.TomlConfig

namespace Teleproto3
namespace Server

open Lib

namespace SecretTable

/-! ### Keys in use -/

/-- A slot that is neither pinned nor free. -/
def InUse (t : SecretTable) (s : ℕ) : Prop :=
  t.pinned ≤ s ∧ s < EXT_SECRET_MAX_SLOTS ∧ (t.slot s).state ≠ .free

/-- **No key twice**: no two slots in use have one key, and none has the key of a pinned slot. -/
structure UniqueKeys (t : SecretTable) : Prop where
  slots : ∀ s r, t.InUse s → t.InUse r → (t.slot s).key = (t.slot r).key → s = r
  pinned : ∀ s p, t.InUse s → p < t.pinned → (t.slot p).key ≠ (t.slot s).key

/-- A key that is in use or pinned. -/
def Taken (t : SecretTable) (key : Bytes) : Prop :=
  (∃ s, t.InUse s ∧ (t.slot s).key = key) ∨ ∃ p < t.pinned, (t.slot p).key = key

/-- **No new key twice**, as far as there are free slots for them. -/
def FreshOnce (t : SecretTable) (cfgs : List SecretConfig) : Prop :=
  (((t.newcomers (t.entries cfgs)).take t.freeSlots).map SecretConfig.key).Nodup

instance (t : SecretTable) (cfgs : List SecretConfig) : Decidable (t.FreshOnce cfgs) := by
  unfold FreshOnce
  infer_instance

/-- Two tables with the same slots in use under the same keys. -/
structure SameKeys (t t' : SecretTable) : Prop where
  pinned : t'.pinned = t.pinned
  free : ∀ s, (t'.slot s).state = .free ↔ (t.slot s).state = .free
  key : ∀ s, (t'.slot s).key = (t.slot s).key

namespace SameKeys

variable {t t' t'' : SecretTable}

theorem trans (h : t.SameKeys t') (h' : t'.SameKeys t'') : t.SameKeys t'' :=
  ⟨h'.pinned.trans h.pinned, fun s => (h'.free s).trans (h.free s),
    fun s => (h'.key s).trans (h.key s)⟩

theorem inUse_iff (h : t.SameKeys t') (s : ℕ) : t'.InUse s ↔ t.InUse s := by
  simp only [InUse, h.pinned, ne_eq, h.free]

theorem taken_iff (h : t.SameKeys t') (key : Bytes) : t'.Taken key ↔ t.Taken key := by
  simp only [Taken, h.inUse_iff, h.key, h.pinned]

theorem uniqueKeys_iff (h : t.SameKeys t') : t'.UniqueKeys ↔ t.UniqueKeys := by
  constructor
  · rintro ⟨hslots, hpinned⟩
    constructor
    · intro s r hs hr heq
      exact hslots s r ((h.inUse_iff s).mpr hs) ((h.inUse_iff r).mpr hr)
        (by rw [h.key, h.key, heq])
    · intro s p hs hp
      have hne := hpinned s p ((h.inUse_iff s).mpr hs) (h.pinned.symm ▸ hp)
      rwa [h.key, h.key] at hne
  · rintro ⟨hslots, hpinned⟩
    constructor
    · intro s r hs hr heq
      rw [h.key, h.key] at heq
      exact hslots s r ((h.inUse_iff s).mp hs) ((h.inUse_iff r).mp hr) heq
    · intro s p hs hp
      rw [h.key, h.key]
      exact hpinned s p ((h.inUse_iff s).mp hs) (h.pinned ▸ hp)

end SameKeys

/-! ### A reload -/

section Reload

variable {t : SecretTable} {s : ℕ} {cfg : SecretConfig}

/-- A slot that a new secret takes was not in use. -/
theorem inUse_fresh (h : t.firstSlot (fun x => x.state = .free) = some s) (r : ℕ) :
    (t.set s (.fresh s cfg)).InUse r ↔ r = s ∨ t.InUse r := by
  obtain ⟨hpinned, hs, hfree⟩ := firstSlot_some h
  have hfree : (t.slot s).state = .free := of_decide_eq_true hfree
  rcases eq_or_ne r s with rfl | hr
  · have hnew : ((t.set r (.fresh r cfg)).slot r).state ≠ .free := by
      rw [set_slot_self]
      exact SlotState.noConfusion
    exact ⟨fun _ => .inl rfl, fun _ => ⟨hpinned, hs, hnew⟩⟩
  · rw [InUse, InUse, set_slot_of_ne _ _ hr, set_pinned]
    exact ⟨.inr, fun h => h.resolve_left hr⟩

theorem key_fresh_of_inUse (h : t.firstSlot (fun x => x.state = .free) = some s) {r : ℕ}
    (hr : t.InUse r) : ((t.set s (.fresh s cfg)).slot r).key = (t.slot r).key := by
  have hne : r ≠ s := by
    rintro rfl
    exact hr.2.2 (of_decide_eq_true (firstSlot_some h).2.2)
  rw [set_slot_of_ne _ _ hne]

theorem key_fresh_of_pinned (h : t.firstSlot (fun x => x.state = .free) = some s) {p : ℕ}
    (hp : p < t.pinned) : ((t.set s (.fresh s cfg)).slot p).key = (t.slot p).key := by
  have hle := (firstSlot_some h).1
  rw [set_slot_of_ne _ _ (by omega)]

theorem key_fresh_self : ((t.set s (.fresh s cfg)).slot s).key = cfg.key := by
  rw [set_slot_self]
  rfl

theorem taken_fresh (h : t.firstSlot (fun x => x.state = .free) = some s) (key : Bytes) :
    (t.set s (.fresh s cfg)).Taken key ↔ cfg.key = key ∨ t.Taken key := by
  constructor
  · rintro (⟨r, hr, hkey⟩ | ⟨p, hp, hkey⟩)
    · rcases (inUse_fresh h r).mp hr with rfl | hr
      · rw [key_fresh_self] at hkey
        exact .inl hkey
      · rw [key_fresh_of_inUse h hr] at hkey
        exact .inr (.inl ⟨r, hr, hkey⟩)
    · rw [key_fresh_of_pinned h hp] at hkey
      exact .inr (.inr ⟨p, hp, hkey⟩)
  · rintro (hkey | ⟨r, hr, hkey⟩ | ⟨p, hp, hkey⟩)
    · exact .inl ⟨s, (inUse_fresh h s).mpr (.inl rfl), key_fresh_self.trans hkey⟩
    · exact .inl ⟨r, (inUse_fresh h r).mpr (.inr hr), (key_fresh_of_inUse h hr).trans hkey⟩
    · exact .inr ⟨p, hp, (key_fresh_of_pinned h hp).trans hkey⟩

/-- **A new secret** leaves the keys unique when its key was not taken. -/
theorem uniqueKeys_fresh_iff (h : t.firstSlot (fun x => x.state = .free) = some s) :
    (t.set s (.fresh s cfg)).UniqueKeys ↔ t.UniqueKeys ∧ ¬ t.Taken cfg.key := by
  have hself : (t.set s (.fresh s cfg)).InUse s := (inUse_fresh h s).mpr (.inl rfl)
  have hused {r : ℕ} (hr : t.InUse r) : (t.set s (.fresh s cfg)).InUse r :=
    (inUse_fresh h r).mpr (.inr hr)
  constructor
  · rintro ⟨hslots, hpinned⟩
    refine ⟨⟨fun r q hr hq heq => ?_, fun r p hr hp => ?_⟩, ?_⟩
    · refine hslots r q (hused hr) (hused hq) ?_
      rw [key_fresh_of_inUse h hr, key_fresh_of_inUse h hq, heq]
    · have hne := hpinned r p (hused hr) hp
      rwa [key_fresh_of_inUse h hr, key_fresh_of_pinned h hp] at hne
    · rintro (⟨r, hr, hkey⟩ | ⟨p, hp, hkey⟩)
      · have hsame := hslots r s (hused hr) hself
          (by rw [key_fresh_of_inUse h hr, key_fresh_self, hkey])
        exact hr.2.2 (hsame ▸ of_decide_eq_true (firstSlot_some h).2.2)
      · refine hpinned s p hself hp ?_
        rw [key_fresh_of_pinned h hp, key_fresh_self, hkey]
  · rintro ⟨⟨hslots, hpinned⟩, hfresh⟩
    constructor
    · intro r q hr hq heq
      rcases (inUse_fresh h r).mp hr with hrs | hr <;> rcases (inUse_fresh h q).mp hq with hqs | hq
      · exact hrs.trans hqs.symm
      · rw [hrs, key_fresh_self, key_fresh_of_inUse h hq] at heq
        exact absurd (.inl ⟨q, hq, heq.symm⟩) hfresh
      · rw [hqs, key_fresh_self, key_fresh_of_inUse h hr] at heq
        exact absurd (.inl ⟨r, hr, heq⟩) hfresh
      · rw [key_fresh_of_inUse h hr, key_fresh_of_inUse h hq] at heq
        exact hslots r q hr hq heq
    · intro r p hr hp heq
      rw [key_fresh_of_pinned h hp] at heq
      rcases (inUse_fresh h r).mp hr with hrs | hr
      · rw [hrs, key_fresh_self] at heq
        exact hfresh (.inr ⟨p, hp, heq⟩)
      · rw [key_fresh_of_inUse h hr] at heq
        exact hpinned r p hr hp heq

end Reload

/-- **Pass D** leaves the keys unique when those it places are different and none was taken. -/
theorem reloadAllocate_uniqueKeys_iff (t : SecretTable) (cfgs : List SecretConfig) :
    (reloadAllocate t cfgs).1.UniqueKeys ↔
      t.UniqueKeys ∧ ((cfgs.take t.freeSlots).map SecretConfig.key).Nodup ∧
        ∀ cfg ∈ cfgs.take t.freeSlots, ¬ t.Taken cfg.key := by
  induction cfgs generalizing t with
  | nil => simp [reloadAllocate]
  | cons cfg cfgs ih =>
    rw [reloadAllocate]
    rcases hslot : t.firstSlot (fun x => x.state = .free) with _ | s
    · simp [t.firstSlot_free.mp hslot]
    · dsimp only
      obtain ⟨hfree, -⟩ := set_fresh hslot cfg
      rw [ih, uniqueKeys_fresh_iff hslot, hfree, List.take_succ_cons, List.map_cons,
        List.nodup_cons, List.forall_mem_cons]
      simp only [taken_fresh hslot, not_or, List.mem_map, not_exists, not_and]
      constructor
      · rintro ⟨⟨hunique, hnew⟩, hnodup, hrest⟩
        exact ⟨hunique, ⟨fun c hc heq => (hrest c hc).1 heq.symm, hnodup⟩, hnew,
          fun c hc => (hrest c hc).2⟩
      · rintro ⟨hunique, ⟨hdiff, hnodup⟩, hnew, hrest⟩
        exact ⟨⟨hunique, hnew⟩, hnodup, fun c hc => ⟨fun heq => hdiff c hc heq.symm, hrest c hc⟩⟩

/-- The passes B and C change no key. -/
theorem settled_sameKeys (t : SecretTable) (preciseNow : ℚ) (cfgs : List SecretConfig) :
    t.SameKeys (t.settled preciseNow cfgs) where
  pinned := rfl
  free _ := settle_state
  key s := by
    show (t.settle preciseNow cfgs s).key = (t.slot s).key
    rw [settle]
    split
    · rfl
    · split_ifs <;> rfl

/-- The key of an entry without a slot is not taken. -/
theorem newcomers_not_taken {t : SecretTable} {cfgs : List SecretConfig} {cfg : SecretConfig}
    (h : cfg ∈ t.newcomers (t.entries cfgs)) : ¬ t.Taken cfg.key := by
  obtain ⟨hentry, hslot⟩ := List.mem_filter.mp h
  obtain ⟨-, hcollides⟩ := List.mem_filter.mp hentry
  rintro (⟨s, ⟨hpinned, hs, hused⟩, hkey⟩ | ⟨p, hp, hkey⟩)
  · rw [slotOf, firstSlot, Option.isNone_iff_eq_none, List.find?_eq_none] at hslot
    exact hslot s (List.mem_range.mpr hs) (by simp [hpinned, hused, hkey])
  · simp only [collides, Bool.not_eq_true', List.any_eq_false, decide_eq_true_eq] at hcollides
    exact hcollides p (List.mem_range.mpr hp) hkey

/-- **A reload**, successful or not, leaves the keys unique when no new key comes twice. -/
theorem reload_uniqueKeys_iff (t : SecretTable) (preciseNow : ℚ) (cfgs : List SecretConfig) :
    (tcpRpcsReloadExtSecrets t preciseNow cfgs).1.UniqueKeys ↔
      t.UniqueKeys ∧ t.FreshOnce cfgs := by
  have hsame : (tcpRpcsReloadExtSecrets t preciseNow cfgs).1.UniqueKeys ↔
      (reloadAllocate (t.settled preciseNow (t.entries cfgs))
        (t.newcomers (t.entries cfgs))).1.UniqueKeys := by
    rw [tcpRpcsReloadExtSecrets_eq]
    generalize reloadAllocate _ _ = r
    obtain ⟨t', placed⟩ := r
    cases placed with
    | false => rfl
    | true =>
      dsimp only
      split_ifs
      · rfl
      · exact SameKeys.uniqueKeys_iff ⟨rfl, fun _ => Iff.rfl, fun _ => rfl⟩
  have hkeys := t.settled_sameKeys preciseNow (t.entries cfgs)
  rw [hsame, reloadAllocate_uniqueKeys_iff, settled_freeSlots, hkeys.uniqueKeys_iff]
  simp only [hkeys.taken_iff]
  constructor
  · rintro ⟨hunique, hnodup, -⟩
    exact ⟨hunique, hnodup⟩
  · rintro ⟨hunique, hnodup⟩
    exact ⟨hunique, hnodup, fun cfg hcfg => newcomers_not_taken (List.mem_of_mem_take hcfg)⟩

/-- **A sweep** only takes slots out of use. -/
theorem Sweeps.uniqueKeys {t t' : SecretTable} (h : t.Sweeps t') (hunique : t.UniqueKeys) :
    t'.UniqueKeys := by
  have hkept {s : ℕ} (hs : t'.InUse s) : t.InUse s ∧ (t'.slot s).key = (t.slot s).key := by
    obtain ⟨hpinned, hlt, hused⟩ := hs
    rcases h.slot s with heq | ⟨-, -, -, hzero⟩
    · rw [heq] at hused
      exact ⟨⟨h.pinned ▸ hpinned, hlt, hused⟩, by rw [heq]⟩
    · rw [hzero] at hused
      exact absurd rfl hused
  have hfixed {p : ℕ} (hp : p < t.pinned) : t'.slot p = t.slot p := by
    rcases h.slot p with heq | ⟨hle, -⟩
    · exact heq
    · omega
  constructor
  · intro s r hs hr heq
    obtain ⟨hs, hskey⟩ := hkept hs
    obtain ⟨hr, hrkey⟩ := hkept hr
    exact hunique.slots s r hs hr (by rw [← hskey, ← hrkey, heq])
  · intro s p hs hp
    obtain ⟨hs, hskey⟩ := hkept hs
    rw [hskey, hfixed (h.pinned ▸ hp)]
    exact hunique.pinned s p hs (h.pinned ▸ hp)

end SecretTable

open SecretTable

/-! ### Events -/

section Step

variable {X : Type*} (workers : ℕ) (base : ExtServerEnv X) (proxyProtocolEnabled : Bool)

/-- A server that serves has no key twice. -/
def KeysUnique (s : SlotServer X) : Prop := s.started = true → s.world.table.UniqueKeys

/-- A reload that is carried out has no new key twice. -/
def ReloadsFreshOnce (s : SlotServer X) (e : SlotEvent X) : Prop :=
  s.fault = none → s.started = true → ∀ cfgs, e = .reload cfgs → s.world.table.FreshOnce cfgs

theorem Calm.sameKeys {w w' : SlotWorld X} (h : Calm w w') : w.table.SameKeys w'.table where
  pinned := h.pinned
  free s := by rw [h.state]
  key := h.key

/-- What is counted in a slot changes no key. -/
theorem sameKeys_of_counts {t t' : SecretTable} (hpinned : t'.pinned = t.pinned)
    (h : ∀ r, ∃ n, (t.slot r).Counts (t'.slot r) n) : t.SameKeys t' where
  pinned := hpinned
  free r := by
    obtain ⟨n, ips, m, heq⟩ := h r
    rw [heq]
  key r := by
    obtain ⟨n, ips, m, heq⟩ := h r
    rw [heq]

variable {workers base} in
/-- **A call of `parse_execute`** changes no key. -/
theorem ParseEffect.sameKeys {cond : Conn (SlotWorld X) → Prop} {c d : Conn (SlotWorld X)}
    (h : ParseEffect workers base cond c d) : c.world.table.SameKeys d.world.table := by
  cases h with
  | quiet h => exact h.world.sameKeys
  | @counted c1 d1 pr hfresh hfront hcond hblock hback =>
    have hpinned : (countedWorld workers base c1.world (matchedSlot base c1 pr)
        c1.remote).table.pinned = c1.world.table.pinned := by
      unfold countedWorld
      split_ifs <;> rfl
    have hcounted := sameKeys_of_counts hpinned fun r => ⟨_, hblock.slot r⟩
    exact hfront.world.sameKeys.trans
      ((hcounted.trans hblock.world.sameKeys).trans hback.world.sameKeys)

/-- The end of a client's connection changes no key. -/
theorem clientClose_sameKeys (c : Conn (SlotWorld X)) :
    c.world.table.SameKeys (clientClose c).table := by
  refine sameKeys_of_counts (clientClose_rest c).2 fun r => ?_
  obtain ⟨k, -, hcounts⟩ := clientClose_slot c r
  exact ⟨_, hcounts⟩

/-- When the server begins to serve, no slot is in use. -/
theorem SettingUp.uniqueKeys {s : SlotServer X} (h : SettingUp s) :
    (tcpRpcsPinExtSecrets s.world.table).UniqueKeys := by
  have hnone (r : ℕ) : ¬ (tcpRpcsPinExtSecrets s.world.table).InUse r :=
    fun hr => hr.2.2 (h.unused r hr.1)
  exact ⟨fun r _ hr => absurd hr (hnone r), fun r _ hr => absurd hr (hnone r)⟩

/-- A server is set up before it serves. -/
theorem slotStep_settingUp {s : SlotServer X} (h : s.started = false → SettingUp s)
    (e : SlotEvent X) : (slotStep workers base proxyProtocolEnabled s e).started = false →
      SettingUp (slotStep workers base proxyProtocolEnabled s e) := by
  cases hstarted : s.started with
  | true =>
    intro hnot
    rw [slotStep_started workers base proxyProtocolEnabled hstarted] at hnot
    exact absurd hnot (by decide)
  | false =>
    have hup := h hstarted
    cases hfault : s.fault.isSome with
    | true =>
      rw [slotStep_fault workers base proxyProtocolEnabled hfault]
      exact fun _ => hup
    | false =>
      rw [slotStep_setup workers base proxyProtocolEnabled hfault hstarted]
      cases e with
      | register cfg =>
        unfold slotSetup
        dsimp only
        split_ifs
        · exact fun _ => (hup.register cfg).2
        · exact fun _ => hup
      | start =>
        intro hnot
        exact absurd (show true = false from hnot) (by decide)
      | _ => exact fun _ => hup

/-- **An event that is no reload** puts no key into a second slot. -/
theorem slotStep_keysUnique {s : SlotServer X} {e : SlotEvent X}
    (hup : s.started = false → SettingUp s) (he : ∀ cfgs, e ≠ .reload cfgs) (h : KeysUnique s) :
    KeysUnique (slotStep workers base proxyProtocolEnabled s e) := by
  refine slotStep_inv workers base proxyProtocolEnabled (I := KeysUnique) h
    (blockCond_trivial workers base s e) ?_ ?_ ?_ ?_
  · rintro hstarted s' (⟨-, hworld, -⟩ | ⟨-, heffect, rfl⟩)
    · intro _
      rw [hworld]
      exact h hstarted
    · exact fun _ => heffect.sameKeys.uniqueKeys_iff.mpr (h hstarted)
  · exact fun hstarted i c _ _ =>
      (clientClose_sameKeys (c.inWorld s.world)).uniqueKeys_iff.mpr (h hstarted)
  · intro hstarted s' _ hother _
    cases hother with
    | calm hworld _ => exact hworld.sameKeys.uniqueKeys_iff.mpr (h hstarted)
    | accepted hworld _ =>
      rw [hworld]
      exact h hstarted
    | reloaded hreload _ _ _ _ => exact absurd hreload (he _)
    | swept htable _ _ _ => exact htable.uniqueKeys (h hstarted)
  · intro hstarted
    cases e with
    | register cfg =>
      intro hserves
      unfold slotSetup at hserves
      dsimp only at hserves
      split_ifs at hserves <;> exact absurd (hstarted.symm.trans hserves) (by decide)
    | start => exact fun _ => (hup hstarted).uniqueKeys
    | _ => exact h

/-- **One event** leaves the keys unique when it is no reload with a new key twice. -/
theorem slotStep_keysUnique_iff {s : SlotServer X} {e : SlotEvent X}
    (hup : s.started = false → SettingUp s) (h : KeysUnique s) :
    KeysUnique (slotStep workers base proxyProtocolEnabled s e) ↔ ReloadsFreshOnce s e := by
  by_cases he : ∀ cfgs, e ≠ .reload cfgs
  · exact ⟨fun _ _ _ cfgs hcfgs => absurd hcfgs (he cfgs),
      fun _ => slotStep_keysUnique workers base proxyProtocolEnabled hup he h⟩
  · obtain ⟨cfgs, rfl⟩ := not_forall_not.mp he
    cases hfault : s.fault with
    | some a =>
      rw [slotStep_fault workers base proxyProtocolEnabled (by rw [hfault]; rfl)]
      exact ⟨fun _ hnone => absurd (hfault.symm.trans hnone) (by simp), fun _ => h⟩
    | none =>
      have hnone : s.fault.isSome = false := by rw [hfault]; rfl
      cases hstarted : s.started with
      | false =>
        rw [slotStep_setup workers base proxyProtocolEnabled hnone hstarted]
        exact ⟨fun _ _ hserves => absurd (hstarted.symm.trans hserves) (by decide), fun _ => h⟩
      | true =>
        rw [slotStep_serve workers base proxyProtocolEnabled hnone hstarted]
        have hreload := reload_uniqueKeys_iff s.world.table s.world.preciseNow cfgs
        constructor
        · rintro hunique - - cfgs' heq
          obtain rfl := SlotEvent.reload.inj heq
          exact (hreload.mp (hunique hstarted)).2
        · intro hfresh _
          exact hreload.mpr ⟨h hstarted, hfresh hfault hstarted cfgs rfl⟩

/-! ### Runs -/

/-- **A key is in one slot throughout a run** if and only if no reload of it, successful or not,
has a new key twice. -/
theorem slotRun_keysUnique_iff (now : ℤ) (preciseNow : ℚ) (rest : X) (es : List (SlotEvent X)) :
    Throughout (slotStep workers base proxyProtocolEnabled) KeysUnique
        (.start now preciseNow rest) es ↔
      Along (slotStep workers base proxyProtocolEnabled) ReloadsFreshOnce
        (.start now preciseNow rest) es := by
  refine throughout_iff_along (I := fun s => s.started = false → SettingUp s)
    (R := fun _ _ => True)
    (fun s e hup _ => slotStep_settingUp workers base proxyProtocolEnabled hup e)
    (fun s e hup _ hq => slotStep_keysUnique_iff workers base proxyProtocolEnabled hup hq)
    (fun _ => start_settingUp now preciseNow rest) ?_ ?_
  · intro hserves
    exact absurd (show false = true from hserves) (by decide)
  · exact along_of_throughout (Q := fun _ => True) (fun _ _ _ => trivial)
      (throughout_of_step (fun _ _ _ => trivial) trivial)

end Step

/-- A file with one secret under two labels. -/
def repeatedToml : TomlDatum :=
  let entry (label : String) : TomlDatum := .table
    [(ascii "key", .string (ascii "00112233445566778899aabbccddeeff")),
      (ascii "label", .string (ascii label))]
  .table [(ascii "secret", .array [entry "home", entry "work"])]

/-- The secrets of the file. -/
def repeatedSecrets : List SecretConfig :=
  let key : Bytes := [0x00, 0x11, 0x22, 0x33, 0x44, 0x55, 0x66, 0x77, 0x88, 0x99, 0xAA, 0xBB, 0xCC,
    0xDD, 0xEE, 0xFF]
  [⟨key, ascii "home", 0, 0, 0, 0, 0⟩, ⟨key, ascii "work", 0, 0, 0, 0, 0⟩]

/-- **A key that a file repeats** gets two slots with the first reload. -/
theorem repeatedToml_keysTwice :
    parseSecrets repeatedToml = .ok repeatedSecrets ∧
      ¬ Throughout (slotStep 1 (directServer none) false) KeysUnique (.start 0 0 ())
        [.start, .reload repeatedSecrets] := by
  refine ⟨by decide, fun hall => ?_⟩
  have hunique : (tcpRpcsReloadExtSecrets SecretTable.empty 0 repeatedSecrets).1.UniqueKeys :=
    hall.finish rfl
  have hfresh := ((reload_uniqueKeys_iff _ _ _).mp hunique).2
  exact absurd hfresh (by decide)

end Server
end Teleproto3
