/-
# A reload that is rejected

`tcp_rpcs_reload_ext_secrets` returns -1 when a new secret finds no free slot or when too many
slots are active.  Both come to light when it has already refreshed the slots named by the
configuration, sent the others draining and filled free slots, and nothing is taken back, nor is
`ext_secret_cnt` brought up to date.

What the passes do is said here by what is asked of the table they start with: `nominee` is the
entry a slot is refreshed from, `newcomers` are the entries without a slot.  A rejected reload
leaves the table alone exactly when there is nothing to do for either (`reloadAtomic_iff`).
-/

import Teleproto3.Server.SecretTable

namespace Teleproto3
namespace Server

open Lib

/-! ### Counting indices -/

/-- Only the index `s` comes to meet the condition. -/
theorem countP_range_of_joins {n s : ℕ} {p q : ℕ → Bool} (hs : s < n) (hp : p s = false)
    (hq : q s = true) (hrest : ∀ r, r ≠ s → q r = p r) :
    (List.range n).countP q = (List.range n).countP p + 1 := by
  induction n with
  | zero => exact nomatch hs
  | succ n ih =>
    rw [List.range_succ, List.countP_append, List.countP_append, List.countP_singleton,
      List.countP_singleton]
    rcases Nat.lt_succ_iff_lt_or_eq.mp hs with hlt | rfl
    · rw [ih hlt, hrest n (by omega)]
      omega
    · have hsame : (List.range s).countP q = (List.range s).countP p :=
        List.countP_congr fun r hr => by rw [hrest r (List.mem_range.mp hr).ne]
      rw [hsame, if_pos hq, if_neg (by rw [hp]; exact Bool.false_ne_true)]

namespace SecretTable

/-- Two tables that agree in each slot and in both counts are one. -/
theorem eq_of_slots {t t' : SecretTable} (hslot : ∀ s, t.slot s = t'.slot s) (hcnt : t.cnt = t'.cnt)
    (hpinned : t.pinned = t'.pinned) : t = t' := by
  obtain ⟨slot, cnt, pinned⟩ := t
  obtain ⟨slot', cnt', pinned'⟩ := t'
  obtain rfl : slot = slot' := funext hslot
  obtain rfl : cnt = cnt' := hcnt
  obtain rfl : pinned = pinned' := hpinned
  rfl

/-! ### What a configuration asks of a table -/

/-- The entries that are not ignored. -/
def entries (t : SecretTable) (cfgs : List SecretConfig) : List SecretConfig :=
  cfgs.filter fun cfg => !t.collides cfg

/-- The slot of a secret. -/
def slotOf (t : SecretTable) (cfg : SecretConfig) : Option ℕ :=
  t.firstSlot fun x => x.state ≠ .free ∧ x.key = cfg.key

/-- The entry a slot is refreshed from, which is the last one for it. -/
def nominee (t : SecretTable) (s : ℕ) : List SecretConfig → Option SecretConfig
  | [] => none
  | cfg :: cfgs => (t.nominee s cfgs).or (if t.slotOf cfg = some s then some cfg else none)

/-- The entries without a slot. -/
def newcomers (t : SecretTable) (cfgs : List SecretConfig) : List SecretConfig :=
  cfgs.filter fun cfg => (t.slotOf cfg).isNone

/-- The number of free slots. -/
def freeSlots (t : SecretTable) : ℕ :=
  (List.range EXT_SECRET_MAX_SLOTS).countP fun s => t.pinned ≤ s ∧ (t.slot s).state = .free

/-- The number of slots named by the entries. -/
def namedSlots (t : SecretTable) (cfgs : List SecretConfig) : ℕ :=
  (List.range EXT_SECRET_MAX_SLOTS).countP fun s => (t.nominee s cfgs).isSome

/-- **The configuration does not fit**: more newcomers than free slots, or too many secrets in
all. -/
def Rejects (t : SecretTable) (cfgs : List SecretConfig) : Prop :=
  t.freeSlots < (t.newcomers (t.entries cfgs)).length ∨
    EXT_SECRET_MAX_ACTIVE <
      t.pinned + t.namedSlots (t.entries cfgs) + (t.newcomers (t.entries cfgs)).length

/-- **There is nothing to do**: a slot named by the configuration is active with what its entry
says, no active slot is left out, and there is no newcomer, or no free slot for one. -/
structure NothingToDo (t : SecretTable) (cfgs : List SecretConfig) : Prop where
  refreshed : ∀ s cfg, t.nominee s (t.entries cfgs) = some cfg →
    (t.slot s).refresh s cfg = t.slot s
  named : ∀ s, t.pinned ≤ s → s < EXT_SECRET_MAX_SLOTS → (t.slot s).state = .active →
    (t.nominee s (t.entries cfgs)).isSome
  unplaced : t.newcomers (t.entries cfgs) = [] ∨ t.freeSlots = 0

theorem slotOf_some {t : SecretTable} {cfg : SecretConfig} {s : ℕ} (h : t.slotOf cfg = some s) :
    t.pinned ≤ s ∧ s < EXT_SECRET_MAX_SLOTS ∧ (t.slot s).state ≠ .free := by
  obtain ⟨hpinned, hs, hp⟩ := firstSlot_some h
  exact ⟨hpinned, hs, (of_decide_eq_true hp).1⟩

theorem nominee_some {t : SecretTable} {cfgs : List SecretConfig} {cfg : SecretConfig} {s : ℕ}
    (h : t.nominee s cfgs = some cfg) : t.slotOf cfg = some s := by
  induction cfgs with
  | nil => exact nomatch h
  | cons c cfgs ih =>
    rw [nominee] at h
    rcases Option.or_eq_some_iff.mp h with hlater | ⟨-, hthis⟩
    · exact ih hlater
    · split_ifs at hthis with hslot
      rw [← Option.some.inj hthis]
      exact hslot

/-! ### Pass B -/

/-- Two tables with the same slots in use under the same keys name the same slots. -/
theorem slotOf_congr {t t' : SecretTable} (hpinned : t'.pinned = t.pinned)
    (hstate : ∀ s, (t'.slot s).state ≠ .free ↔ (t.slot s).state ≠ .free)
    (hkey : ∀ s, (t'.slot s).key = (t.slot s).key) (cfg : SecretConfig) :
    t'.slotOf cfg = t.slotOf cfg := by
  unfold slotOf firstSlot
  congr 1
  funext s
  rw [hpinned]
  simp only [hstate s, hkey s]

theorem nominee_congr {t t' : SecretTable} (h : ∀ cfg, t'.slotOf cfg = t.slotOf cfg) (s : ℕ)
    (cfgs : List SecretConfig) : t'.nominee s cfgs = t.nominee s cfgs := by
  induction cfgs with
  | nil => rfl
  | cons cfg cfgs ih => rw [nominee, nominee, ih, h cfg]

/-- A slot that is refreshed remains the slot of the same secrets. -/
theorem slotOf_set_refresh {t : SecretTable} {s : ℕ} (h : (t.slot s).state ≠ .free)
    (cfg cfg' : SecretConfig) :
    (t.set s ((t.slot s).refresh s cfg)).slotOf cfg' = t.slotOf cfg' := by
  have hpinned : (t.set s ((t.slot s).refresh s cfg)).pinned = t.pinned := rfl
  refine slotOf_congr hpinned (fun r => ?_) (fun r => ?_) cfg'
  · by_cases hr : r = s
    · rw [hr, set_slot_self]
      exact ⟨fun _ => h, fun _ => SlotState.noConfusion⟩
    · rw [t.set_slot_of_ne _ hr]
  · by_cases hr : r = s
    · rw [hr, set_slot_self]
      rfl
    · rw [t.set_slot_of_ne _ hr]

end SecretTable

open SecretTable

/-- **Pass B.**  Each slot is refreshed from its nominee and is then no candidate, and the
newcomers are left. -/
theorem reloadMatch_spec (t : SecretTable) (candidate : ℕ → Bool) (cfgs : List SecretConfig) :
    (reloadMatch t candidate cfgs).1.cnt = t.cnt ∧
    (reloadMatch t candidate cfgs).1.pinned = t.pinned ∧
    (∀ s, (reloadMatch t candidate cfgs).1.slot s =
      (t.nominee s cfgs).elim (t.slot s) ((t.slot s).refresh s)) ∧
    (∀ s, (reloadMatch t candidate cfgs).2.1 s = (candidate s && (t.nominee s cfgs).isNone)) ∧
    (reloadMatch t candidate cfgs).2.2 = t.newcomers cfgs := by
  induction cfgs generalizing t candidate with
  | nil => exact ⟨rfl, rfl, fun _ => rfl, fun s => (Bool.and_true _).symm, rfl⟩
  | cons cfg cfgs ih =>
    have hfirst : (t.firstSlot fun x => x.state ≠ .free ∧ x.key = cfg.key) = t.slotOf cfg := rfl
    rw [reloadMatch, hfirst]
    rcases hslot : t.slotOf cfg with _ | r
    · obtain ⟨hcnt, hpinned, hslots, hcandidate, hleft⟩ := ih t candidate
      have hsame (s : ℕ) : t.nominee s (cfg :: cfgs) = t.nominee s cfgs := by
        rw [nominee, hslot, if_neg (Option.some_ne_none s).symm, Option.or_none]
      refine ⟨hcnt, hpinned, fun s => ?_, fun s => ?_, ?_⟩
      · rw [hsame]
        exact hslots s
      · rw [hsame]
        exact hcandidate s
      · rw [newcomers, List.filter_cons_of_pos (by rw [hslot]; rfl), ← newcomers, ← hleft]
    · obtain ⟨-, -, hused⟩ := slotOf_some hslot
      obtain ⟨hcnt, hpinned, hslots, hcandidate, hleft⟩ :=
        ih (t.set r ((t.slot r).refresh r cfg)) (Function.update candidate r false)
      have hslotOf := slotOf_set_refresh hused cfg
      have hnominee (s : ℕ) := nominee_congr hslotOf s cfgs
      refine ⟨hcnt, hpinned, fun s => ?_, fun s => ?_, ?_⟩
      · refine (hslots s).trans ?_
        rw [hnominee, nominee, hslot]
        by_cases hs : s = r
        · rw [hs, if_pos rfl, set_slot_self]
          cases t.nominee r cfgs <;> rfl
        · rw [if_neg fun h => hs (Option.some.inj h).symm, Option.or_none,
            t.set_slot_of_ne _ hs]
      · refine (hcandidate s).trans ?_
        rw [hnominee, nominee, hslot]
        by_cases hs : s = r
        · rw [hs, if_pos rfl, Function.update_self]
          cases t.nominee r cfgs <;> simp
        · rw [if_neg fun h => hs (Option.some.inj h).symm, Option.or_none,
            Function.update_of_ne hs]
      · refine hleft.trans ?_
        rw [newcomers, newcomers, List.filter_cons_of_neg (by rw [hslot]; exact Bool.false_ne_true)]
        exact List.filter_congr fun cfg' _ => by rw [hslotOf]

/-! ### Pass C -/

/-- What becomes of a slot in the passes B and C. -/
def SecretTable.settle (t : SecretTable) (preciseNow : ℚ) (cfgs : List SecretConfig) (s : ℕ) :
    SecretSlot :=
  match t.nominee s cfgs with
  | some cfg => (t.slot s).refresh s cfg
  | none =>
    if t.pinned ≤ s ∧ s < EXT_SECRET_MAX_SLOTS ∧ (t.slot s).state = .active then
      { t.slot s with state := .draining, drainStartedAt := preciseNow }
    else t.slot s

/-- The table after the passes B and C. -/
def SecretTable.settled (t : SecretTable) (preciseNow : ℚ) (cfgs : List SecretConfig) :
    SecretTable :=
  { t with slot := t.settle preciseNow cfgs }

/-- The candidates of pass A. -/
def SecretTable.candidates (t : SecretTable) (s : ℕ) : Bool :=
  decide (t.pinned ≤ s ∧ s < EXT_SECRET_MAX_SLOTS ∧ (t.slot s).state = .active)

/-- **Pass C.**  The candidates that are left drain. -/
theorem reloadDrain_eq (t : SecretTable) (preciseNow : ℚ) (cfgs : List SecretConfig) :
    reloadDrain (reloadMatch t t.candidates cfgs).1 (reloadMatch t t.candidates cfgs).2.1
      preciseNow = t.settled preciseNow cfgs := by
  obtain ⟨hcnt, hpinned, hslots, hcandidate, -⟩ := reloadMatch_spec t t.candidates cfgs
  refine eq_of_slots (fun s => ?_) hcnt hpinned
  unfold reloadDrain
  show (if _ then _ else _) = t.settle preciseNow cfgs s
  rw [hpinned, hcandidate s, settle, hslots s]
  rcases hnominee : t.nominee s cfgs with _ | cfg
  · by_cases hactive : t.pinned ≤ s ∧ s < EXT_SECRET_MAX_SLOTS ∧ (t.slot s).state = .active
    · rw [if_pos hactive, if_pos ⟨hactive.1, hactive.2.1, by simp [candidates, hactive]⟩]
      rfl
    · rw [if_neg hactive, if_neg]
      · rfl
      · rintro ⟨-, -, hcand⟩
        simp only [Option.isNone_none, Bool.and_true] at hcand
        exact hactive (of_decide_eq_true hcand)
  · rw [if_neg]
    · rfl
    · rintro ⟨-, -, hcand⟩
      simp at hcand

/-- **A reload**: the passes B and C, then D, then the check of the number of active slots. -/
theorem tcpRpcsReloadExtSecrets_eq (t : SecretTable) (preciseNow : ℚ) (cfgs : List SecretConfig) :
    tcpRpcsReloadExtSecrets t preciseNow cfgs =
      match reloadAllocate (t.settled preciseNow (t.entries cfgs))
          (t.newcomers (t.entries cfgs)) with
      | (t, false) => (t, -1)
      | (t, true) =>
        if t.activeTotal > EXT_SECRET_MAX_ACTIVE then (t, -1)
        else ({ t with cnt := t.highWater }, 0) := by
  rw [← reloadDrain_eq, ← (reloadMatch_spec t t.candidates (t.entries cfgs)).2.2.2.2]
  rfl

namespace SecretTable

variable {t : SecretTable} {preciseNow : ℚ} {cfgs : List SecretConfig} {s : ℕ}

theorem settle_of_nominee {cfg : SecretConfig} (h : t.nominee s cfgs = some cfg) :
    t.settle preciseNow cfgs s = (t.slot s).refresh s cfg := by
  rw [settle, h]

theorem settle_of_left (h : t.nominee s cfgs = none)
    (hactive : t.pinned ≤ s ∧ s < EXT_SECRET_MAX_SLOTS ∧ (t.slot s).state = .active) :
    t.settle preciseNow cfgs s =
      { t.slot s with state := .draining, drainStartedAt := preciseNow } := by
  rw [settle, h]
  exact if_pos hactive

theorem settle_of_idle (h : t.nominee s cfgs = none)
    (hidle : ¬ (t.pinned ≤ s ∧ s < EXT_SECRET_MAX_SLOTS ∧ (t.slot s).state = .active)) :
    t.settle preciseNow cfgs s = t.slot s := by
  rw [settle, h]
  exact if_neg hidle

/-- A slot in use stays in use, and a free one is left alone. -/
theorem settle_state : (t.settle preciseNow cfgs s).state = .free ↔ (t.slot s).state = .free := by
  rcases hnominee : t.nominee s cfgs with _ | cfg
  · by_cases hactive : t.pinned ≤ s ∧ s < EXT_SECRET_MAX_SLOTS ∧ (t.slot s).state = .active
    · rw [settle_of_left hnominee hactive, hactive.2.2]
      constructor <;> exact nofun
    · rw [settle_of_idle hnominee hactive]
  · obtain ⟨-, -, hused⟩ := slotOf_some (nominee_some hnominee)
    rw [settle_of_nominee hnominee]
    exact ⟨nofun, fun h => absurd h hused⟩

/-- What the passes B and C change is in use. -/
theorem settle_of_free (h : (t.slot s).state = .free) :
    t.settle preciseNow cfgs s = t.slot s := by
  rcases hnominee : t.nominee s cfgs with _ | cfg
  · refine settle_of_idle hnominee fun hactive => ?_
    rw [h] at hactive
    exact nomatch hactive.2.2
  · exact absurd h (slotOf_some (nominee_some hnominee)).2.2

/-- The slots that are active after the passes B and C are those that are named. -/
theorem settle_active :
    t.pinned ≤ s ∧ s < EXT_SECRET_MAX_SLOTS ∧ (t.settle preciseNow cfgs s).state = .active ↔
      (t.nominee s cfgs).isSome := by
  rcases hnominee : t.nominee s cfgs with _ | cfg
  · by_cases hactive : t.pinned ≤ s ∧ s < EXT_SECRET_MAX_SLOTS ∧ (t.slot s).state = .active
    · rw [settle_of_left hnominee hactive]
      exact ⟨fun h => (nomatch h.2.2), nofun⟩
    · rw [settle_of_idle hnominee hactive]
      exact ⟨fun h => absurd h hactive, nofun⟩
  · obtain ⟨hpinned, hs, -⟩ := slotOf_some (nominee_some hnominee)
    rw [settle_of_nominee hnominee]
    exact ⟨fun _ => rfl, fun _ => ⟨hpinned, hs, rfl⟩⟩

/-- The passes B and C change nothing where there is nothing to do for them. -/
theorem settled_eq_iff :
    t.settled preciseNow cfgs = t ↔
      (∀ s cfg, t.nominee s cfgs = some cfg → (t.slot s).refresh s cfg = t.slot s) ∧
        ∀ s, t.pinned ≤ s → s < EXT_SECRET_MAX_SLOTS → (t.slot s).state = .active →
          (t.nominee s cfgs).isSome := by
  constructor
  · intro h
    have hslot (s : ℕ) : t.settle preciseNow cfgs s = t.slot s :=
      congrFun (congrArg SecretTable.slot h) s
    refine ⟨fun s cfg hnominee => (settle_of_nominee hnominee).symm.trans (hslot s),
      fun s hpinned hs hactive => ?_⟩
    rw [← hslot] at hactive
    exact settle_active.mp ⟨hpinned, hs, hactive⟩
  · rintro ⟨hrefreshed, hnamed⟩
    refine eq_of_slots (fun s => ?_) rfl rfl
    rcases hnominee : t.nominee s cfgs with _ | cfg
    · refine settle_of_idle hnominee fun hactive => ?_
      have hsome := hnamed s hactive.1 hactive.2.1 hactive.2.2
      rw [hnominee] at hsome
      exact nomatch hsome
    · exact (settle_of_nominee hnominee).trans (hrefreshed s cfg hnominee)

theorem settled_freeSlots : (t.settled preciseNow cfgs).freeSlots = t.freeSlots :=
  List.countP_congr fun s _ => by simp only [settled, settle_state]

theorem settled_activeTotal :
    (t.settled preciseNow cfgs).activeTotal = t.pinned + t.namedSlots cfgs := by
  refine congrArg (t.pinned + ·) (List.countP_congr fun s hs => ?_)
  have hactive : _ ∧ _ ∧ (t.settle preciseNow cfgs s).state = .active ↔ _ := settle_active
  have hlt := List.mem_range.mp hs
  show decide (t.pinned ≤ s ∧ (t.settle preciseNow cfgs s).state = .active) = true ↔ _
  rw [decide_eq_true_iff, ← hactive]
  exact ⟨fun h => ⟨h.1, hlt, h.2⟩, fun h => ⟨h.1, h.2.2⟩⟩

end SecretTable

/-! ### Pass D -/

/-- There is no free slot. -/
theorem SecretTable.firstSlot_free (t : SecretTable) :
    t.firstSlot (fun x => x.state = .free) = none ↔ t.freeSlots = 0 := by
  rw [firstSlot, freeSlots, List.find?_eq_none, List.countP_eq_zero]
  simp only [decide_eq_true_eq]

/-- A free slot is taken into use. -/
theorem SecretTable.set_fresh {t : SecretTable} {s : ℕ}
    (h : t.firstSlot (fun x => x.state = .free) = some s) (cfg : SecretConfig) :
    t.freeSlots = (t.set s (.fresh s cfg)).freeSlots + 1 ∧
      (t.set s (.fresh s cfg)).activeTotal = t.activeTotal + 1 := by
  obtain ⟨hpinned, hs, hfree⟩ := firstSlot_some h
  have hfree : (t.slot s).state = .free := of_decide_eq_true hfree
  have hnew : ((t.set s (.fresh s cfg)).slot s).state = .active := by
    rw [set_slot_self]
    rfl
  constructor
  · refine countP_range_of_joins hs ?_ ?_ fun r hr => ?_
    · rw [hnew]
      exact decide_eq_false fun h => nomatch h.2
    · exact decide_eq_true ⟨hpinned, hfree⟩
    · rw [set_slot_of_ne _ _ hr]
      rfl
  · rw [activeTotal, activeTotal, Nat.add_assoc]
    refine congrArg (t.pinned + ·) (countP_range_of_joins hs ?_ ?_ fun r hr => ?_)
    · rw [hfree]
      exact decide_eq_false fun h => nomatch h.2
    · exact decide_eq_true ⟨hpinned, hnew⟩
    · rw [set_slot_of_ne _ _ hr]
      rfl

/-- **Pass D** succeeds when there are free slots enough, and each newcomer is then one more
active slot.  Slots in use are left alone. -/
theorem reloadAllocate_spec (t : SecretTable) (cfgs : List SecretConfig) :
    (reloadAllocate t cfgs).1.cnt = t.cnt ∧
    (reloadAllocate t cfgs).1.pinned = t.pinned ∧
    (∀ s, (t.slot s).state ≠ .free → (reloadAllocate t cfgs).1.slot s = t.slot s) ∧
    ((reloadAllocate t cfgs).2 = true ↔ cfgs.length ≤ t.freeSlots) ∧
    ((reloadAllocate t cfgs).2 = true →
      (reloadAllocate t cfgs).1.activeTotal = t.activeTotal + cfgs.length) := by
  induction cfgs generalizing t with
  | nil => exact ⟨rfl, rfl, fun _ _ => rfl, by simp [reloadAllocate], fun _ => rfl⟩
  | cons cfg cfgs ih =>
    rw [reloadAllocate]
    rcases hslot : t.firstSlot (fun x => x.state = .free) with _ | s
    · have hnone := t.firstSlot_free.mp hslot
      dsimp only
      exact ⟨rfl, rfl, fun _ _ => rfl, by simp [hnone], Bool.noConfusion⟩
    · obtain ⟨hcnt, hpinned, hused, hplaced, hactive⟩ := ih (t.set s (.fresh s cfg))
      obtain ⟨hfree, hmore⟩ := set_fresh hslot cfg
      refine ⟨hcnt, hpinned, fun r hr => ?_, ?_, fun h => ?_⟩
      · have hne : r ≠ s := by
          rintro rfl
          exact hr (of_decide_eq_true (firstSlot_some hslot).2.2)
        have hsame := t.set_slot_of_ne (.fresh s cfg) hne
        rw [← hsame] at hr
        exact (hused r hr).trans hsame
      · rw [hfree, List.length_cons, Nat.add_le_add_iff_right]
        exact hplaced
      · rw [hactive h, hmore, List.length_cons]
        omega

/-- Pass D changes nothing where it can place nothing. -/
theorem reloadAllocate_eq_iff (t : SecretTable) (cfgs : List SecretConfig) :
    (reloadAllocate t cfgs).1 = t ↔ cfgs = [] ∨ t.freeSlots = 0 := by
  cases cfgs with
  | nil => exact ⟨fun _ => Or.inl rfl, fun _ => rfl⟩
  | cons cfg cfgs =>
    rw [reloadAllocate]
    rcases hslot : t.firstSlot (fun x => x.state = .free) with _ | s
    · exact ⟨fun _ => Or.inr (t.firstSlot_free.mp hslot), fun _ => rfl⟩
    · constructor
      · intro h
        have hfree : (t.slot s).state = .free := of_decide_eq_true (firstSlot_some hslot).2.2
        have hused : ((t.set s (.fresh s cfg)).slot s).state ≠ .free := by
          rw [set_slot_self]
          exact SlotState.noConfusion
        have hkept := (reloadAllocate_spec (t.set s (.fresh s cfg)) cfgs).2.2.1 s hused
        rw [← hkept] at hused
        exact absurd (congrArg (fun t => (SecretTable.slot t s).state) h ▸ hfree) hused
      · rintro (h | h)
        · cases h
        · rw [t.firstSlot_free.mpr h] at hslot
          cases hslot

/-! ### The reload as a whole -/

/-- A reload that returns -1 leaves the table as it was. -/
def ReloadAtomic (t : SecretTable) (preciseNow : ℚ) (cfgs : List SecretConfig) : Prop :=
  (tcpRpcsReloadExtSecrets t preciseNow cfgs).2 = -1 →
    (tcpRpcsReloadExtSecrets t preciseNow cfgs).1 = t

/-- **When a reload returns -1.** -/
theorem reload_rejects_iff (t : SecretTable) (preciseNow : ℚ) (cfgs : List SecretConfig) :
    (tcpRpcsReloadExtSecrets t preciseNow cfgs).2 = -1 ↔ t.Rejects cfgs := by
  obtain ⟨-, -, -, hplaced, hactive⟩ := reloadAllocate_spec
    (t.settled preciseNow (t.entries cfgs)) (t.newcomers (t.entries cfgs))
  rw [settled_freeSlots] at hplaced
  rw [settled_activeTotal] at hactive
  rw [tcpRpcsReloadExtSecrets_eq, Rejects]
  generalize reloadAllocate _ _ = r at hplaced hactive
  obtain ⟨t', placed⟩ := r
  cases placed with
  | false =>
    have hfull := mt hplaced.mpr Bool.false_ne_true
    exact ⟨fun _ => Or.inl (not_le.mp hfull), fun _ => rfl⟩
  | true =>
    have hfits := hplaced.mp rfl
    dsimp only at hactive ⊢
    rw [← hactive rfl]
    split_ifs with hmany
    · exact ⟨fun _ => Or.inr hmany, fun _ => rfl⟩
    · exact ⟨nofun, fun h => absurd h (by rintro (h | h) <;> omega)⟩

/-- **What a rejected reload leaves.** -/
theorem reload_of_rejects {t : SecretTable} (preciseNow : ℚ) {cfgs : List SecretConfig}
    (h : t.Rejects cfgs) :
    (tcpRpcsReloadExtSecrets t preciseNow cfgs).1 =
      (reloadAllocate (t.settled preciseNow (t.entries cfgs)) (t.newcomers (t.entries cfgs))).1 := by
  have hreturns := (reload_rejects_iff t preciseNow cfgs).mpr h
  rw [tcpRpcsReloadExtSecrets_eq] at hreturns ⊢
  generalize reloadAllocate _ _ = r at hreturns
  obtain ⟨t', placed⟩ := r
  cases placed with
  | false => rfl
  | true =>
    dsimp only at hreturns ⊢
    by_cases hmany : t'.activeTotal > EXT_SECRET_MAX_ACTIVE
    · rw [if_pos hmany]
    · rw [if_neg hmany] at hreturns
      exact nomatch hreturns

/-- What the passes B and C have changed pass D does not bring back. -/
theorem reload_kept_iff (t : SecretTable) (preciseNow : ℚ) (cfgs : List SecretConfig) :
    (reloadAllocate (t.settled preciseNow (t.entries cfgs)) (t.newcomers (t.entries cfgs))).1 = t ↔
      t.NothingToDo cfgs := by
  constructor
  · intro h
    have hsettled : t.settled preciseNow (t.entries cfgs) = t := by
      refine eq_of_slots (fun s => ?_) rfl rfl
      by_cases hfree : (t.slot s).state = .free
      · exact settle_of_free hfree
      · have hused : ((t.settled preciseNow (t.entries cfgs)).slot s).state ≠ .free :=
          fun hs => hfree (settle_state.mp hs)
        have hkept := (reloadAllocate_spec _ (t.newcomers (t.entries cfgs))).2.2.1 s hused
        rw [h] at hkept
        exact hkept.symm
    rw [hsettled] at h
    obtain ⟨hrefreshed, hnamed⟩ := settled_eq_iff.mp hsettled
    exact ⟨hrefreshed, hnamed, (reloadAllocate_eq_iff t _).mp h⟩
  · intro h
    rw [settled_eq_iff.mpr ⟨h.refreshed, h.named⟩]
    exact (reloadAllocate_eq_iff t _).mpr h.unplaced

/-- **A reload that returns -1 leaves the table as it was** exactly when there was nothing to do
for a configuration that does not fit. -/
theorem reloadAtomic_iff (t : SecretTable) (preciseNow : ℚ) (cfgs : List SecretConfig) :
    ReloadAtomic t preciseNow cfgs ↔ (t.Rejects cfgs → t.NothingToDo cfgs) := by
  rw [ReloadAtomic, reload_rejects_iff]
  refine forall_congr' fun hrejects => ?_
  rw [reload_of_rejects preciseNow hrejects]
  exact reload_kept_iff t preciseNow cfgs

/-- A secret without limits. -/
def sampleEntry (n : ℕ) : SecretConfig :=
  ⟨List.replicate 16 (UInt8.ofNat n), [], 0, 0, 0, 0, 0⟩

/-- A pinned secret, and one from a configuration. -/
def samplePinned : SecretTable :=
  tcpRpcsSetExtSecret (tcpRpcsPinExtSecrets (tcpRpcsSetExtSecret SecretTable.empty (sampleEntry 0)))
    (sampleEntry 1)

/-- Sixteen new secrets are one too many with the pinned one, and the secret they were to replace
drains. -/
theorem reloadAtomic_sixteen :
    ¬ ReloadAtomic samplePinned 5 ((List.range 16).map fun n => sampleEntry (n + 2)) := by
  intro h
  have hnew : (samplePinned.newcomers (samplePinned.entries
      ((List.range 16).map fun n => sampleEntry (n + 2)))).length = 16 := by decide
  have hone : samplePinned.pinned = 1 := rfl
  have hrejects : samplePinned.Rejects ((List.range 16).map fun n => sampleEntry (n + 2)) := by
    refine Or.inr ?_
    rw [hnew, hone, EXT_SECRET_MAX_ACTIVE]
    omega
  have hkept := h ((reload_rejects_iff _ 5 _).mpr hrejects)
  rw [reload_of_rejects 5 hrejects] at hkept
  have hnamed := ((reload_kept_iff _ 5 _).mp hkept).named 1 (by decide) (by decide) rfl
  exact absurd hnamed (by decide)

end Server
end Teleproto3
