/-
# The retry tiers

`lib/src/t3_retry.c`: a session counts the connections that were closed on it, and tells from
their times in which of four tiers it is.  It keeps the times of eight closes of the last minute
in a ring, and since when it has been in the second tier.

`tierAfter` is the same rule on all closes since the user last retried, with nothing forgotten.
`Remembers` says what a ring has kept of such a history, and `Agrees` that the tier is the right
one; a close preserves both (`t3RetryRecordClose_remembers`, `t3RetryRecordClose_agrees`).

The third tier is meant to be left by the user's retry only.  The tier is computed anew at every
close, and `retryRun_sticky_iff` says when it stays.
-/

import Teleproto3.Lib.Runs
import Teleproto3.Lib.Window
import Teleproto3.Wire.Result

namespace Teleproto3
namespace Client

open Lib Wire

/-! ### The ring -/

/-- `t3_retry_state_t`. -/
inductive T3RetryState
  | ok
  | tier1
  | tier2
  | tier3
  deriving DecidableEq, Repr

/-- `NS60`: a minute. -/
def NS60 : UInt64 := 60 * 1000000000

/-- `NS30`: half of it. -/
def NS30 : UInt64 := 30 * 1000000000

/-- `NS5MIN`: five minutes. -/
def NS5MIN : UInt64 := 5 * 60 * 1000000000

/-- `t3_retry_ring_t`. -/
structure T3RetryRing where
  slots : Fin 8 → UInt64
  head : Fin 8
  count : Fin 9

namespace T3RetryRing

/-- An empty ring, all zeros. -/
def zeroed : T3RetryRing := ⟨fun _ => 0, 0, 0⟩

/-- The times in the ring, from the oldest on. -/
def oldestFirst (r : T3RetryRing) : List UInt64 :=
  (List.range r.count).map fun i => r.slots (Fin.ofNat 8 (r.head + 8 - r.count + i))

/-- `kept_buf` with the time of a close: what is older than a minute is left out, and the oldest
as well where the ring is full. -/
def keptBuf (r : T3RetryRing) (now : UInt64) : List UInt64 :=
  let kept := r.oldestFirst.filter fun t => now - t ≤ NS60
  (if kept.length = 8 then kept.drop 1 else kept) ++ [now]

theorem oldestFirst_length (r : T3RetryRing) : r.oldestFirst.length = r.count := by
  rw [oldestFirst, List.length_map, List.length_range]

theorem keptBuf_length (r : T3RetryRing) (now : UInt64) : (r.keptBuf now).length ≤ 8 := by
  have hring := r.oldestFirst_length
  have hfilter := List.length_filter_le (fun t => decide (now - t ≤ NS60)) r.oldestFirst
  have hcount := r.count.isLt
  unfold keptBuf
  dsimp only
  rw [List.length_append, List.length_singleton]
  split_ifs
  · rw [List.length_drop]
    omega
  · omega

/-- The ring with these times in its first slots. -/
def rewrite (r : T3RetryRing) (kept : List UInt64) (h : kept.length ≤ 8) : T3RetryRing where
  slots i := kept.getD i (r.slots i)
  head := Fin.ofNat 8 kept.length
  count := ⟨kept.length, by omega⟩

/-- What is written to the ring is what is read from it. -/
theorem oldestFirst_rewrite (r : T3RetryRing) (kept : List UInt64) (h : kept.length ≤ 8) :
    (r.rewrite kept h).oldestFirst = kept := by
  refine List.ext_getElem (oldestFirst_length _) fun i hi hi' => ?_
  have hplace : (kept.length % 8 + 8 - kept.length + i) % 8 = i := by omega
  simp [oldestFirst, rewrite, hplace, hi']

end T3RetryRing

/-! ### The calls -/

/-- `struct t3_session`, as far as the retry tiers need it. -/
structure RetrySession where
  ring : T3RetryRing
  state : T3RetryState
  tier2EnteredNs : UInt64
  lastCloseNs : UInt64

/-- The session `t3_session_new` returns. -/
def RetrySession.opened : RetrySession := ⟨.zeroed, .ok, 0, 0⟩

/-- The tier for so many closes within a minute and half a minute, and for whether the second
tier has lasted five minutes. -/
def tierOf (in60 in30 : ℕ) (long : Prop) [Decidable long] : T3RetryState :=
  if in30 ≥ 5 ∨ long then .tier3
  else if in60 ≥ 3 then .tier2
  else if in60 ≥ 1 then .tier1
  else .ok

/-- `t3_retry_ring_record`. -/
def t3RetryRingRecord (s : RetrySession) (now : UInt64) : RetrySession :=
  let kept := s.ring.keptBuf now
  let in30 := (kept.filter fun t => now - t ≤ NS30).length
  let state := tierOf kept.length in30
    (s.state = .tier2 ∧ s.tier2EnteredNs ≠ 0 ∧ now - s.tier2EnteredNs ≥ NS5MIN)
  { s with
    ring := s.ring.rewrite kept (s.ring.keptBuf_length now)
    state := state
    tier2EnteredNs :=
      if state ≠ .tier2 then 0 else if s.state ≠ .tier2 then now else s.tier2EnteredNs }

/-- `t3_retry_record_close`, with the tier it puts out. -/
def t3RetryRecordClose (s : RetrySession) (now : UInt64) :
    RetrySession × Except T3Result T3RetryState :=
  if s.lastCloseNs ≠ 0 ∧ now < s.lastCloseNs then (s, .error .clockBackwards)
  else
    let s := t3RetryRingRecord { s with lastCloseNs := now } now
    (s, .ok s.state)

/-- `t3_retry_user_retry`. -/
def t3RetryUserRetry (s : RetrySession) : RetrySession × T3Result :=
  if s.state ≠ .tier3 then (s, .invalidArg) else (⟨.zeroed, .ok, 0, 0⟩, .ok)

/-! ### The rule on a history -/

/-- Whether a time is at most so many nanoseconds ago. -/
def Recent (window : ℕ) (now t : UInt64) : Prop := now.toNat ≤ t.toNat + window

instance (window : ℕ) (now t : UInt64) : Decidable (Recent window now t) := by
  unfold Recent
  infer_instance

/-- How many closes of a history are recent. -/
def countWithin (window : ℕ) (now : UInt64) (closes : List UInt64) : ℕ :=
  (closes.filter fun t => Recent window now t).length

/-- **The tier after a history**, the newest close first, and since when an unbroken second tier
has lasted. -/
def tierAfter : List UInt64 → T3RetryState × Option UInt64
  | [] => (.ok, none)
  | now :: closes =>
    let since := (tierAfter closes).2
    let tier := tierOf (countWithin 60000000000 now (now :: closes))
      (countWithin 30000000000 now (now :: closes))
      (∃ t ∈ since, t.toNat + 300000000000 ≤ now.toNat)
    (tier, if tier = .tier2 then some (since.getD now) else none)

/-- A call of the library's user. -/
inductive RetryCall
  | close (now : UInt64)
  | userRetry

/-- The times of the closes among the calls. -/
def closeTimes : List RetryCall → List UInt64
  | [] => []
  | .close now :: calls => now :: closeTimes calls
  | .userRetry :: calls => closeTimes calls

/-- A session with the closes since the user last retried, the newest first, and what the last
call returned. -/
structure RetryRun where
  session : RetrySession
  closes : List UInt64
  result : Except T3Result T3RetryState

namespace RetryRun

/-- Nothing has happened. -/
def start : RetryRun := ⟨.opened, [], .ok .ok⟩

/-- The next call. -/
def step (x : RetryRun) : RetryCall → RetryRun
  | .close now =>
    match t3RetryRecordClose x.session now with
    | (s, .ok state) => ⟨s, now :: x.closes, .ok state⟩
    | (s, .error rc) => ⟨s, x.closes, .error rc⟩
  | .userRetry =>
    let (s, rc) := t3RetryUserRetry x.session
    if rc = .ok then ⟨s, [], .ok s.state⟩ else ⟨s, x.closes, .error rc⟩

end RetryRun

/-! ### What a ring remembers -/

theorem sub_le_iff_recent {now t window : UInt64} (h : t ≤ now) :
    now - t ≤ window ↔ Recent window.toNat now t := by
  rw [UInt64.le_iff_toNat_le, UInt64.toNat_sub_of_le _ _ h, Recent]
  omega

theorem Recent.mono {window : ℕ} {now now' t : UInt64} (hnow : now ≤ now')
    (h : Recent window now' t) : Recent window now t := by
  rw [UInt64.le_iff_toNat_le] at hnow
  unfold Recent at h ⊢
  omega

theorem Recent.newer {window : ℕ} {now t u : UInt64} (htu : t ≤ u) (h : Recent window now t) :
    Recent window now u := by
  rw [UInt64.le_iff_toNat_le] at htu
  unfold Recent at h ⊢
  omega

theorem Recent.self (window : ℕ) (now : UInt64) : Recent window now now := Nat.le_add_right _ _

/-- The newest close in front. -/
def NewestFirst (closes : List UInt64) : Prop := closes.Pairwise fun a b => b ≤ a

theorem NewestFirst.fading {closes : List UInt64} (h : NewestFirst closes) (window : ℕ)
    (now : UInt64) : Fading (Recent window now) closes :=
  h.imp fun htu hrecent => hrecent.newer htu

/-- The closes of the last minute, as of the last of them. -/
def lastMinute : List UInt64 → List UInt64
  | [] => []
  | now :: closes => (now :: closes).filter fun t => Recent 60000000000 now t

/-- **What a session has kept of its history**: the newest eight closes of the last minute. -/
structure Remembers (s : RetrySession) (closes : List UInt64) : Prop where
  slots : s.ring.oldestFirst.reverse = (lastMinute closes).take 8
  ordered : NewestFirst closes
  last : s.lastCloseNs = closes.headD 0

theorem remembers_opened : Remembers .opened [] := ⟨rfl, List.Pairwise.nil, rfl⟩

/-- A close that is dropped for another leaves the newest eight. -/
theorem reverse_push {kept recent : List UInt64} (h : kept.reverse = recent.take 8) (now : UInt64) :
    ((if kept.length = 8 then kept.drop 1 else kept) ++ [now]).reverse =
      (now :: recent).take 8 := by
  have hlen := congrArg List.length h
  rw [List.length_reverse, List.length_take] at hlen
  rw [List.reverse_append, List.reverse_singleton, List.singleton_append, List.take_succ_cons]
  split_ifs with hfull
  · rw [List.reverse_drop, h, hfull, List.take_take]
    rfl
  · rw [h, List.take_of_length_le (by omega), List.take_of_length_le (by omega)]

/-- What has passed out of the last minute stays out of it. -/
theorem lastMinute_filter {closes : List UInt64} {now : UInt64} (hnow : ∀ t ∈ closes, t ≤ now) :
    (lastMinute closes).filter (fun t => Recent 60000000000 now t) =
      closes.filter fun t => Recent 60000000000 now t := by
  cases closes with
  | nil => rfl
  | cons last closes =>
    exact filter_filter_of_imp fun t _ hrecent => hrecent.mono (hnow last List.mem_cons_self)

theorem lastMinute_sublist (closes : List UInt64) : (lastMinute closes).Sublist closes := by
  cases closes with
  | nil => exact List.Sublist.refl _
  | cons last closes => exact List.filter_sublist

theorem tierOf_congr {a a' b b' : ℕ} {p p' : Prop} [Decidable p] [Decidable p']
    (h5 : 5 ≤ b ↔ 5 ≤ b') (h3 : 3 ≤ a ↔ 3 ≤ a') (h1 : 1 ≤ a ↔ 1 ≤ a') (hp : p ↔ p') :
    tierOf a b p = tierOf a' b' p' := by
  simp only [tierOf, ge_iff_le, h5, h3, h1, hp]

namespace Remembers

variable {s : RetrySession} {closes : List UInt64} {now : UInt64}

/-- **A close is kept with the newest of the last minute.** -/
theorem keptBuf_reverse (h : Remembers s closes) (hnow : ∀ t ∈ closes, t ≤ now) :
    (s.ring.keptBuf now).reverse = (lastMinute (now :: closes)).take 8 := by
  have hkept : (s.ring.oldestFirst.filter fun t => now - t ≤ NS60).reverse =
      (closes.filter fun t => Recent 60000000000 now t).take 8 := by
    have hfading : Fading (Recent 60000000000 now) (lastMinute closes) :=
      (h.ordered.fading _ now).sublist (lastMinute_sublist closes)
    rw [← List.filter_reverse, h.slots, ← lastMinute_filter hnow, ← filter_take_of_fading hfading]
    refine List.filter_congr fun t ht => ?_
    have hle := hnow t ((lastMinute_sublist closes).subset (List.mem_of_mem_take ht))
    exact decide_eq_decide.mpr (sub_le_iff_recent hle)
  have hself : lastMinute (now :: closes) =
      now :: closes.filter fun t => Recent 60000000000 now t := by
    rw [lastMinute, List.filter_cons_of_pos (by simpa using Recent.self _ now)]
  rw [hself]
  exact reverse_push hkept now

/-- Eight are enough to count to three. -/
theorem keptBuf_count60 (h : Remembers s closes) (hnow : ∀ t ∈ closes, t ≤ now) {k : ℕ}
    (hk : k ≤ 8) :
    k ≤ (s.ring.keptBuf now).length ↔ k ≤ countWithin 60000000000 now (now :: closes) := by
  rw [← List.length_reverse, h.keptBuf_reverse hnow, le_length_take_iff hk]
  rfl

/-- Eight are enough to count to five. -/
theorem keptBuf_count30 (h : Remembers s closes) (hnow : ∀ t ∈ closes, t ≤ now) {k : ℕ}
    (hk : k ≤ 8) :
    k ≤ ((s.ring.keptBuf now).filter fun t => now - t ≤ NS30).length ↔
      k ≤ countWithin 30000000000 now (now :: closes) := by
  have hordered : NewestFirst (now :: closes) := List.pairwise_cons.mpr ⟨hnow, h.ordered⟩
  have hle : ∀ t ∈ now :: closes, t ≤ now := by
    intro t ht
    rcases List.mem_cons.mp ht with rfl | ht
    · exact UInt64.le_refl _
    · exact hnow t ht
  have hfading : Fading (Recent 30000000000 now) (lastMinute (now :: closes)) :=
    (hordered.fading _ now).sublist (lastMinute_sublist _)
  have hfilter : ((lastMinute (now :: closes)).take 8).filter (fun t => now - t ≤ NS30) =
      ((lastMinute (now :: closes)).take 8).filter fun t => Recent 30000000000 now t := by
    refine List.filter_congr fun t ht => ?_
    have hmem := hle t ((lastMinute_sublist _).subset (List.mem_of_mem_take ht))
    exact decide_eq_decide.mpr (sub_le_iff_recent hmem)
  have hshort : (lastMinute (now :: closes)).filter (fun t => Recent 30000000000 now t) =
      (now :: closes).filter fun t => Recent 30000000000 now t := by
    refine filter_filter_of_imp fun t _ hrecent => ?_
    unfold Recent at hrecent ⊢
    omega
  rw [← List.length_reverse, ← List.filter_reverse, h.keptBuf_reverse hnow, hfilter,
    le_length_recent_take hfading hk, hshort]
  rfl

/-- **One close.**  It is recorded, and the tier is that of the counts over the whole history. -/
theorem recordClose (h : Remembers s closes) (hnow : ∀ t ∈ closes, t ≤ now) : ∃ s',
    t3RetryRecordClose s now = (s', .ok s'.state) ∧ Remembers s' (now :: closes) ∧
      s'.state = tierOf (countWithin 60000000000 now (now :: closes))
        (countWithin 30000000000 now (now :: closes))
        (s.state = .tier2 ∧ s.tier2EnteredNs ≠ 0 ∧ now - s.tier2EnteredNs ≥ NS5MIN) ∧
      s'.tier2EnteredNs =
        if s'.state ≠ .tier2 then 0 else if s.state ≠ .tier2 then now else s.tier2EnteredNs := by
  have hforward : ¬ (s.lastCloseNs ≠ 0 ∧ now < s.lastCloseNs) := by
    rintro ⟨hne, hlt⟩
    rw [h.last] at hne hlt
    cases closes with
    | nil => exact hne rfl
    | cons last closes => exact UInt64.not_lt.mpr (hnow last List.mem_cons_self) hlt
  have hslots : (s.ring.keptBuf now).reverse = (lastMinute (now :: closes)).take 8 :=
    h.keptBuf_reverse hnow
  refine ⟨t3RetryRingRecord { s with lastCloseNs := now } now, if_neg hforward, ⟨?_, ?_, rfl⟩, ?_,
    rfl⟩
  · show (s.ring.rewrite (s.ring.keptBuf now) (s.ring.keptBuf_length now)).oldestFirst.reverse = _
    rw [T3RetryRing.oldestFirst_rewrite]
    exact hslots
  · exact List.pairwise_cons.mpr ⟨hnow, h.ordered⟩
  · exact tierOf_congr (h.keptBuf_count30 hnow (by decide)) (h.keptBuf_count60 hnow (by decide))
      (h.keptBuf_count60 hnow (by decide)) Iff.rfl

end Remembers

/-! ### The second tier's time -/

/-- The second tier has a time, and no other. -/
theorem tierAfter_since (closes : List UInt64) :
    (tierAfter closes).2.isSome = true ↔ (tierAfter closes).1 = .tier2 := by
  cases closes with
  | nil => simp [tierAfter]
  | cons now closes =>
    unfold tierAfter
    dsimp only
    split_ifs with htier
    · exact ⟨fun _ => htier, fun _ => rfl⟩
    · exact ⟨fun h => (nomatch h), fun h => absurd h htier⟩

/-- The second tier was entered at a close. -/
theorem tierAfter_since_mem {closes : List UInt64} {t : UInt64} (h : t ∈ (tierAfter closes).2) :
    t ∈ closes := by
  induction closes with
  | nil => exact nomatch h
  | cons now closes ih =>
    simp only [tierAfter] at h
    split_ifs at h with htier
    · cases hsince : (tierAfter closes).2 with
      | none =>
        rw [hsince] at h
        exact List.mem_cons.mpr (Or.inl (Option.some.inj h).symm)
      | some u =>
        rw [hsince] at h
        exact List.mem_cons_of_mem now (ih (by rw [hsince]; exact h))
    · exact nomatch h

/-- **The tier of a session is that of its whole history**, and so is the time at which it came
to the second tier. -/
structure Agrees (s : RetrySession) (closes : List UInt64) : Prop where
  state : s.state = (tierAfter closes).1
  entered : s.tier2EnteredNs = (tierAfter closes).2.getD 0

/-- The second tier has lasted as long as the history says. -/
theorem Agrees.long_iff {s : RetrySession} {closes : List UInt64} {now : UInt64}
    (h : Agrees s closes) (hpos : ∀ t ∈ closes, t ≠ 0) (hnow : ∀ t ∈ closes, t ≤ now) :
    (s.state = .tier2 ∧ s.tier2EnteredNs ≠ 0 ∧ now - s.tier2EnteredNs ≥ NS5MIN) ↔
      ∃ t ∈ (tierAfter closes).2, t.toNat + 300000000000 ≤ now.toNat := by
  have hsince := tierAfter_since closes
  rw [h.state, h.entered]
  cases hentered : (tierAfter closes).2 with
  | none =>
    rw [hentered] at hsince
    simp [← hsince]
  | some t =>
    rw [hentered] at hsince
    have hmem : t ∈ closes := tierAfter_since_mem hentered
    have hle := hnow t hmem
    have hsub := UInt64.toNat_sub_of_le now t hle
    rw [UInt64.le_iff_toNat_le] at hle
    have hmin : NS5MIN.toNat = 300000000000 := rfl
    simp only [hsince.mp rfl, Option.getD_some, ne_eq, hpos t hmem, not_false_eq_true, true_and,
      Option.mem_def, Option.some.injEq, exists_eq_left', ge_iff_le, UInt64.le_iff_toNat_le, hsub,
      hmin]
    omega

theorem agrees_opened : Agrees .opened [] := ⟨rfl, rfl⟩

/-- **One close keeps the agreement.** -/
theorem Agrees.recordClose {s s' : RetrySession} {closes : List UInt64} {now : UInt64}
    (h : Agrees s closes) (hpos : ∀ t ∈ closes, t ≠ 0) (hnow : ∀ t ∈ closes, t ≤ now)
    (hstate : s'.state = tierOf (countWithin 60000000000 now (now :: closes))
      (countWithin 30000000000 now (now :: closes))
      (s.state = .tier2 ∧ s.tier2EnteredNs ≠ 0 ∧ now - s.tier2EnteredNs ≥ NS5MIN))
    (hentered : s'.tier2EnteredNs =
      if s'.state ≠ .tier2 then 0 else if s.state ≠ .tier2 then now else s.tier2EnteredNs) :
    Agrees s' (now :: closes) := by
  have htier : s'.state = (tierAfter (now :: closes)).1 := by
    rw [hstate]
    exact tierOf_congr Iff.rfl Iff.rfl Iff.rfl (h.long_iff hpos hnow)
  refine ⟨htier, ?_⟩
  have hsince : (tierAfter (now :: closes)).2 =
      if (tierAfter (now :: closes)).1 = .tier2 then some ((tierAfter closes).2.getD now)
        else none := rfl
  rw [hentered, htier, hsince, h.state, h.entered]
  by_cases h2 : (tierAfter (now :: closes)).1 = .tier2
  · rw [if_neg (not_not.mpr h2), if_pos h2]
    have hprev := tierAfter_since closes
    cases hlast : (tierAfter closes).2 with
    | none =>
      rw [hlast] at hprev
      rw [if_pos fun hin => nomatch hprev.mpr hin]
      rfl
    | some t =>
      rw [hlast] at hprev
      rw [if_neg (not_not.mpr (hprev.mp rfl))]
      rfl
  · rw [if_pos h2, if_neg h2]
    rfl

/-! ### Runs -/

namespace RetryRun

/-- The next close is no earlier than those that are remembered. -/
def InOrder (x : RetryRun) : RetryCall → Prop
  | .close now => ∀ t ∈ x.closes, t ≤ now
  | .userRetry => True

theorem step_close_of_ok {x : RetryRun} {now : UInt64} {s : RetrySession} {state : T3RetryState}
    (h : t3RetryRecordClose x.session now = (s, .ok state)) :
    x.step (.close now) = ⟨s, now :: x.closes, .ok state⟩ := by
  simp only [step, h]

theorem step_close_of_error {x : RetryRun} {now : UInt64} {s : RetrySession} {rc : T3Result}
    (h : t3RetryRecordClose x.session now = (s, .error rc)) :
    x.step (.close now) = ⟨s, x.closes, .error rc⟩ := by
  simp only [step, h]

/-- The user's retry ends the third tier, and is refused elsewhere. -/
theorem step_userRetry (x : RetryRun) :
    x.session.state = .tier3 ∧ x.step .userRetry = ⟨.opened, [], .ok .ok⟩ ∨
      x.session.state ≠ .tier3 ∧ x.step .userRetry = ⟨x.session, x.closes, .error .invalidArg⟩ := by
  by_cases h3 : x.session.state = .tier3
  · refine Or.inl ⟨h3, ?_⟩
    simp [step, t3RetryUserRetry, h3, RetrySession.opened]
  · refine Or.inr ⟨h3, ?_⟩
    simp [step, t3RetryUserRetry, h3]

theorem mem_step_closes {x : RetryRun} {e : RetryCall} {t : UInt64}
    (h : t ∈ (x.step e).closes) : t ∈ x.closes ∨ e = .close t := by
  cases e with
  | close now =>
    rcases hcall : t3RetryRecordClose x.session now with ⟨s, rc | state⟩
    · rw [step_close_of_error hcall] at h
      exact Or.inl h
    · rw [step_close_of_ok hcall] at h
      rcases List.mem_cons.mp h with rfl | h
      · exact Or.inr rfl
      · exact Or.inl h
  | userRetry =>
    rcases x.step_userRetry with ⟨-, heq⟩ | ⟨-, heq⟩
    · rw [heq] at h
      exact nomatch h
    · rw [heq] at h
      exact Or.inl h

/-- Closes at times that never go back are in order. -/
theorem along_inOrder {calls : List RetryCall} {x : RetryRun}
    (htimes : (closeTimes calls).Pairwise (· ≤ ·))
    (hx : ∀ t ∈ x.closes, ∀ u ∈ closeTimes calls, t ≤ u) : Along step InOrder x calls := by
  induction calls generalizing x with
  | nil => trivial
  | cons e calls ih =>
    cases e with
    | close now =>
      obtain ⟨hlater, htimes⟩ := List.pairwise_cons.mp htimes
      refine ⟨fun t ht => hx t ht now List.mem_cons_self, ih htimes fun t ht u hu => ?_⟩
      rcases mem_step_closes ht with ht | heq
      · exact hx t ht u (List.mem_cons_of_mem now hu)
      · obtain rfl := RetryCall.close.inj heq
        exact hlater u hu
    | userRetry =>
      refine ⟨trivial, ih htimes fun t ht u hu => ?_⟩
      rcases mem_step_closes ht with ht | heq
      · exact hx t ht u hu
      · exact nomatch heq

/-- The session remembers its history. -/
def Sound (x : RetryRun) : Prop := Remembers x.session x.closes

/-- **One call.** -/
theorem Sound.step {x : RetryRun} (h : x.Sound) {e : RetryCall} (he : x.InOrder e) :
    (x.step e).Sound := by
  cases e with
  | close now =>
    obtain ⟨s', hclose, hs', -, -⟩ := Remembers.recordClose h he
    rw [step_close_of_ok hclose]
    exact hs'
  | userRetry =>
    rcases x.step_userRetry with ⟨-, heq⟩ | ⟨-, heq⟩
    · rw [heq]
      exact remembers_opened
    · rw [heq]
      exact h

/-- A tier that is right, after the last call and before the next. -/
structure Exact (x : RetryRun) : Prop where
  sound : x.Sound
  agrees : Agrees x.session x.closes
  later : ∀ t ∈ x.closes, t ≠ 0
  result : x.result = .ok x.session.state ∨ x.result = .error .invalidArg

/-- The next close comes after the start of the clock. -/
def Later (x : RetryRun) (e : RetryCall) : Prop := x.InOrder e ∧ e ≠ .close 0

/-- **One call.** -/
theorem Exact.step {x : RetryRun} (h : x.Exact) {e : RetryCall} (he : x.Later e) :
    (x.step e).Exact := by
  have hsound : (x.step e).Sound := h.sound.step he.1
  cases e with
  | close now =>
    obtain ⟨s', hclose, -, hstate, hentered⟩ := Remembers.recordClose h.sound he.1
    rw [step_close_of_ok hclose] at hsound ⊢
    refine ⟨hsound, h.agrees.recordClose h.later he.1 hstate hentered, fun t ht => ?_, Or.inl rfl⟩
    rcases List.mem_cons.mp ht with rfl | ht
    · exact fun h0 => he.2 (by rw [h0])
    · exact h.later t ht
  | userRetry =>
    rcases x.step_userRetry with ⟨-, heq⟩ | ⟨-, heq⟩
    · rw [heq] at hsound ⊢
      exact ⟨hsound, agrees_opened, fun t ht => (nomatch ht), Or.inl rfl⟩
    · rw [heq] at hsound ⊢
      exact ⟨hsound, h.agrees, h.later, Or.inr rfl⟩

end RetryRun

namespace RetryRun

/-- **The third tier stays** at this call, unless it is the user's retry. -/
def StaysInTier3 (x : RetryRun) : RetryCall → Prop
  | .close now => x.session.state = .tier3 → (x.step (.close now)).session.state = .tier3
  | .userRetry => True

/-- A close in the third tier comes within half a minute of four others. -/
def CloseToFour (x : RetryRun) : RetryCall → Prop
  | .close now => x.session.state = .tier3 → 4 ≤ countWithin 30000000000 now x.closes
  | .userRetry => True

/-- A call keeps the third tier exactly when it is close to four others. -/
theorem staysInTier3_iff {x : RetryRun} (h : x.Sound) {e : RetryCall} (he : x.InOrder e) :
    x.StaysInTier3 e ↔ x.CloseToFour e := by
  cases e with
  | close now =>
    obtain ⟨s', hclose, -, hstate, -⟩ := Remembers.recordClose h he
    refine imp_congr_right fun h3 => ?_
    have hcount : countWithin 30000000000 now (now :: x.closes) =
        countWithin 30000000000 now x.closes + 1 := by
      rw [countWithin, List.filter_cons_of_pos (by simpa using Recent.self _ now)]
      rfl
    rw [step_close_of_ok hclose]
    dsimp only
    rw [hstate, hcount]
    have hlong : ¬ (x.session.state = .tier2 ∧ x.session.tier2EnteredNs ≠ 0 ∧
        now - x.session.tier2EnteredNs ≥ NS5MIN) := fun hlong => nomatch h3.symm.trans hlong.1
    unfold tierOf
    split_ifs with h5 h60 h1
    · exact ⟨fun _ => by rcases h5 with h5 | h5; omega; exact absurd h5 hlong, fun _ => rfl⟩
    all_goals exact ⟨fun h => (nomatch h), fun h4 => absurd (Or.inl (by omega)) h5⟩
  | userRetry => exact Iff.rfl

end RetryRun

/-- **The third tier is sticky exactly while closes come close together.**  It stays until the
user retries in exactly the runs in which every close in it comes within half a minute of four
others. -/
theorem retryRun_sticky_iff (calls : List RetryCall)
    (htimes : (closeTimes calls).Pairwise (· ≤ ·)) :
    Along RetryRun.step RetryRun.StaysInTier3 .start calls ↔
      Along RetryRun.step RetryRun.CloseToFour .start calls := by
  have horder := RetryRun.along_inOrder (x := .start) htimes fun t ht => nomatch ht
  have hstep (x : RetryRun) (e : RetryCall) (hx : x.Sound) (he : x.InOrder e) :
      (x.step e).Sound := hx.step he
  have hiff (x : RetryRun) (e : RetryCall) (hx : x.Sound) (he : x.InOrder e) :
      x.StaysInTier3 e ↔ x.CloseToFour e := RetryRun.staysInTier3_iff hx he
  exact along_congr hstep hiff remembers_opened horder

/-- Five closes within half a minute, and two more right behind them. -/
theorem retryRun_sticky_iff_seven :
    Along RetryRun.step RetryRun.StaysInTier3 .start
        [.close 1, .close 2, .close 3, .close 4, .close 5, .close 6, .close 7] ↔
      Along RetryRun.step RetryRun.CloseToFour .start
        [.close 1, .close 2, .close 3, .close 4, .close 5, .close 6, .close 7] :=
  retryRun_sticky_iff _ (by decide)

/-- **The third tier is left by a close.**  Five closes come within a second, and the sixth two
minutes later. -/
theorem retryRun_not_sticky :
    ¬ ∀ calls, (closeTimes calls).Pairwise (· ≤ ·) →
      Along RetryRun.step RetryRun.StaysInTier3 .start calls := by
  intro hall
  have hrun := hall [.close 1, .close 2, .close 3, .close 4, .close 5, .close 120000000005]
    (by decide)
  obtain ⟨-, -, -, -, -, hlast, -⟩ := hrun
  have hleft := hlast (by decide +kernel)
  exact absurd hleft (by decide +kernel)

end Client
end Teleproto3
