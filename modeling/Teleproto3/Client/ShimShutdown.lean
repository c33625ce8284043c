/-
# Closing the local SOCKS shim

`t3_shim_close`, the accept thread and any number of tunnel threads, as processes that interleave
at their accesses to the shim and at the calls they block in.

`t3_shim_close` waits until `active_tunnels` is zero and frees the shim: the comment there says that
detached threads must have left before.  A tunnel thread raises `active_tunnels` only when its
tunnel is up, and reads the credentials and the address of the server from the shim long
before.  `shimRun_safe_iff` says that a thread which is still ahead of its count when the last load
reads zero is the only danger, and that it always is one.
-/

import Teleproto3.Client.Shim
import Teleproto3.Lib.Runs
import Teleproto3.Lib.Tally

namespace Teleproto3
namespace Client

open Lib

/-! ### The processes -/

/-- Where the accept thread stands. -/
inductive AcceptPc
  /-- `sh->stopping` -/
  | loadStopping
  /-- `sh->listen_fd`, for `poll` -/
  | pollFd
  | poll
  /-- `sh->listen_fd`, for `accept` -/
  | acceptFd
  | accept
  /-- `malloc` and `shim_thread_create` -/
  | create
  | finished
  deriving DecidableEq

/-- `accept_thread`, where the call it stands at succeeds or not. -/
def AcceptPc.next (sh : Shim) (ok : Bool) : AcceptPc → AcceptPc
  | .loadStopping => if sh.stopping then .finished else .pollFd
  | .pollFd => .poll
  | .poll => if ok then .acceptFd else .loadStopping
  | .acceptFd => .accept
  | .accept => if ok then .create else .loadStopping
  | .create => .loadStopping
  | .finished => .finished

/-- Whether the step is an access to the shim. -/
def AcceptPc.accesses : AcceptPc → Prop
  | .loadStopping | .pollFd | .acceptFd => True
  | _ => False

/-- Where `t3_shim_close` stands. -/
inductive ClosePc
  /-- `sh->stopping`, at the beginning -/
  | storeStopping
  /-- `sh->listen_fd` -/
  | closeListener
  /-- `sh->accept_thread`, until that thread is finished -/
  | join
  /-- `sh->active_tunnels`, for the `i`-th time -/
  | drain (i : ℕ)
  | sleep (i : ℕ)
  /-- `sh->active_tunnels`, for the last time -/
  | finalLoad
  | free
  | returned
  deriving DecidableEq

/-- Whether the step is an access to the shim. -/
def ClosePc.accesses : ClosePc → Prop
  | .sleep _ | .returned => False
  | _ => True

/-- The accept thread has been joined. -/
def ClosePc.Joined : ClosePc → Prop
  | .storeStopping | .closeListener | .join => False
  | _ => True

/-- The shim and its processes. -/
structure ShimSystem where
  shim : Shim
  freed : Bool
  close : ClosePc
  accept : AcceptPc
  tunnels : List TunnelPc

/-- One step of one process. -/
inductive ShimEvent
  | close
  | accept (ok : Bool)
  | tunnel (i : ℕ) (inp : TunnelInput)

namespace ShimSystem

/-- A shim that `t3_shim_open` has opened. -/
def start (sh : Shim) : ShimSystem :=
  ⟨{ sh with stopping := false, activeTunnels := 0 }, false, .storeStopping, .loadStopping, []⟩

/-- `t3_shim_close`. -/
def closeStep (s : ShimSystem) : ShimSystem :=
  match s.close with
  | .storeStopping =>
    { s with shim := { s.shim with stopping := true }, close := .closeListener }
  | .closeListener => { s with close := .join }
  | .join => if s.accept = .finished then { s with close := .drain 0 } else s
  | .drain i => { s with close := if s.shim.activeTunnels = 0 then .finalLoad else .sleep i }
  | .sleep i => { s with close := if i + 1 < 80 then .drain (i + 1) else .finalLoad }
  | .finalLoad => { s with close := if s.shim.activeTunnels ≠ 0 then .returned else .free }
  | .free => { s with freed := true, close := .returned }
  | .returned => s

/-- One step. -/
def step (s : ShimSystem) : ShimEvent → ShimSystem
  | .close => s.closeStep
  | .accept ok =>
    { s with
      accept := s.accept.next s.shim ok
      tunnels := if s.accept = .create ∧ ok then s.tunnels ++ [.greeting] else s.tunnels }
  | .tunnel i inp =>
    match s.tunnels[i]? with
    | none => s
    | some pc =>
      { s with shim := pc.effect s.shim, tunnels := s.tunnels.set i (pc.next s.shim inp) }

/-- The step is an access to the shim. -/
def Accesses (s : ShimSystem) : ShimEvent → Prop
  | .close => s.close.accesses
  | .accept _ => s.accept.accesses
  | .tunnel i _ => ∃ pc, s.tunnels[i]? = some pc ∧ pc.accesses

/-- **The step does not access a shim that has been freed.** -/
def Sound (s : ShimSystem) (e : ShimEvent) : Prop := s.Accesses e → s.freed = false

/-- The last load of `active_tunnels` reads zero: the shim is going to be freed. -/
def Decides (s : ShimSystem) (e : ShimEvent) : Prop :=
  e = .close ∧ s.close = .finalLoad ∧ s.shim.activeTunnels = 0

/-- **The step is sound, and so is everything that may follow** where the shim is going to be
freed. -/
def SafeAt (s : ShimSystem) (e : ShimEvent) : Prop :=
  s.Sound e ∧ (s.Decides e → ∀ post, Along step Sound (s.step e) post)

/-- **Where the last load reads zero, no tunnel thread is ahead of its count.** -/
def DrainSafe (s : ShimSystem) (e : ShimEvent) : Prop :=
  s.Decides e → ∀ pc ∈ s.tunnels, pc.phase ≠ .ahead

end ShimSystem

/-! ### Counting -/

/-- A tunnel thread by its phase. -/
def TunnelPc.key (pc : TunnelPc) : Option TunnelPhase := some pc.phase

theorem TunnelPc.weight_eq (pc : TunnelPc) :
    weight TunnelPc.key pc .counted = if pc.phase = .counted then 1 else 0 := by
  unfold weight TunnelPc.key
  simp only [Option.some.injEq]

/-- **A step of a tunnel thread** moves `active_tunnels` as it moves the thread's phase. -/
theorem TunnelPc.activeTunnels_next (sh : Shim) (pc : TunnelPc) (inp : TunnelInput) :
    (pc.effect sh).activeTunnels + weight TunnelPc.key pc .counted =
      sh.activeTunnels + weight TunnelPc.key (pc.next sh inp) .counted := by
  rw [weight_eq, weight_eq]
  cases hphase : pc.phase with
  | past =>
    obtain ⟨hpast, -, heffect⟩ := pc.next_past sh inp hphase
    rw [heffect, hpast]
  | counted =>
    by_cases huncount : pc = .uncount
    · rw [huncount]
      show sh.activeTunnels - 1 + 1 = sh.activeTunnels + 0
      omega
    · have hcount : pc ≠ .count := by
        rintro rfl
        exact nomatch hphase
      rw [pc.next_counted sh inp hphase huncount, effect_activeTunnels sh hcount huncount]
  | ahead =>
    by_cases hcount : pc = .count
    · rw [hcount]
      show sh.activeTunnels + 1 + 0 = sh.activeTunnels + 1
      omega
    · have huncount : pc ≠ .uncount := by
        rintro rfl
        exact nomatch hphase
      rw [if_neg (pc.next_ahead sh inp hphase hcount), effect_activeTunnels sh hcount huncount]
      rfl

namespace ShimSystem

/-! ### The invariant -/

/-- **The invariant**: `active_tunnels` counts the threads that are counted, the accept thread is
finished once it has been joined, and where the shim is freed, or going to be, no tunnel thread
will access it again. -/
structure Inv (s : ShimSystem) : Prop where
  counted : s.shim.activeTunnels = tally TunnelPc.key s.tunnels .counted
  joined : s.close.Joined → s.accept = .finished
  freed : s.freed = true → s.close = .returned
  past : s.close = .free ∨ s.freed = true → ∀ pc ∈ s.tunnels, pc.phase = .past

variable {s : ShimSystem}

theorem start_inv (sh : Shim) : (start sh).Inv :=
  ⟨rfl, False.elim, (nomatch ·), fun _ _ hpc => (nomatch hpc)⟩

/-- **Nothing accesses a freed shim** as long as the invariant holds. -/
theorem Inv.sound (h : s.Inv) (e : ShimEvent) : s.Sound e := by
  intro haccess
  cases hfreed : s.freed with
  | false => rfl
  | true =>
    have hclose := h.freed hfreed
    cases e with
    | close =>
      have hpc : s.close.accesses := haccess
      rw [hclose] at hpc
      exact hpc.elim
    | accept ok =>
      have hpc : s.accept.accesses := haccess
      rw [h.joined (by rw [hclose]; trivial)] at hpc
      exact hpc.elim
    | tunnel i inp =>
      obtain ⟨pc, hi, hpc⟩ := haccess
      have hpast := h.past (Or.inr hfreed) pc (List.mem_of_getElem? hi)
      exact absurd hpc (pc.next_past s.shim inp hpast).2.1

/-- A step of `t3_shim_close`. -/
theorem Inv.closeStep (h : s.Inv) (hsafe : s.DrainSafe .close) : s.closeStep.Inv := by
  have hlive (hclose : s.close ≠ .returned) : s.freed = false := by
    cases hfreed : s.freed with
    | false => rfl
    | true => exact absurd (h.freed hfreed) hclose
  unfold ShimSystem.closeStep
  cases hclose : s.close with
  | storeStopping =>
    have hfreed := hlive (by rw [hclose]; nofun)
    exact ⟨h.counted, False.elim, fun hf => (nomatch hf.symm.trans hfreed),
      fun hor => (hor.elim nofun fun hf => (nomatch hf.symm.trans hfreed))⟩
  | closeListener =>
    have hfreed := hlive (by rw [hclose]; nofun)
    exact ⟨h.counted, False.elim, fun hf => (nomatch hf.symm.trans hfreed),
      fun hor => (hor.elim nofun fun hf => (nomatch hf.symm.trans hfreed))⟩
  | join =>
    have hfreed := hlive (by rw [hclose]; nofun)
    dsimp only
    split_ifs with haccept
    · exact ⟨h.counted, fun _ => haccept, fun hf => (nomatch hf.symm.trans hfreed),
        fun hor => (hor.elim nofun fun hf => (nomatch hf.symm.trans hfreed))⟩
    · exact h
  | drain i =>
    have hfreed := hlive (by rw [hclose]; nofun)
    have hjoined := h.joined (by rw [hclose]; trivial)
    refine ⟨h.counted, fun _ => hjoined, fun hf => (nomatch hf.symm.trans hfreed), fun hor => ?_⟩
    rcases hor with hfree | hf
    · dsimp only at hfree
      split_ifs at hfree
    · exact nomatch hf.symm.trans hfreed
  | sleep i =>
    have hfreed := hlive (by rw [hclose]; nofun)
    have hjoined := h.joined (by rw [hclose]; trivial)
    refine ⟨h.counted, fun _ => hjoined, fun hf => (nomatch hf.symm.trans hfreed), fun hor => ?_⟩
    rcases hor with hfree | hf
    · dsimp only at hfree
      split_ifs at hfree
    · exact nomatch hf.symm.trans hfreed
  | finalLoad =>
    have hfreed := hlive (by rw [hclose]; nofun)
    have hjoined := h.joined (by rw [hclose]; trivial)
    refine ⟨h.counted, fun _ => hjoined, fun hf => (nomatch hf.symm.trans hfreed), fun hor => ?_⟩
    rcases hor with hfree | hf
    · -- Nobody is counted, and nobody is ahead.
      have hzero : s.shim.activeTunnels = 0 := by
        by_contra hne
        rw [if_pos hne] at hfree
        exact nomatch hfree
      have hnone : tally TunnelPc.key s.tunnels .counted = 0 := by
        have hcounted := h.counted
        rw [hzero] at hcounted
        exact_mod_cast hcounted.symm
      intro pc hpc
      cases hphase : pc.phase with
      | past => rfl
      | ahead => exact absurd hphase (hsafe ⟨rfl, hclose, hzero⟩ pc hpc)
      | counted =>
        have hmem : pc ∈ s.tunnels := hpc
        have hpos := tally_pos TunnelPc.key hmem (congrArg some hphase)
        omega
    · exact nomatch hf.symm.trans hfreed
  | free =>
    have hjoined := h.joined (by rw [hclose]; trivial)
    exact ⟨h.counted, fun _ => hjoined, fun _ => rfl, fun _ => h.past (Or.inl hclose)⟩
  | returned =>
    exact h

/-- A step of the accept thread. -/
theorem Inv.accept (h : s.Inv) (ok : Bool) : (s.step (.accept ok)).Inv := by
  by_cases hfinished : s.accept = .finished
  · have hsame : s.step (.accept ok) = s := by
      unfold step
      dsimp only
      rw [hfinished, if_neg (fun hand => nomatch hand.1)]
      obtain ⟨shim, freed, pc, acceptPc, tunnels⟩ := s
      cases hfinished
      rfl
    rw [hsame]
    exact h
  · have hnot : ¬ s.close.Joined := fun hj => hfinished (h.joined hj)
    refine ⟨?_, fun hj => absurd hj hnot, h.freed, fun hor => ?_⟩
    · show s.shim.activeTunnels = (tally TunnelPc.key (if s.accept = .create ∧ ok = true then
        s.tunnels ++ [.greeting] else s.tunnels) .counted : ℕ)
      split_ifs
      · rw [tally_concat, TunnelPc.weight_eq]
        exact h.counted
      · exact h.counted
    · have hjoined : s.close.Joined := by
        rcases hor with hfree | hf
        · have hclose : s.close = .free := hfree
          rw [hclose]
          trivial
        · rw [h.freed hf]
          trivial
      exact absurd hjoined hnot

/-- A step of a tunnel thread. -/
theorem Inv.tunnel (h : s.Inv) (i : ℕ) (inp : TunnelInput) : (s.step (.tunnel i inp)).Inv := by
  unfold step
  dsimp only
  cases hi : s.tunnels[i]? with
  | none => exact h
  | some pc =>
    refine ⟨?_, h.joined, h.freed, fun hor a ha => ?_⟩
    · have hset := tally_set TunnelPc.key hi (pc.next s.shim inp) .counted
      have hmoved := pc.activeTunnels_next s.shim inp
      have hcounted := h.counted
      show (pc.effect s.shim).activeTunnels =
        (tally TunnelPc.key (s.tunnels.set i (pc.next s.shim inp)) .counted : ℕ)
      omega
    · have hpast := h.past hor
      rcases List.mem_or_eq_of_mem_set ha with ha | rfl
      · exact hpast a ha
      · exact (pc.next_past s.shim inp (hpast pc (List.mem_of_getElem? hi))).1

/-- **One step** keeps the invariant, if the shim is not going to be freed under a thread that is
ahead of its count. -/
theorem Inv.step (h : s.Inv) (e : ShimEvent) (hsafe : s.DrainSafe e) : (s.step e).Inv := by
  cases e with
  | close => exact h.closeStep hsafe
  | accept ok => exact h.accept ok
  | tunnel i inp => exact h.tunnel i inp

/-! ### What may follow -/

/-- Once the shim is going to be freed, the last load is not made again. -/
theorem Inv.along_of_decided (h : s.Inv) (hclose : s.close = .free ∨ s.close = .returned)
    (post : List ShimEvent) : Along ShimSystem.step Sound s post := by
  have hnever (s : ShimSystem) (e : ShimEvent) (hs : s.close = .free ∨ s.close = .returned) :
      s.DrainSafe e := by
    rintro ⟨-, hload, -⟩
    rw [hload] at hs
    exact hs.elim nofun nofun
  have hstep (s : ShimSystem) (e : ShimEvent)
      (hs : s.Inv ∧ (s.close = .free ∨ s.close = .returned)) :
      (s.step e).Inv ∧ ((s.step e).close = .free ∨ (s.step e).close = .returned) := by
    refine ⟨hs.1.step e (hnever s e hs.2), ?_⟩
    cases e with
    | close =>
      show s.closeStep.close = .free ∨ s.closeStep.close = .returned
      unfold ShimSystem.closeStep
      rcases hs.2 with heq | heq
      · rw [heq]
        exact Or.inr rfl
      · rw [heq]
        exact Or.inr heq
    | accept ok => exact hs.2
    | tunnel i inp =>
      unfold ShimSystem.step
      dsimp only
      cases s.tunnels[i]? with
      | none => exact hs.2
      | some pc => exact hs.2
  exact along_of_throughout (fun s e hs => hs.1.sound e) (throughout_of_step hstep ⟨h, hclose⟩)

/-- **A thread that can still come to an access** comes to one after the shim has been freed. -/
theorem exists_unsound {i : ℕ} {pc : TunnelPc} (hfreed : s.freed = true)
    (hi : s.tunnels[i]? = some pc) (h : TunnelPc.Reaches s.shim pc) :
    ∃ post, ¬ Along ShimSystem.step Sound s post := by
  obtain ⟨inps, hinps⟩ := h
  induction inps generalizing s pc with
  | nil =>
    refine ⟨[.tunnel i (.call true)], fun halong => ?_⟩
    have hlive := halong.1 ⟨pc, hi, hinps⟩
    exact nomatch hlive.symm.trans hfreed
  | cons inp inps ih =>
    by_cases hpc : pc.accesses
    · refine ⟨[.tunnel i inp], fun halong => ?_⟩
      have hlive := halong.1 ⟨pc, hi, hpc⟩
      exact nomatch hlive.symm.trans hfreed
    · have hstep : s.step (.tunnel i inp) =
          { s with tunnels := s.tunnels.set i (pc.next s.shim inp) } := by
        unfold ShimSystem.step
        dsimp only
        rw [hi]
        dsimp only
        rw [TunnelPc.effect_of_not_accesses s.shim hpc]
      have hlt : i < s.tunnels.length := (List.getElem?_eq_some_iff.mp hi).1
      obtain ⟨post, hpost⟩ := ih (s := { s with tunnels := s.tunnels.set i (pc.next s.shim inp) })
        hfreed (List.getElem?_set_self hlt) hinps
      refine ⟨.tunnel i inp :: post, fun halong => hpost ?_⟩
      rw [← hstep]
      exact halong.2

/-- **One step is safe, and all that may follow it, if and only if** the last load does not read
zero while a thread is ahead of its count. -/
theorem Inv.safeAt_iff (h : s.Inv) (e : ShimEvent) : s.SafeAt e ↔ s.DrainSafe e := by
  constructor
  · rintro ⟨-, hpost⟩ hdecides pc hpc hahead
    obtain ⟨rfl, hclose, hzero⟩ := id hdecides
    obtain ⟨i, hi⟩ := List.mem_iff_getElem?.mp hpc
    have hdecided : s.step .close = { s with close := .free } := by
      show s.closeStep = _
      unfold ShimSystem.closeStep
      rw [hclose]
      dsimp only
      rw [if_neg (not_not.mpr hzero)]
    have hfreed : ({ s with close := .free } : ShimSystem).step .close =
      { s with close := .returned, freed := true } := rfl
    obtain ⟨post, hunsound⟩ := exists_unsound (s := { s with close := .returned, freed := true })
      rfl hi (TunnelPc.reaches_of_ahead s.shim hahead)
    have halong := (hpost hdecides (.close :: post)).2
    rw [hdecided, hfreed] at halong
    exact hunsound halong
  · intro hsafe
    refine ⟨h.sound e, fun hdecides post => ?_⟩
    refine (h.step e hsafe).along_of_decided ?_ post
    obtain ⟨rfl, hclose, hzero⟩ := hdecides
    refine Or.inl ?_
    show s.closeStep.close = .free
    unfold ShimSystem.closeStep
    rw [hclose]
    exact if_neg (not_not.mpr hzero)

/-! ### Every run -/

/-- **No thread accesses the freed shim, in a run or in what may follow its decision to free, if and
only if** no tunnel thread is ahead of its count when the last load reads zero. -/
theorem shimRun_safe_iff (sh : Shim) (es : List ShimEvent) :
    Along ShimSystem.step SafeAt (start sh) es ↔ Along ShimSystem.step DrainSafe (start sh) es :=
  along_congr_of_inv (fun _ e hs he => hs.step e he) (fun _ e hs => hs.safeAt_iff e) (start_inv sh)

/-- A client connects, and the shim is closed while the client's greeting is awaited. -/
def earlyClose : List ShimEvent :=
  [.accept true, .accept true, .accept true, .accept true, .accept true, .accept true,
    .close, .close, .accept true, .close, .close, .close, .close]

/-- **The thread of that client then compares its credentials with freed memory.** -/
theorem shimRun_not_safe : ¬ ∀ sh es, Along ShimSystem.step Sound (start sh) es := by
  intro hall
  let sh : Shim := ⟨[], 443, [], [], [], false, 0, 0, 0⟩
  have hgreeting : (finish ShimSystem.step (start sh) earlyClose).tunnels[0]? =
    some .greeting := rfl
  obtain ⟨post, hpost⟩ := exists_unsound rfl hgreeting (TunnelPc.reaches_of_ahead _ rfl)
  exact hpost (along_append.mp (hall sh (earlyClose ++ post))).2

end ShimSystem

end Client
end Teleproto3
