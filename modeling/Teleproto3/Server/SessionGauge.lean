/-
# The gauge of Type3 sessions

`t3_stat_connections_active`, "Type3 sessions currently open".  `type3_dispatch_on_crypto_init`
raises it where a Session Header parses, before it looks at the command: the command of the bench
handler is dropped all the same.  The hook runs again in every call of `parse_execute` until there
is a cipher, and nothing lowers the gauge when a connection is closed.

`sessionGauge_exact_iff` says which steps it is right through, for every order of connecting, hooks
and closes, whatever the connections do between.
-/

import Teleproto3.Lib.Runs
import Teleproto3.Lib.Tally
import Teleproto3.Server.Dispatch

namespace Teleproto3
namespace Server

open Lib Wire

variable {W : Type*}

/-! ### The hook and its gauge -/

/-- `type3_dispatch_on_crypto_init`, with what it makes of `t3_stat_connections_active`. -/
def type3DispatchGauged (env : DispatchEnv W) (active : ℤ) (c : Conn W) :
    ℤ × Conn W × Type3DispatchOutcome :=
  if env.ksState c.world ≠ .idle then (active, type3Drop env c, .dropSilent)
  else if c.inp.length < 4 then (active, c, .passthrough)
  else
    match t3HeaderParse (c.inp.take 4) with
    | .error _ => (active, type3Drop env (c.record (.sessionHeader (c.inp.take 4))), .dropSilent)
    | .ok hdr =>
      -- The gauge is raised before the command is looked at.
      (active + 1, (c.record (.sessionHeader (c.inp.take 4))).skipData 4,
        if hdr.commandType = T3_CMD_BENCH then .dropSilent else .accept)

/-- A header that is there to be taken. -/
def FindsHeader (env : DispatchEnv W) (c : Conn W) (cmd : UInt8) : Prop :=
  env.ksState c.world = .idle ∧ 4 ≤ c.inp.length ∧ t3HeaderParse (c.inp.take 4) = .ok ⟨cmd, 1, 0⟩

/-- **What the hook does to the gauge.**  It is raised where a session is accepted, and where the
command of the bench handler is dropped. -/
theorem type3DispatchGauged_cases (env : DispatchEnv W) (active : ℤ) (c : Conn W) :
    (FindsHeader env c T3_CMD_MTPROTO_PASSTHROUGH ∧
        (type3DispatchGauged env active c).1 = active + 1 ∧
        (type3DispatchGauged env active c).2.2 = .accept) ∨
      (FindsHeader env c T3_CMD_BENCH ∧ (type3DispatchGauged env active c).1 = active + 1 ∧
        (type3DispatchGauged env active c).2.2 ≠ .accept) ∨
      ((∀ cmd, ¬ FindsHeader env c cmd) ∧ (type3DispatchGauged env active c).1 = active ∧
        (type3DispatchGauged env active c).2.2 ≠ .accept) := by
  unfold type3DispatchGauged
  by_cases hks : env.ksState c.world ≠ .idle
  · rw [if_pos hks]
    exact .inr (.inr ⟨fun cmd h => hks h.1, rfl, Type3DispatchOutcome.noConfusion⟩)
  rw [if_neg hks]
  by_cases hlen : c.inp.length < 4
  · rw [if_pos hlen]
    exact .inr (.inr ⟨fun cmd h => absurd h.2.1 (not_le.mpr hlen), rfl,
      Type3DispatchOutcome.noConfusion⟩)
  rw [if_neg hlen]
  cases hparse : t3HeaderParse (c.inp.take 4) with
  | error r =>
    refine .inr (.inr ⟨fun cmd h => ?_, rfl, Type3DispatchOutcome.noConfusion⟩)
    cases hparse.symm.trans h.2.2
  | ok hdr =>
    obtain ⟨hknown, -, -, -, rfl⟩ := (t3HeaderParse_ok_iff _ _).mp hparse
    rcases hknown with hcmd | hcmd
    · rw [hcmd] at hparse ⊢
      exact .inl ⟨⟨not_not.mp hks, not_lt.mp hlen, hparse⟩, rfl, rfl⟩
    · rw [hcmd] at hparse ⊢
      exact .inr (.inl ⟨⟨not_not.mp hks, not_lt.mp hlen, hparse⟩, rfl,
        Type3DispatchOutcome.noConfusion⟩)

theorem FindsHeader.unique {env : DispatchEnv W} {c : Conn W} {cmd cmd' : UInt8}
    (h : FindsHeader env c cmd) (h' : FindsHeader env c cmd') : cmd = cmd' := by
  cases h.2.2.symm.trans h'.2.2
  rfl

/-! ### Runs -/

/-- A connection, and whether a Session Header of its has been accepted. -/
structure Type3Session (W : Type*) where
  conn : Conn W
  accepted : Bool

/-- The connections that are live, and the gauge. -/
structure Type3Table (W : Type*) where
  active : ℤ
  live : List (Type3Session W)

/-- A server without connections. -/
def Type3Table.start : Type3Table W := ⟨0, []⟩

/-- What happens to the connections. -/
inductive Type3Event (W : Type*)
  | connect (c : Conn W)
  /-- reading, and the rest of `parse_execute`, change what they change -/
  | change (i : ℕ) (d : Conn W)
  /-- a call of `parse_execute` comes to the dispatch hook -/
  | hook (i : ℕ)
  /-- `cpu_server_close_connection`, which has no Type3 counter -/
  | close (i : ℕ)

/-- One event. -/
def type3Step (env : DispatchEnv W) (s : Type3Table W) : Type3Event W → Type3Table W
  | .connect c => { s with live := s.live ++ [⟨c, false⟩] }
  | .change i d =>
    match s.live[i]? with
    | none => s
    | some x => { s with live := s.live.set i { x with conn := d } }
  | .hook i =>
    match s.live[i]? with
    | none => s
    | some x =>
      let r := type3DispatchGauged env s.active x.conn
      ⟨r.1, s.live.set i ⟨r.2.1, x.accepted || decide (r.2.2 = .accept)⟩⟩
  | .close i => { s with live := s.live.eraseIdx i }

/-- An accepted session counts. -/
def Type3Session.counts (x : Type3Session W) : Option Unit :=
  if x.accepted = true then some () else none

/-- **The gauge is exact**: it is the number of live connections whose Session Header has been
accepted. -/
def Type3Exact (s : Type3Table W) : Prop := s.active = tally Type3Session.counts s.live ()

/-- **The gauge keeps up with this event**: the hook finds no bench command and no second header,
and a connection that is closed has not been accepted. -/
def Type3Kept (env : DispatchEnv W) (s : Type3Table W) : Type3Event W → Prop
  | .hook i => ∀ x, s.live[i]? = some x → ∀ cmd, FindsHeader env x.conn cmd →
      cmd ≠ T3_CMD_BENCH ∧ x.accepted = false
  | .close i => ∀ x, s.live[i]? = some x → x.accepted = false
  | _ => True

theorem weight_counts (x : Type3Session W) :
    weight Type3Session.counts x () = if x.accepted = true then 1 else 0 := by
  unfold weight Type3Session.counts
  cases x.accepted <;> rfl

/-- A connection takes the place of another. -/
theorem tally_counts_set {l : List (Type3Session W)} {i : ℕ} {x : Type3Session W}
    (hi : l[i]? = some x) (y : Type3Session W) :
    (tally Type3Session.counts (l.set i y) () : ℤ) + (if x.accepted = true then 1 else 0) =
      tally Type3Session.counts l () + if y.accepted = true then 1 else 0 := by
  have hset := tally_set Type3Session.counts hi y ()
  rw [weight_counts, weight_counts] at hset
  exact_mod_cast hset

/-- **A hook** keeps the gauge exact where it finds no header, or the first one, of a session. -/
theorem type3Step_hook_iff (env : DispatchEnv W) {s : Type3Table W} (h : Type3Exact s) (i : ℕ) :
    Type3Exact (type3Step env s (.hook i)) ↔ Type3Kept env s (.hook i) := by
  cases hi : s.live[i]? with
  | none =>
    have hsame : type3Step env s (.hook i) = s := by simp only [type3Step, hi]
    rw [hsame]
    refine iff_of_true h fun x hx => ?_
    cases hi.symm.trans hx
  | some x =>
    have hkept : Type3Kept env s (.hook i) ↔
        ∀ cmd, FindsHeader env x.conn cmd → cmd ≠ T3_CMD_BENCH ∧ x.accepted = false := by
      constructor
      · intro hall
        exact hall x hi
      · intro hx y hy
        cases hi.symm.trans hy
        exact hx
    have hactive : s.active = tally Type3Session.counts s.live () := h
    have hgauged := type3DispatchGauged_cases env s.active x.conn
    rw [hkept]
    simp only [type3Step, hi]
    generalize type3DispatchGauged env s.active x.conn = r at hgauged
    have hset := tally_counts_set hi ⟨r.2.1, x.accepted || decide (r.2.2 = .accept)⟩
    unfold Type3Exact
    dsimp only at hset ⊢
    rcases hgauged with ⟨hfinds, hgauge, hout⟩ | ⟨hfinds, hgauge, hout⟩ | ⟨hnone, hgauge, hout⟩
    · rw [hout] at hset ⊢
      simp only [decide_true, Bool.or_true, if_true] at hset ⊢
      constructor
      · intro hexact cmd hcmd
        obtain rfl := hcmd.unique hfinds
        refine ⟨by decide, Bool.eq_false_of_not_eq_true fun hacc => ?_⟩
        rw [if_pos hacc] at hset
        omega
      · intro hall
        rw [(hall _ hfinds).2, if_neg Bool.false_ne_true] at hset
        omega
    · rw [decide_eq_false hout, Bool.or_false] at hset ⊢
      constructor
      · intro hexact
        omega
      · intro hall
        exact absurd rfl (hall _ hfinds).1
    · rw [decide_eq_false hout, Bool.or_false] at hset ⊢
      constructor
      · intro _ cmd hcmd
        exact absurd hcmd (hnone cmd)
      · intro _
        omega

/-- **A close** keeps the gauge exact where the connection has not been accepted. -/
theorem type3Step_close_iff (env : DispatchEnv W) {s : Type3Table W} (h : Type3Exact s) (i : ℕ) :
    Type3Exact (type3Step env s (.close i)) ↔ Type3Kept env s (.close i) := by
  have hactive : s.active = tally Type3Session.counts s.live () := h
  show s.active = tally Type3Session.counts (s.live.eraseIdx i) () ↔ _
  cases hi : s.live[i]? with
  | none =>
    rw [List.eraseIdx_of_length_le (List.getElem?_eq_none_iff.mp hi)]
    refine iff_of_true hactive fun x hx => ?_
    cases hi.symm.trans hx
  | some x =>
    have herase := tally_eraseIdx Type3Session.counts hi ()
    rw [weight_counts] at herase
    constructor
    · intro hexact y hy
      cases hi.symm.trans hy
      refine Bool.eq_false_of_not_eq_true fun hacc => ?_
      rw [if_pos hacc] at herase
      omega
    · intro hall
      rw [hall x hi, if_neg Bool.false_ne_true] at herase
      omega

/-- **One event.** -/
theorem type3Step_exact_iff (env : DispatchEnv W) {s : Type3Table W} (h : Type3Exact s)
    (e : Type3Event W) : Type3Exact (type3Step env s e) ↔ Type3Kept env s e := by
  have hactive : s.active = tally Type3Session.counts s.live () := h
  cases e with
  | connect c =>
    refine iff_of_true ?_ trivial
    have hnew := tally_concat Type3Session.counts s.live ⟨c, false⟩ ()
    rw [weight_counts, if_neg Bool.false_ne_true] at hnew
    show s.active = tally Type3Session.counts (s.live ++ [⟨c, false⟩]) ()
    omega
  | change i d =>
    refine iff_of_true ?_ trivial
    cases hi : s.live[i]? with
    | none =>
      simp only [type3Step, hi]
      exact h
    | some x =>
      have hset := tally_counts_set hi { x with conn := d }
      dsimp only at hset
      simp only [type3Step, hi]
      show s.active = tally Type3Session.counts (s.live.set i { x with conn := d }) ()
      omega
  | hook i => exact type3Step_hook_iff env h i
  | close i => exact type3Step_close_iff env h i

/-- **The gauge of Type3 sessions is exact in every state of a run exactly where no step of it is
one of three**: the hook drops a bench command, it accepts a second header of one connection, or an
accepted connection is closed. -/
theorem sessionGauge_exact_iff (env : DispatchEnv W) (es : List (Type3Event W)) :
    Throughout (type3Step env) Type3Exact .start es ↔
      Along (type3Step env) (Type3Kept env) .start es :=
  throughout_iff_along (I := fun _ => True) (R := fun _ _ => True) (fun _ _ _ _ => trivial)
    (fun _ e _ _ hs => type3Step_exact_iff env hs e) trivial rfl
    (along_of_forall (fun _ _ => trivial) _ _)

/-- A hook whose kill switch is idle. -/
def sampleHook : DispatchEnv Unit := ⟨fun _ => .idle, fun w => (0, w), fun _ => 0⟩

/-- A connection that has brought a Session Header. -/
def sampleSessionHeader : Conn Unit :=
  { Conn.allocated ⟨0x01020304, [], 0, false⟩ 443 () with
    inp := [0x01, 0x01, 0x00, 0x00], wsState := .active }

/-- A session that has been accepted and closed is still in the gauge. -/
theorem sessionGauge_closed :
    ¬ Throughout (type3Step sampleHook) Type3Exact .start
      [.connect sampleSessionHeader, .hook 0, .close 0] := by
  rintro ⟨-, -, -, hclosed⟩
  have hgauge : (1 : ℤ) = 0 := hclosed
  exact absurd hgauge (by decide)

end Server
end Teleproto3
