/-
# The dispatch hook of a bench build

`bench-session.c` and the hook of `tcp_rpcs_compact_parse_execute` in a build with
`TELEPROTO3_BENCH`.  Two tables of 64 entries go by the descriptor and the generation of a
connection: one holds the sessions of the bench handler, the other marks the connections that
`type3_dispatch_on_crypto_init` has sent to it.  A mark outlives its session, so that the guard can
close a connection whose session is gone instead of having its bytes dispatched again.

`benchTurn` is a turn of the parser with all of it, and says with `BenchWay` which way the turn
went.  `benchTurn_others` and `benchTurn_own` say what a turn makes of the tables.
-/

import Teleproto3.Lib.FirstMatch
import Teleproto3.Server.BenchEcho
import Teleproto3.Server.SessionGauge

namespace Teleproto3
namespace Server

open Lib Wire

/-! ### The registries -/

/-- `BENCH_MAX_SESSIONS`. -/
def BENCH_MAX_SESSIONS : ℕ := 64

/-- `BENCH_SLOT_IDLE_SEC`. -/
def BENCH_SLOT_IDLE_SEC : ℤ := 300

/-- `fd` and `generation`, as a connection has them and as `bench_mark_t` does. -/
structure ConnHandle where
  fd : ℤ
  generation : ℤ
  deriving DecidableEq, Repr

/-- What an entry that is not in use has in place of a handle. -/
def ConnHandle.zero : ConnHandle := ⟨0, 0⟩

/-- `bench_slot_t`. -/
structure BenchSlot where
  handle : ConnHandle
  conn : Option BenchConn
  lastActivityTs : ℤ
  deriving DecidableEq, Repr

/-- A slot that is not in use. -/
def BenchSlot.free : BenchSlot := ⟨.zero, none, 0⟩

/-- `bench_slot_match`. -/
def BenchSlot.Matches (s : BenchSlot) (h : ConnHandle) : Prop := s.conn ≠ none ∧ s.handle = h

instance BenchSlot.decidableMatches (s : BenchSlot) (h : ConnHandle) :
    Decidable (s.Matches h) :=
  inferInstanceAs (Decidable (_ ∧ _))

/-- A session that has been idle for too long. -/
def BenchSlot.Stale (s : BenchSlot) (now : ℤ) : Prop :=
  s.conn ≠ none ∧ BENCH_SLOT_IDLE_SEC < now - s.lastActivityTs

instance BenchSlot.decidableStale (s : BenchSlot) (now : ℤ) : Decidable (s.Stale now) :=
  inferInstanceAs (Decidable (_ ∧ _))

/-- `g_bench_handler_enabled`, the counters, `g_bench_slots` and `g_bench_marks`. -/
structure BenchRegistry where
  enabled : Bool
  stats : BenchStats
  slots : List BenchSlot
  marks : List ConnHandle
  deriving DecidableEq, Repr

/-- The registries of a server that has just started. -/
def BenchRegistry.start (enabled : Bool) : BenchRegistry :=
  ⟨enabled, ⟨0, 0, 0⟩, List.replicate BENCH_MAX_SESSIONS .free,
    List.replicate BENCH_MAX_SESSIONS .zero⟩

/-- `bench_reap_stale_slots`. -/
def benchReapStaleSlots (now : ℤ) (slots : List BenchSlot) : List BenchSlot :=
  slots.map fun s => if s.Stale now then .free else s

/-- `bench_session_lookup`. -/
def benchSessionLookup (slots : List BenchSlot) (h : ConnHandle) : Option BenchSlot :=
  slots.find? fun s => s.Matches h

/-- The slot of a session is made into another. -/
def benchSessionPut (slots : List BenchSlot) (h : ConnHandle) (f : BenchSlot → BenchSlot) :
    List BenchSlot :=
  slots.replaceF fun s => if s.Matches h then some (f s) else none

/-- `bench_session_destroy`. -/
def benchSessionDestroy (slots : List BenchSlot) (h : ConnHandle) : List BenchSlot :=
  benchSessionPut slots h fun _ => .free

/-- `bench_connection_mark`. -/
def benchConnectionMark (marks : List ConnHandle) (h : ConnHandle) : List ConnHandle :=
  if h ∈ marks then marks else marks.replaceF fun m => if m.fd = 0 then some h else none

/-- `bench_connection_clear`. -/
def benchConnectionClear (marks : List ConnHandle) (h : ConnHandle) : List ConnHandle :=
  marks.replaceF fun m => if m = h then some .zero else none

/-- What the bench build takes from its surroundings. -/
structure BenchServerEnv (W : Type*) extends ExtServerEnv W, BenchEnv W where
  /-- whether `calloc` has the memory for a session -/
  calloc : W → Bool × W

variable {W : Type*} (env : BenchServerEnv W)

/-- `bench_session_install`, with whether it returns a session. -/
def benchSessionInstall (now : ℤ) (g : BenchRegistry) (h : ConnHandle) (world : W) :
    Bool × BenchRegistry × W :=
  if g.enabled = false then (false, g, world)
  else
    let slots := benchReapStaleSlots now g.slots
    match benchSessionLookup slots h with
    | some _ =>
      let touch (s : BenchSlot) : BenchSlot := { s with lastActivityTs := now }
      (true, { g with slots := benchSessionPut slots h touch }, world)
    | none =>
      if slots.all fun s => s.conn.isSome then (false, { g with slots := slots }, world)
      else
        match env.calloc world with
        | (false, world) => (false, { g with slots := slots }, world)
        | (true, world) =>
          let slot : BenchSlot := ⟨h, some BenchConn.init, now⟩
          (true, { g with
            slots := slots.replaceF fun s => if s.conn = none then some slot else none }, world)

/-! ### Connections -/

/-- A connection of a bench build.  `dispatched` is not in the source: it records that the
connection has been dispatched as BENCH. -/
structure BenchPeer (W : Type*) where
  handle : ConnHandle
  conn : Conn W
  /-- what has gone from `c->out` to the socket -/
  sent : Bytes
  dispatched : Bool

/-- The connection as something leaves it. -/
def BenchPeer.withConn (k : BenchPeer W) (c : Conn W) : BenchPeer W := { k with conn := c }

@[simp] theorem BenchPeer.withConn_conn (k : BenchPeer W) (c : Conn W) :
    (k.withConn c).conn = c := rfl

@[simp] theorem BenchPeer.withConn_handle (k : BenchPeer W) (c : Conn W) :
    (k.withConn c).handle = k.handle := rfl

@[simp] theorem BenchPeer.withConn_dispatched (k : BenchPeer W) (c : Conn W) :
    (k.withConn c).dispatched = k.dispatched := rfl

/-- The connection as a stage leaves it.  An assertion that fails ends the process. -/
def BenchPeer.after (k : BenchPeer W) : Except (ParseExit W) (Conn W) → BenchPeer W
  | .ok c => k.withConn c
  | .error (.ret c _) => k.withConn c
  | .error (.abort _) => k

/-- `bench_drain_connection` for a session out of the table. -/
def benchDrain (now : ℤ) (g : BenchRegistry) (k : BenchPeer W) :
    ℤ × BenchRegistry × BenchPeer W :=
  match benchSessionLookup g.slots k.handle with
  | none => (-1, g, k)
  | some slot =>
    let r := benchDrainConnection env.toBenchEnv ⟨g.enabled, g.stats, slot.conn, k.conn, k.sent⟩
    let slots :=
      match r.2.session with
      | none => benchSessionDestroy g.slots k.handle
      | some sess =>
        benchSessionPut g.slots k.handle fun s =>
          { s with conn := some sess, lastActivityTs := now }
    (r.1, { g with stats := r.2.stats, slots := slots },
      { k with conn := r.2.conn, sent := r.2.sent })

/-- The mark is cleared and the connection failed. -/
def benchFail (g : BenchRegistry) (k : BenchPeer W) : BenchRegistry × BenchPeer W :=
  ({ g with marks := benchConnectionClear g.marks k.handle },
    k.withConn (failConnection k.conn (-1)))

/-- A drain, and the end of the connection where it asks for it. -/
def benchDrained (now : ℤ) (g : BenchRegistry) (k : BenchPeer W) : BenchRegistry × BenchPeer W :=
  let r := benchDrain env now g k
  if r.1 < 0 then benchFail r.2.1 r.2.2 else r.2

/-! ### The hook -/

/-- `type3_dispatch_outcome_t` of a bench build. -/
inductive BenchDispatchOutcome
  | bench
  | other (r : Type3DispatchOutcome)
  deriving DecidableEq, Repr

/-- `type3_dispatch_on_crypto_init` of a bench build. -/
def type3DispatchBench (enabled : Bool) (c : Conn W) : Conn W × BenchDispatchOutcome :=
  if env.ksState c.world ≠ .idle then (type3Drop env.toDispatchEnv c, .other .dropSilent)
  else if c.inp.length < 4 then (c, .other .passthrough)
  else
    match t3HeaderParse (c.inp.take 4) with
    | .error _ =>
      (type3Drop env.toDispatchEnv (c.record (.sessionHeader (c.inp.take 4))), .other .dropSilent)
    | .ok hdr =>
      ((c.record (.sessionHeader (c.inp.take 4))).skipData 4,
        if hdr.commandType = T3_CMD_BENCH ∧ enabled = true then .bench
        else if hdr.commandType = T3_CMD_BENCH then .other .dropSilent
        else .other .accept)

/-- What follows on `TYPE3_DISPATCH_BENCH`.  Over a WebSocket a refusal is told the client. -/
def benchDispatched (ws : Bool) (now now' : ℤ) (g : BenchRegistry) (k : BenchPeer W) :
    BenchRegistry × BenchPeer W :=
  match benchSessionInstall env now g k.handle k.conn.world with
  | (false, g, world) =>
    let c : Conn W := { k.conn with world := world }
    let c := if ws then c.putOut ([0x88, 0x02] ++ beBytes 2 1013) else c
    (g, k.withConn (failConnection c (-1)))
  | (true, g, world) =>
    benchDrained env now' { g with marks := benchConnectionMark g.marks k.handle }
      (k.withConn { k.conn with world := world })

/-- Which way a turn of the parser goes. -/
inductive BenchWay
  /-- it leaves before the hook -/
  | early
  /-- the connection has a session, and it is drained -/
  | drained
  /-- the guard closes the connection -/
  | guarded
  /-- the bytes are passed to `type3_dispatch_on_crypto_init`, and on where that accepts -/
  | dispatched
  /-- there is no hook, and the bytes go to the parsers of the handshake or of packets -/
  | unhooked
  deriving DecidableEq, Repr

/-- The hook and what comes behind it.  The clock is read twice, by `bench_session_install` and by
`bench_drain_connection`. -/
def benchHook (ws : Bool) (now now' : ℤ) (g : BenchRegistry) (k : BenchPeer W) (c : Conn W) :
    (BenchRegistry × BenchPeer W) × BenchWay :=
  if benchSessionLookup g.slots k.handle ≠ none then
    (benchDrained env now' g (k.withConn c), .drained)
  else if k.handle ∈ g.marks then (benchFail g (k.withConn c), .guarded)
  else
    match type3DispatchBench env g.enabled c with
    | (c, .bench) =>
      (benchDispatched env ws now now' g { k with conn := c, dispatched := true }, .dispatched)
    | (c, .other .dropSilent) => ((g, k.withConn c), .dispatched)
    | (c, .other _) => ((g, k.after (parseSession env.toExtServerEnv c)), .dispatched)

/-! ### The turn -/

/-- Where the stages before the hook lead. -/
inductive ToHook (W : Type*)
  /-- they leave; `closed` where it is a WebSocket that ends -/
  | leaves (closed : Bool) (exit : ParseExit W)
  | hook (ws : Bool) (c : Conn W)
  | unhooked (c : Conn W)

/-- The test of the bytes that are left. -/
def toHookInput (ws : Bool) (c : Conn W) : ToHook W :=
  match needInput c with
  | .error exit => .leaves false exit
  | .ok c => .hook ws c

/-- A turn up to the hook. -/
def toHook (c : Conn W) : ToHook W :=
  match detect env.acceptKey c with
  | .error exit => .leaves false exit
  | .ok c =>
    if c.wsState = .active ∧ c.crypto.isNone then
      match wsPreCrypto c with
      | .error exit => .leaves true exit
      | .ok c => toHookInput true c
    else if c.transportMode ≠ .ws ∧ c.crypto.isNone then toHookInput false c
    else .unhooked c

/-- What is done where the stages before the hook lead. -/
def benchFrom (now now' : ℤ) (g : BenchRegistry) (k : BenchPeer W) :
    ToHook W → (BenchRegistry × BenchPeer W) × BenchWay
  | .leaves _ (.abort _) => ((g, k), .early)
  | .leaves false (.ret c _) => ((g, k.withConn c), .early)
  | .leaves true (.ret c _) =>
    (({ g with
      slots := benchSessionDestroy g.slots k.handle
      marks := benchConnectionClear g.marks k.handle }, k.withConn c), .early)
  | .hook ws c => benchHook env ws now now' g k c
  | .unhooked c => ((g, k.after (parseSession env.toExtServerEnv c)), .unhooked)

/-- A turn of the parser of a bench build. -/
def benchTurn (now now' : ℤ) (g : BenchRegistry) (k : BenchPeer W) :
    (BenchRegistry × BenchPeer W) × BenchWay :=
  benchFrom env now now' g k (toHook env k.conn)

/-! ### Without the handler -/

/-- Where the handler is not enabled the dispatch is that of a build without it. -/
theorem type3DispatchBench_disabled (c : Conn W) :
    type3DispatchBench env false c =
      ((type3DispatchOnCryptoInit env.toDispatchEnv c).1,
        .other (type3DispatchOnCryptoInit env.toDispatchEnv c).2) := by
  unfold type3DispatchBench type3DispatchOnCryptoInit
  split
  · rfl
  · split
    · rfl
    · cases t3HeaderParse (c.inp.take 4) with
      | error r => rfl
      | ok hdr =>
        dsimp only
        rw [if_neg fun h => Bool.false_ne_true h.2]
        split <;> rfl

section Disabled

variable (now now' : ℤ) {g : BenchRegistry} {k : BenchPeer W}

theorem benchHook_disabled (ws : Bool) (c : Conn W) (henabled : g.enabled = false)
    (hlookup : benchSessionLookup g.slots k.handle = none) (hmark : k.handle ∉ g.marks) :
    (benchHook env ws now now' g k c).1.2 =
      k.after ((dispatchHook env.toExtServerEnv c).bind (parseSession env.toExtServerEnv)) := by
  unfold benchHook dispatchHook
  rw [if_neg (not_not.mpr hlookup), if_neg hmark, henabled, type3DispatchBench_disabled]
  cases type3DispatchOnCryptoInit env.toDispatchEnv c with
  | mk c' r => cases r <;> rfl

/-- **A turn without the handler is a turn of the server's other build.** -/
theorem benchTurn_disabled (henabled : g.enabled = false)
    (hlookup : benchSessionLookup g.slots k.handle = none) (hmark : k.handle ∉ g.marks) :
    (benchTurn env now now' g k).1.2 = k.after (parseStages env.toExtServerEnv k.conn) := by
  have hinput (ws : Bool) (c : Conn W) :
      (benchFrom env now now' g k (toHookInput ws c)).1.2 =
        k.after (((needInput c).bind (dispatchHook env.toExtServerEnv)).bind
          (parseSession env.toExtServerEnv)) := by
    unfold toHookInput
    cases hneed : needInput c with
    | error exit => cases exit <;> rfl
    | ok c' =>
      exact benchHook_disabled env now now' ws c' henabled hlookup hmark
  unfold benchTurn toHook parseStages preCrypto
  cases hdetect : detect env.acceptKey k.conn with
  | error exit => cases exit <;> rfl
  | ok c =>
    dsimp only [ok_bind]
    split
    · cases hunwrap : wsPreCrypto c with
      | error exit => cases exit <;> rfl
      | ok c' => exact hinput true c'
    · split
      · exact hinput false c
      · rfl

end Disabled

/-! ### The tables under their operations -/

/-- There is a session for the handle. -/
def HasSession (slots : List BenchSlot) (h : ConnHandle) : Prop := ∃ s ∈ slots, s.Matches h

theorem benchSessionLookup_ne_none_iff {slots : List BenchSlot} {h : ConnHandle} :
    benchSessionLookup slots h ≠ none ↔ HasSession slots h := by
  unfold benchSessionLookup HasSession
  rw [← Option.isSome_iff_ne_none, List.find?_isSome]
  simp only [decide_eq_true_eq]

section Tables

variable {slots : List BenchSlot} {marks : List ConnHandle} {h h' : ConnHandle}

theorem HasSession.put (hs : HasSession slots h) (hne : h ≠ h') (f : BenchSlot → BenchSlot) :
    HasSession (benchSessionPut slots h' f) h := by
  obtain ⟨s, hmem, hmatch⟩ := hs
  have hnot : ¬ s.Matches h' := fun hmatch' => hne (hmatch.2.symm.trans hmatch'.2)
  exact ⟨s, mem_replaceF_of_none hmem (if_neg hnot), hmatch⟩

theorem HasSession.put_self (hs : HasSession slots h) {f : BenchSlot → BenchSlot}
    (hf : ∀ s, s.Matches h → (f s).Matches h) : HasSession (benchSessionPut slots h f) h := by
  obtain ⟨s, hmem, hmatch⟩ := hs
  obtain ⟨t, -, t', ht', hmem'⟩ :=
    exists_mem_replaceF (f := fun s => if s.Matches h then some (f s) else none) hmem
      (if_pos hmatch)
  refine ⟨t', hmem', ?_⟩
  split at ht'
  next hmatch' =>
    rw [← Option.some.inj ht']
    exact hf t hmatch'
  next => cases ht'

/-- A session that is not stale outlives the reaper. -/
theorem hasSession_reap {now : ℤ} (hs : ∃ s ∈ slots, s.Matches h ∧ ¬ s.Stale now) :
    HasSession (benchReapStaleSlots now slots) h := by
  obtain ⟨s, hmem, hmatch, hfresh⟩ := hs
  exact ⟨s, List.mem_map.mpr ⟨s, hmem, if_neg hfresh⟩, hmatch⟩

/-- A new session takes nobody's place. -/
theorem HasSession.take_free (hs : HasSession slots h) (slot : BenchSlot) :
    HasSession (slots.replaceF fun s => if s.conn = none then some slot else none) h := by
  obtain ⟨s, hmem, hmatch⟩ := hs
  exact ⟨s, mem_replaceF_of_none hmem (if_neg hmatch.1), hmatch⟩

/-- A mark is made for one handle only. -/
theorem mem_of_mem_mark (hne : h ≠ h') (hm : h ∈ benchConnectionMark marks h') : h ∈ marks := by
  unfold benchConnectionMark at hm
  split at hm
  · exact hm
  · rcases mem_replaceF hm with hm | ⟨m, -, hmade⟩
    · exact hm
    · split at hmade
      · exact absurd (Option.some.inj hmade).symm hne
      · cases hmade

/-- It takes the place of an entry whose descriptor is 0. -/
theorem mem_mark (hm : h ∈ marks) (hfd : h.fd ≠ 0) : h ∈ benchConnectionMark marks h' := by
  unfold benchConnectionMark
  split
  · exact hm
  · exact mem_replaceF_of_none hm (if_neg hfd)

theorem mem_of_mem_clear (h0 : h ≠ .zero) (hm : h ∈ benchConnectionClear marks h') :
    h ∈ marks := by
  rcases mem_replaceF hm with hm | ⟨m, -, hmade⟩
  · exact hm
  · split at hmade
    · exact absurd (Option.some.inj hmade).symm h0
    · cases hmade

theorem mem_clear (hne : h ≠ h') (hm : h ∈ marks) : h ∈ benchConnectionClear marks h' :=
  mem_replaceF_of_none hm (if_neg hne)

end Tables

/-! ### What is left to other connections -/

/-- No mark is made for the handle, and what it has it keeps. -/
structure SparesHandle (h : ConnHandle) (g g' : BenchRegistry) : Prop where
  unmarked : h ∈ g'.marks → h ∈ g.marks
  marked : h ∈ g.marks → h ∈ g'.marks
  session : HasSession g.slots h → HasSession g'.slots h

/-- A session that the reaper leaves alone, or a mark that no other takes the place of. -/
def Guardable (now : ℤ) (g : BenchRegistry) (h : ConnHandle) : Prop :=
  (∃ s ∈ g.slots, s.Matches h ∧ ¬ s.Stale now) ∨ h ∈ g.marks ∧ h.fd ≠ 0

instance (now : ℤ) (g : BenchRegistry) (h : ConnHandle) : Decidable (Guardable now g h) :=
  inferInstanceAs (Decidable (_ ∨ _))

section Others

variable {g : BenchRegistry} {k : BenchPeer W} {h : ConnHandle}

theorem SparesHandle.refl (h : ConnHandle) (g : BenchRegistry) : SparesHandle h g g := ⟨id, id, id⟩

theorem SparesHandle.trans {g' g'' : BenchRegistry} (hs : SparesHandle h g g')
    (hs' : SparesHandle h g' g'') : SparesHandle h g g'' :=
  ⟨hs.unmarked ∘ hs'.unmarked, hs'.marked ∘ hs.marked, hs'.session ∘ hs.session⟩

theorem benchFail_others (hne : h ≠ k.handle) (h0 : h ≠ .zero) :
    SparesHandle h g (benchFail g k).1 :=
  ⟨mem_of_mem_clear h0, mem_clear hne, id⟩

theorem benchDrain_handle (now : ℤ) (g : BenchRegistry) (k : BenchPeer W) :
    (benchDrain env now g k).2.2.handle = k.handle := by
  unfold benchDrain
  split <;> rfl

theorem benchDrain_others (now : ℤ) (hne : h ≠ k.handle) :
    SparesHandle h g (benchDrain env now g k).2.1 := by
  unfold benchDrain
  split
  · exact SparesHandle.refl h g
  · refine ⟨id, id, fun hs => ?_⟩
    dsimp only
    split
    · exact hs.put hne _
    · exact hs.put hne _

theorem benchDrained_others (now : ℤ) (hne : h ≠ k.handle) (h0 : h ≠ .zero) :
    SparesHandle h g (benchDrained env now g k).1 := by
  have hdrain := benchDrain_others env (g := g) now hne
  unfold benchDrained
  dsimp only
  split
  · refine hdrain.trans (benchFail_others ?_ h0)
    rwa [benchDrain_handle]
  · exact hdrain

/-- A new session leaves the marks alone, and the sessions that are not stale. -/
theorem benchSessionInstall_others (now : ℤ) (world : W) (h' : ConnHandle) (hne : h ≠ h') :
    (benchSessionInstall env now g h' world).2.1.marks = g.marks ∧
      ((∃ s ∈ g.slots, s.Matches h ∧ ¬ s.Stale now) →
        HasSession (benchSessionInstall env now g h' world).2.1.slots h) := by
  unfold benchSessionInstall
  split
  · exact ⟨rfl, fun ⟨s, hmem, hmatch, _⟩ => ⟨s, hmem, hmatch⟩⟩
  · dsimp only
    split
    · exact ⟨rfl, fun hs => (hasSession_reap hs).put hne _⟩
    · split
      · exact ⟨rfl, hasSession_reap⟩
      · split
        · exact ⟨rfl, hasSession_reap⟩
        · exact ⟨rfl, fun hs => (hasSession_reap hs).take_free _⟩

/-- **What a BENCH dispatch leaves to another connection**: a session that is not stale, and its
mark, unless its descriptor is 0. -/
theorem benchDispatched_others (ws : Bool) (now now' : ℤ) (hne : h ≠ k.handle) (h0 : h ≠ .zero) :
    (h ∈ (benchDispatched env ws now now' g k).1.marks → h ∈ g.marks) ∧
      (Guardable now g h → HasSession (benchDispatched env ws now now' g k).1.slots h ∨
        h ∈ (benchDispatched env ws now now' g k).1.marks) := by
  have hinstall := benchSessionInstall_others env (g := g) now k.conn.world k.handle hne
  unfold benchDispatched
  split
  next g' world heq =>
    rw [heq] at hinstall
    obtain ⟨hmarks, hslots⟩ := hinstall
    refine ⟨fun hm => hmarks ▸ hm, ?_⟩
    rintro (hs | ⟨hm, -⟩)
    · exact Or.inl (hslots hs)
    · exact Or.inr (hmarks.symm ▸ hm)
  next g' world heq =>
    rw [heq] at hinstall
    obtain ⟨hmarks, hslots⟩ := hinstall
    have hspares := benchDrained_others env
      (g := { g' with marks := benchConnectionMark g'.marks k.handle })
      (k := k.withConn { k.conn with world := world }) now' hne h0
    refine ⟨fun hm => hmarks ▸ mem_of_mem_mark hne (hspares.unmarked hm), ?_⟩
    rintro (hs | ⟨hm, hfd⟩)
    · exact Or.inl (hspares.session (hslots hs))
    · exact Or.inr (hspares.marked (mem_mark (hmarks.symm ▸ hm) hfd))

/-- The next turn of this connection is dispatched as BENCH. -/
def TakesBench (g : BenchRegistry) (k : BenchPeer W) : Prop :=
  ∃ ws c, toHook env k.conn = .hook ws c ∧ ¬ HasSession g.slots k.handle ∧ k.handle ∉ g.marks ∧
    FindsHeader env.toDispatchEnv c T3_CMD_BENCH ∧ g.enabled = true

/-- **When a connection is dispatched as BENCH.** -/
theorem type3DispatchBench_bench {enabled : Bool} {c c' : Conn W}
    (h : type3DispatchBench env enabled c = (c', .bench)) :
    FindsHeader env.toDispatchEnv c T3_CMD_BENCH ∧ enabled = true ∧
      c' = (c.record (.sessionHeader (c.inp.take 4))).skipData 4 := by
  unfold type3DispatchBench at h
  split at h
  · cases h
  next hks =>
    split at h
    · cases h
    next hlen =>
      split at h
      · cases h
      next hdr hparse =>
        split at h
        next hcmd =>
          obtain ⟨-, -, -, -, rfl⟩ := (t3HeaderParse_ok_iff _ _).mp hparse
          obtain ⟨hcmd, henabled⟩ := hcmd
          dsimp only at hcmd
          rw [hcmd] at hparse
          cases h
          exact ⟨⟨not_not.mp hks, not_lt.mp hlen, hparse⟩, henabled, rfl⟩
        · split at h
          · cases h
          · cases h

/-- What a turn leaves to another connection. -/
theorem benchTurn_others (now now' : ℤ) (hne : h ≠ k.handle) (h0 : h ≠ .zero) :
    (h ∈ (benchTurn env now now' g k).1.1.marks → h ∈ g.marks) ∧
      ((TakesBench env g k → Guardable now g h) →
        HasSession g.slots h ∨ h ∈ g.marks →
          HasSession (benchTurn env now now' g k).1.1.slots h ∨
            h ∈ (benchTurn env now now' g k).1.1.marks) := by
  have hsame : (h ∈ g.marks → h ∈ g.marks) ∧ ((TakesBench env g k → Guardable now g h) →
      HasSession g.slots h ∨ h ∈ g.marks → HasSession g.slots h ∨ h ∈ g.marks) :=
    ⟨id, fun _ => id⟩
  have hspared {g' : BenchRegistry} (hspares : SparesHandle h g g') :
      (h ∈ g'.marks → h ∈ g.marks) ∧ ((TakesBench env g k → Guardable now g h) →
        HasSession g.slots h ∨ h ∈ g.marks → HasSession g'.slots h ∨ h ∈ g'.marks) :=
    ⟨hspares.unmarked, fun _ => Or.imp hspares.session hspares.marked⟩
  unfold benchTurn benchFrom
  split
  · exact hsame
  · exact hsame
  · exact hspared ⟨mem_of_mem_clear h0, mem_clear hne, fun hs => hs.put hne _⟩
  next ws c hhook =>
    unfold benchHook
    split
    · exact hspared (benchDrained_others env now' hne h0)
    next hnone =>
      split
      · exact hspared (benchFail_others hne h0)
      next hmark =>
        split
        next c' hbench =>
          obtain ⟨hfinds, henabled, -⟩ := type3DispatchBench_bench env hbench
          have htakes : TakesBench env g k :=
            ⟨ws, c, hhook, fun hs => hnone (benchSessionLookup_ne_none_iff.mpr hs), hmark, hfinds,
              henabled⟩
          have hothers := benchDispatched_others env (g := g)
            (k := { k with conn := c', dispatched := true }) ws now now' hne h0
          exact ⟨hothers.1, fun hguard _ => hothers.2 (hguard htakes)⟩
        · exact hsame
        · exact hsame
  · exact hsame

end Others

/-! ### What becomes of the connection itself -/

/-- What the handler and the drain leave alone. -/
structure SameTransport (c c' : Conn W) : Prop where
  crypto : c'.crypto = c.crypto
  wsState : c'.wsState = c.wsState
  transportMode : c'.transportMode = c.transportMode

theorem SameTransport.refl (c : Conn W) : SameTransport c c := ⟨rfl, rfl, rfl⟩

theorem SameTransport.trans {c c' c'' : Conn W} (h : SameTransport c c')
    (h' : SameTransport c' c'') : SameTransport c c'' :=
  ⟨h'.crypto.trans h.crypto, h'.wsState.trans h.wsState, h'.transportMode.trans h.transportMode⟩

/-- A connection whose bytes come to the hook. -/
structure Hooked (c : Conn W) : Prop where
  crypto : c.crypto = none
  settled : c.wsState ≠ .handshake
  stream : c.wsState = .active ∨ c.transportMode ≠ .ws

theorem SameTransport.hooked {c c' : Conn W} (h : SameTransport c c') (hc : Hooked c) :
    Hooked c' where
  crypto := h.crypto.trans hc.crypto
  settled := h.wsState ▸ hc.settled
  stream := by
    rw [h.wsState, h.transportMode]
    exact hc.stream

theorem WorldOnly.sameTransport {c c' : Conn W} (h : WorldOnly c c') : SameTransport c c' := by
  obtain ⟨world, rfl⟩ := h
  exact ⟨rfl, rfl, rfl⟩

/-- The session and the connection with which a loop of a drain ends. -/
def BenchExit.bench : BenchExit W → Bench W
  | .leave b => b
  | .close b => b

section Drain

variable {b b' : Bench W} {c : Conn W}

theorem benchFrameOut_keeps (h : SameTransport c b.conn) :
    SameTransport c (benchFrameOut b).conn := by
  unfold benchFrameOut
  split
  · exact ⟨h.crypto, h.wsState, h.transportMode⟩
  · exact h

theorem benchSourceDone_keeps (h : SameTransport c b.conn) :
    SameTransport c (benchSourceDone env.toBenchEnv b).bench.conn := by
  have hframed := benchFrameOut_keeps h
  have hclose : SameTransport c (benchEmitWsClose (benchFrameOut b) 1000).conn :=
    ⟨hframed.crypto, hframed.wsState, hframed.transportMode⟩
  show SameTransport c (benchFlushOutToSocket env.toBenchEnv _).conn
  unfold benchFlushOutToSocket
  split
  · exact hclose
  · split
    · exact ⟨hclose.crypto, hclose.wsState, hclose.transportMode⟩
    · exact ⟨hclose.crypto, hclose.wsState, hclose.transportMode⟩

theorem benchAnswer_keeps_again {r : ℤ × Bench W} (h : SameTransport c r.2.conn)
    (hr : benchAnswer env.toBenchEnv r = .again b) : SameTransport c b.conn := by
  obtain ⟨-, rfl⟩ := benchAnswer_again env.toBenchEnv hr
  exact benchFrameOut_keeps h

theorem benchAnswer_keeps_done {r : ℤ × Bench W} {exit : BenchExit W}
    (h : SameTransport c r.2.conn) (hr : benchAnswer env.toBenchEnv r = .done exit) :
    SameTransport c exit.bench.conn := by
  unfold benchAnswer at hr
  split at hr
  · cases hr
    exact benchSourceDone_keeps env h
  · split at hr
    · cases hr
      exact ⟨h.crypto, h.wsState, h.transportMode⟩
    · split at hr
      · cases hr
        exact h
      · cases hr

/-- The connection after a call of the handler on a fetch. -/
theorem benchHandlerRecv_keeps {n : ℕ} (h : SameTransport c b.conn) (data : Bytes) :
    SameTransport c
      (benchHandlerRecv env.toBenchEnv { b with conn := b.conn.skipData n } data).2.conn := by
  have hskip : SameTransport c (b.conn.skipData n) := ⟨h.crypto, h.wsState, h.transportMode⟩
  exact hskip.trans (benchHandlerRecv_conn env.toBenchEnv
    { b with conn := b.conn.skipData n } data).sameTransport

theorem benchPull_keeps (h : SameTransport c b.conn) :
    SameTransport c (benchPull env.toBenchEnv b).bench.conn := by
  refine loop_inv (I := fun b => SameTransport c b.conn)
    (Q := fun exit => SameTransport c exit.bench.conn) (benchPullTurn_shrinks env.toBenchEnv)
    ?_ ?_ h
  · intro b b' hb hturn
    unfold benchPullTurn at hturn
    split at hturn
    · cases hturn
    · split at hturn
      · cases hturn
      · exact benchAnswer_keeps_again env (benchHandlerRecv_keeps env hb _) hturn
  · intro b exit hb hturn
    unfold benchPullTurn at hturn
    split at hturn
    · cases hturn
      exact hb
    · split at hturn
      · cases hturn
        exact hb
      · exact benchAnswer_keeps_done env (benchHandlerRecv_keeps env hb _) hturn

theorem benchContinue_keeps (h : SameTransport c b.conn) :
    SameTransport c (benchContinue env.toBenchEnv b).bench.conn := by
  have hrecv {b : Bench W} (hb : SameTransport c b.conn) :
      SameTransport c (benchHandlerRecv env.toBenchEnv b []).2.conn :=
    hb.trans (benchHandlerRecv_conn env.toBenchEnv _ _).sameTransport
  refine loop_inv (I := fun b => SameTransport c b.conn)
    (Q := fun exit => SameTransport c exit.bench.conn) (benchContinueTurn_shrinks env.toBenchEnv)
    ?_ ?_ h
  · intro b b' hb hturn
    unfold benchContinueTurn at hturn
    dsimp only at hturn
    split at hturn
    · cases hturn
    · split at hturn
      · cases hturn
      · split at hturn
        · cases hturn
        · cases hturn
          exact benchFrameOut_keeps (hrecv hb)
  · intro b exit hb hturn
    unfold benchContinueTurn at hturn
    dsimp only at hturn
    split at hturn
    · cases hturn
      exact hb
    · split at hturn
      · cases hturn
        exact benchSourceDone_keeps env (hrecv hb)
      · split at hturn
        · cases hturn
          exact hrecv hb
        · cases hturn

/-- **A drain leaves the transport alone**, and where it does not ask for the end of the connection
it leaves it its session. -/
theorem benchDrainConnection_keeps (k : BenchClient W) (hk : k.session ≠ none) :
    SameTransport k.conn (benchDrainConnection env.toBenchEnv k).2.conn ∧
      (¬ (benchDrainConnection env.toBenchEnv k).1 < 0 →
        (benchDrainConnection env.toBenchEnv k).2.session ≠ none) := by
  cases hsession : k.session with
  | none => exact absurd hsession hk
  | some sess =>
    have hpull := benchPull_keeps env
      (b := ⟨k.enabled, k.stats, sess, k.conn, k.sent⟩) (SameTransport.refl k.conn)
    have hneg : ¬ ¬ (-1 : ℤ) < 0 := by decide
    unfold benchDrainConnection
    rw [hsession]
    dsimp only
    split
    next b heq =>
      rw [heq] at hpull
      exact ⟨hpull, fun h => absurd h hneg⟩
    next b heq =>
      rw [heq] at hpull
      have hcontinue := benchContinue_keeps env (b := b) hpull
      split
      next b' heq' =>
        rw [heq'] at hcontinue
        exact ⟨hcontinue, fun h => absurd h hneg⟩
      next b' heq' =>
        rw [heq'] at hcontinue
        exact ⟨hcontinue, fun _ => Option.some_ne_none _⟩

end Drain

section Own

variable {g : BenchRegistry} {k : BenchPeer W}

/-- **A drain of a connection that has a session.**  It is failed, or it keeps the session and its
transport; the marks of the registry stay. -/
theorem benchDrained_own (now : ℤ) (hs : HasSession g.slots k.handle) :
    (benchDrained env now g k).2.handle = k.handle ∧
      (benchDrained env now g k).2.dispatched = k.dispatched ∧
      ((benchDrained env now g k).2.conn.cError = true ∨
        (benchDrained env now g k).1.marks = g.marks ∧
          HasSession (benchDrained env now g k).1.slots k.handle ∧
          SameTransport k.conn (benchDrained env now g k).2.conn) := by
  cases hlookup : benchSessionLookup g.slots k.handle with
  | none => exact absurd hlookup (benchSessionLookup_ne_none_iff.mpr hs)
  | some slot =>
    have hslot : slot.Matches k.handle := by
      have hfound := List.find?_some hlookup
      exact of_decide_eq_true hfound
    obtain ⟨hsame, hsession⟩ := benchDrainConnection_keeps env
      ⟨g.enabled, g.stats, slot.conn, k.conn, k.sent⟩ hslot.1
    unfold benchDrained benchDrain
    rw [hlookup]
    dsimp only
    split
    · exact ⟨rfl, rfl, Or.inl rfl⟩
    next hret =>
      refine ⟨rfl, rfl, Or.inr ⟨rfl, ?_, hsame⟩⟩
      dsimp only
      split
      next hnone => exact absurd hnone (hsession hret)
      next sess _ => exact hs.put_self fun s hmatch => ⟨Option.some_ne_none _, hmatch.2⟩

/-- **A new session.** -/
theorem benchSessionInstall_own {now : ℤ} {g' : BenchRegistry} {h : ConnHandle} {world world' : W}
    (hinstall : benchSessionInstall env now g h world = (true, g', world')) :
    HasSession g'.slots h := by
  unfold benchSessionInstall at hinstall
  split at hinstall
  · cases hinstall
  · dsimp only at hinstall
    split at hinstall
    next slot hlookup =>
      cases hinstall
      have hs := benchSessionLookup_ne_none_iff.mp (hlookup ▸ Option.some_ne_none slot)
      exact hs.put_self fun s hmatch => hmatch
    · split at hinstall
      · cases hinstall
      next hfull =>
        split at hinstall
        · cases hinstall
        · cases hinstall
          obtain ⟨s, hmem, hfree⟩ : ∃ s ∈ benchReapStaleSlots now g.slots, s.conn = none := by
            by_contra hnone
            refine hfull (List.all_eq_true.mpr fun s hs => Option.isSome_iff_ne_none.mpr ?_)
            exact fun hfree => hnone ⟨s, hs, hfree⟩
          obtain ⟨t, -, t', ht, hmem'⟩ := exists_mem_replaceF
            (f := fun s : BenchSlot =>
              if s.conn = none then some ⟨h, some BenchConn.init, now⟩ else none)
            hmem (if_pos hfree)
          refine ⟨t', hmem', ?_⟩
          split at ht
          · rw [← Option.some.inj ht]
            exact ⟨Option.some_ne_none _, rfl⟩
          · cases ht

end Own

/-! ### Up to the hook -/

section ToHook

variable {c d : Conn W} {r : ℤ}

/-- The detector leaves no handshake behind that it passes. -/
theorem detect_settled {acceptKey : Bytes → Option Bytes} (h : detect acceptKey c = .ok d) :
    d.wsState ≠ .handshake := by
  unfold detect at h
  split at h
  · obtain ⟨c', -, hc'⟩ := bind_ok_iff.mp h
    split at hc'
    · unfold wsHandshake at hc'
      split at hc'
      · cases hc'
      · cases hc'
        exact WsState.noConfusion
      · split at hc'
        · cases hc'
        · rw [needInput_ok hc']
          exact WsState.noConfusion
    next hsettled =>
      cases hc'
      exact hsettled
  next hsettled =>
    cases h
    exact hsettled

theorem wsPreCrypto_same (h : wsPreCrypto c = .ok d) : SameTransport c d := by
  unfold wsPreCrypto at h
  split at h
  · cases h
  · dsimp only at h
    split at h
    · cases h
      exact ⟨rfl, rfl, rfl⟩
    · cases h

/-- A WebSocket that ends is failed. -/
theorem wsPreCrypto_ret (h : wsPreCrypto c = .error (.ret d r)) :
    SameTransport c d ∧ d.cError = true := by
  unfold wsPreCrypto at h
  split at h
  · cases h
  · dsimp only at h
    split at h
    · cases h
    · cases h
      exact ⟨⟨rfl, rfl, rfl⟩, rfl⟩

theorem toHookInput_hook {ws ws' : Bool} (h : toHookInput ws c = .hook ws' d) : d = c := by
  unfold toHookInput at h
  split at h
  · cases h
  next hin =>
    cases h
    exact needInput_ok hin

theorem toHookInput_leaves {ws closed : Bool} (h : toHookInput ws c = .leaves closed (.ret d r)) :
    closed = false ∧ d = c := by
  unfold toHookInput needInput at h
  split_ifs at h
  cases h
  exact ⟨rfl, rfl⟩

theorem toHookInput_ne_unhooked {ws : Bool} : toHookInput ws c ≠ .unhooked d := by
  intro h
  unfold toHookInput at h
  split at h <;> cases h

/-- **What comes to the hook.** -/
theorem toHook_hook {ws : Bool} (h : toHook env c = .hook ws d) : Hooked d := by
  unfold toHook at h
  split at h
  · cases h
  next c' hdetect =>
    have hsettled := detect_settled hdetect
    split at h
    next hws =>
      have hhooked : Hooked c' := ⟨Option.isNone_iff_eq_none.mp hws.2, hsettled, Or.inl hws.1⟩
      split at h
      · cases h
      next c'' hunwrap =>
        rw [toHookInput_hook h]
        exact (wsPreCrypto_same hunwrap).hooked hhooked
    · split at h
      next hhttp =>
        rw [toHookInput_hook h]
        exact ⟨Option.isNone_iff_eq_none.mp hhttp.2, hsettled, Or.inr hhttp.1⟩
      · cases h

/-- A WebSocket that ends before the hook is failed. -/
theorem toHook_closed (h : toHook env c = .leaves true (.ret d r)) : d.cError = true := by
  unfold toHook at h
  split at h
  · cases h
  · split at h
    · split at h
      next hunwrap =>
        cases h
        exact (wsPreCrypto_ret hunwrap).2
      · cases (toHookInput_leaves h).1
    · split at h
      · cases (toHookInput_leaves h).1
      · cases h

/-- **A connection whose bytes come to the hook goes on having them come there.** -/
theorem Hooked.toHook (hc : Hooked c) :
    toHook env c ≠ .unhooked d ∧
      ∀ closed, toHook env c = .leaves closed (.ret d r) → Hooked d := by
  unfold Server.toHook
  rw [detect_of_ne hc.settled]
  have hnone : c.crypto.isNone = true := by rw [hc.crypto]; rfl
  dsimp only
  split
  · split
    next exit hunwrap =>
      refine ⟨fun h => ?_, fun closed h => ?_⟩
      · cases h
      · cases h
        exact (wsPreCrypto_ret hunwrap).1.hooked hc
    next c' hunwrap =>
      refine ⟨toHookInput_ne_unhooked, fun closed h => ?_⟩
      rw [(toHookInput_leaves h).2]
      exact (wsPreCrypto_same hunwrap).hooked hc
  next hws =>
    have hhttp : c.transportMode ≠ .ws ∧ c.crypto.isNone = true :=
      ⟨hc.stream.resolve_left fun hactive => hws ⟨hactive, hnone⟩, hnone⟩
    rw [if_pos hhttp]
    refine ⟨toHookInput_ne_unhooked, fun closed h => ?_⟩
    rwa [(toHookInput_leaves h).2]

end ToHook

/-! ### The turn of a connection -/

/-- What the guard relies on: a mark stands for a connection that has been dispatched as BENCH, and
such a connection comes to the hook and has its session or a mark. -/
structure Guards (g : BenchRegistry) (k : BenchPeer W) : Prop where
  own : k.handle ∈ g.marks → k.dispatched = true
  hooked : k.dispatched = true → Hooked k.conn
  known : k.dispatched = true → HasSession g.slots k.handle ∨ k.handle ∈ g.marks

/-- What a turn leaves of the connection it is about: it is failed, or guarded as before. -/
def LeavesGuarded (h : ConnHandle) (r : BenchRegistry × BenchPeer W) : Prop :=
  r.2.handle = h ∧ (r.2.conn.cError = false → Guards r.1 r.2)

section Turn

variable {g : BenchRegistry} {k : BenchPeer W}

theorem benchDrained_guards (now : ℤ) (hs : HasSession g.slots k.handle)
    (hown : k.handle ∈ g.marks → k.dispatched = true)
    (hhooked : k.dispatched = true → Hooked k.conn) :
    LeavesGuarded k.handle (benchDrained env now g k) := by
  obtain ⟨hhandle, hdispatched, hdrained⟩ := benchDrained_own env now hs
  refine ⟨hhandle, fun herror => ?_⟩
  obtain ⟨hmarks, hsession, hsame⟩ := hdrained.resolve_left (Bool.eq_false_iff.mp herror)
  constructor
  · rw [hhandle, hmarks, hdispatched]
    exact hown
  · rw [hdispatched]
    exact fun h => hsame.hooked (hhooked h)
  · rw [hhandle]
    exact fun _ => Or.inl hsession

/-- **What becomes of a connection that is dispatched as BENCH.** -/
theorem benchDispatched_guards (ws : Bool) (now now' : ℤ) (hhooked : Hooked k.conn)
    (hdispatched : k.dispatched = true) :
    LeavesGuarded k.handle (benchDispatched env ws now now' g k) := by
  unfold benchDispatched
  split
  · refine ⟨rfl, fun herror => ?_⟩
    cases herror
  next g' world hinstall =>
    have hs := benchSessionInstall_own env hinstall
    exact benchDrained_guards env
      (g := { g' with marks := benchConnectionMark g'.marks k.handle })
      (k := k.withConn { k.conn with world := world }) now' hs (fun _ => hdispatched)
      fun _ => ⟨hhooked.crypto, hhooked.settled, hhooked.stream⟩

/-- A connection that has not been dispatched as BENCH and goes on as one. -/
theorem leavesGuarded_of_other {k' : BenchPeer W} (hhandle : k'.handle = k.handle)
    (hnot : k'.dispatched ≠ true) (hmark : k.handle ∉ g.marks) :
    LeavesGuarded k.handle (g, k') :=
  ⟨hhandle, fun _ => ⟨fun h => absurd (hhandle ▸ h) hmark, fun h => absurd h hnot,
    fun h => absurd h hnot⟩⟩

@[simp] theorem BenchPeer.after_handle (k : BenchPeer W) (x : Except (ParseExit W) (Conn W)) :
    (k.after x).handle = k.handle := by
  unfold BenchPeer.after
  split <;> rfl

@[simp] theorem BenchPeer.after_dispatched (k : BenchPeer W) (x : Except (ParseExit W) (Conn W)) :
    (k.after x).dispatched = k.dispatched := by
  unfold BenchPeer.after
  split <;> rfl

theorem benchHook_guards (ws : Bool) (now now' : ℤ) {c : Conn W} (hc : Hooked c)
    (hguards : Guards g k) :
    LeavesGuarded k.handle (benchHook env ws now now' g k c).1 := by
  unfold benchHook
  split
  next hs =>
    exact benchDrained_guards env (k := k.withConn c) now'
      (benchSessionLookup_ne_none_iff.mp hs) hguards.own fun _ => hc
  next hnone =>
    split
    · refine ⟨rfl, fun herror => ?_⟩
      cases herror
    next hmark =>
      have hnot : k.dispatched ≠ true := fun h =>
        (hguards.known h).elim (fun hs => hnone (benchSessionLookup_ne_none_iff.mpr hs)) hmark
      split
      next c' hbench =>
        obtain ⟨-, -, rfl⟩ := type3DispatchBench_bench env hbench
        exact benchDispatched_guards env
          (k := { k with
            conn := (c.record (.sessionHeader (c.inp.take 4))).skipData 4, dispatched := true })
          ws now now' ⟨hc.crypto, hc.settled, hc.stream⟩ rfl
      · exact leavesGuarded_of_other rfl hnot hmark
      · exact leavesGuarded_of_other (k.after_handle _) (k.after_dispatched _ ▸ hnot) hmark

theorem Guards.withConn {c : Conn W} (h : Guards g k) (hc : k.dispatched = true → Hooked c) :
    Guards g (k.withConn c) :=
  ⟨h.own, hc, h.known⟩

/-- **A turn leaves its connection guarded**, unless it fails it. -/
theorem benchTurn_guards (now now' : ℤ) (hguards : Guards g k) :
    LeavesGuarded k.handle (benchTurn env now now' g k).1 := by
  unfold benchTurn benchFrom
  split
  · exact ⟨rfl, fun _ => hguards⟩
  next c res hleaves =>
    refine ⟨rfl, fun _ => hguards.withConn fun h => ?_⟩
    exact ((hguards.hooked h).toHook env (d := c)).2 false hleaves
  next c res hleaves =>
    refine ⟨rfl, fun herror => ?_⟩
    exact absurd (toHook_closed env hleaves) (Bool.eq_false_iff.mp herror)
  next ws c hhook =>
    exact benchHook_guards env ws now now' (toHook_hook env hhook) hguards
  next c hunhooked =>
    have hnot : k.dispatched ≠ true := fun h =>
      ((hguards.hooked h).toHook env (d := c) (r := 0)).1 hunhooked
    have hmark : k.handle ∉ g.marks := fun h => hnot (hguards.own h)
    exact leavesGuarded_of_other (k.after_handle _) (k.after_dispatched _ ▸ hnot) hmark

/-- **Which way a turn goes.**  A connection that has been dispatched as BENCH is drained as long as
it has its session, and after that it is closed by the guard; one that has not been is not closed
by it. -/
theorem benchTurn_way (now now' : ℤ) (hguards : Guards g k) :
    (k.dispatched = true →
      (benchTurn env now now' g k).2 = .early ∨
      HasSession g.slots k.handle ∧ (benchTurn env now now' g k).2 = .drained ∨
      ¬ HasSession g.slots k.handle ∧ (benchTurn env now now' g k).2 = .guarded ∧
        (benchTurn env now now' g k).1.2.conn.cError = true) ∧
      (k.dispatched = false → (benchTurn env now now' g k).2 ≠ .guarded) := by
  have hearly : BenchWay.early ≠ .guarded := by decide
  have hdrained : BenchWay.drained ≠ .guarded := by decide
  have hdispatched : BenchWay.dispatched ≠ .guarded := by decide
  have hunguarded : BenchWay.unhooked ≠ .guarded := by decide
  unfold benchTurn benchFrom
  split
  · exact ⟨fun _ => Or.inl rfl, fun _ => hearly⟩
  · exact ⟨fun _ => Or.inl rfl, fun _ => hearly⟩
  · exact ⟨fun _ => Or.inl rfl, fun _ => hearly⟩
  next ws c hhook =>
    unfold benchHook
    split
    next hs =>
      exact ⟨fun _ => Or.inr (Or.inl ⟨benchSessionLookup_ne_none_iff.mp hs, rfl⟩),
        fun _ => hdrained⟩
    next hnone =>
      have hsession : ¬ HasSession g.slots k.handle := fun hs =>
        hnone (benchSessionLookup_ne_none_iff.mpr hs)
      split
      next hmark =>
        refine ⟨fun _ => Or.inr (Or.inr ⟨hsession, rfl, rfl⟩), fun hnot => ?_⟩
        rw [hguards.own hmark] at hnot
        cases hnot
      next hmark =>
        have hnot (h : k.dispatched = true) : False := (hguards.known h).elim hsession hmark
        split
        · exact ⟨fun h => (hnot h).elim, fun _ => hdispatched⟩
        · exact ⟨fun h => (hnot h).elim, fun _ => hdispatched⟩
        · exact ⟨fun h => (hnot h).elim, fun _ => hdispatched⟩
  next c hunhooked =>
    refine ⟨fun h => ?_, fun _ => hunguarded⟩
    exact absurd hunhooked ((hguards.hooked h).toHook env (r := 0)).1

end Turn

end Server
end Teleproto3
