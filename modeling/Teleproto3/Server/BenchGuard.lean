/-
# The guard of the bench handler

Runs of a server with the hook of `BenchHook`: connections come and are closed, descriptors are used
again, generations are drawn from a counter of 32 bits, and the parser takes a turn now of one
connection and now of another.  A connection that was dispatched as BENCH is to be drained as long
as it has its session and closed by the guard after that; its bytes are not to be dispatched again.

No close clears a mark, so that the 64 entries fill up with the marks of connections that are gone,
and after that nothing is marked.  `benchGuard_kept` says what a run has to stay clear of, and
`benchGuard_leak` is a run in which the bytes of a bench connection are dispatched.
-/

import Teleproto3.Server.BenchHook

namespace Teleproto3
namespace Server

open Lib Wire

variable {W : Type*}

/-! ### Runs -/

/-- The registries, `conn_generation` and the connections that are open. -/
structure BenchServer (W : Type*) where
  registry : BenchRegistry
  connGeneration : ℤ
  live : List (BenchPeer W)

/-- A server without connections. -/
def BenchServer.start (enabled : Bool) : BenchServer W := ⟨.start enabled, 0, []⟩

/-- What happens to the connections. -/
inductive BenchServerEvent (W : Type*)
  /-- a connection is accepted, under a descriptor that is not in use -/
  | accept (fd : ℤ) (remote : RemoteAddr) (ourPort : ℕ) (world : W)
  /-- a listening socket or a connection of another kind takes a generation -/
  | takeGeneration
  /-- the reader, the writer and the timers change what they change -/
  | change (i : ℕ) (d : Conn W)
  /-- a turn of the parser, with the two readings of the clock -/
  | parse (i : ℕ) (now now' : ℤ)
  /-- the connection is closed: by the peer, by a timeout, or because it has failed -/
  | close (i : ℕ)

/-- A connection as the reader, the writer and the timers may leave it: the transport is set by the
parser, which also sets up the cipher, and an error stays. -/
def Conn.outsideParser (c d : Conn W) : Conn W :=
  { d with
    crypto := if c.crypto.isNone then none else d.crypto
    wsState := c.wsState
    transportMode := c.transportMode
    cError := c.cError || d.cError }

section Step

variable (env : BenchServerEnv W) (proxyProtocolEnabled : Bool)

/-- One event.  The parser is not called for a connection in error. -/
def benchServerStep (s : BenchServer W) : BenchServerEvent W → BenchServer W
  | .accept fd remote ourPort world =>
    if fd ∈ s.live.map fun x => x.handle.fd then s
    else
      { s with
        connGeneration := wrap32 (s.connGeneration + 1)
        live := s.live ++ [⟨⟨fd, s.connGeneration⟩,
          tcpRpcsExtInitAccepted env.toExtServerEnv proxyProtocolEnabled
            (Conn.allocated remote ourPort world), [], false⟩] }
  | .takeGeneration => { s with connGeneration := wrap32 (s.connGeneration + 1) }
  | .change i d =>
    match s.live[i]? with
    | none => s
    | some x => { s with live := s.live.set i (x.withConn (x.conn.outsideParser d)) }
  | .parse i now now' =>
    match s.live[i]? with
    | none => s
    | some x =>
      if x.conn.cError then s
      else
        let r := (benchTurn env now now' s.registry x).1
        { s with registry := r.1, live := s.live.set i r.2 }
  | .close i => { s with live := s.live.eraseIdx i }

/-- **The guard does its work in this step.**  Where the parser takes a turn of a connection that
has been dispatched as BENCH, the turn leaves before the hook, or the connection has its session and
is drained, or it has none and the guard closes it; a connection that has not been dispatched as
BENCH is not closed by the guard. -/
def BenchGuarded (s : BenchServer W) : BenchServerEvent W → Prop
  | .parse i now now' => ∀ x, s.live[i]? = some x → x.conn.cError = false →
      (x.dispatched = true →
        (benchTurn env now now' s.registry x).2 = .early ∨
        HasSession s.registry.slots x.handle ∧
          (benchTurn env now now' s.registry x).2 = .drained ∨
        ¬ HasSession s.registry.slots x.handle ∧
          (benchTurn env now now' s.registry x).2 = .guarded ∧
          (benchTurn env now now' s.registry x).1.2.conn.cError = true) ∧
      (x.dispatched = false → (benchTurn env now now' s.registry x).2 ≠ .guarded)
  | _ => True

/-- **What the guard needs of a step.**  A connection is accepted under a descriptor and a
generation that no entry of the marks has, a mark or a free one; and where a connection is
dispatched as BENCH, each other one that has been, and has not failed, has a session that is not
stale, or a mark. -/
def BenchKept (s : BenchServer W) : BenchServerEvent W → Prop
  | .accept fd _ _ _ => fd ∉ (s.live.map fun x => x.handle.fd) →
      (⟨fd, s.connGeneration⟩ : ConnHandle) ≠ .zero ∧
        (⟨fd, s.connGeneration⟩ : ConnHandle) ∉ s.registry.marks
  | .parse i now _ => ∀ x, s.live[i]? = some x → x.conn.cError = false →
      TakesBench env s.registry x →
        ∀ y ∈ s.live, y.handle ≠ x.handle → y.conn.cError = false → y.dispatched = true →
          Guardable now s.registry y.handle
  | _ => True

/-- It is enough that every connection dispatched as BENCH has such a session or mark. -/
theorem benchKept_parse {s : BenchServer W} {i : ℕ} {now now' : ℤ}
    (h : ∀ y ∈ s.live, y.conn.cError = false → y.dispatched = true →
      Guardable now s.registry y.handle) : BenchKept env s (.parse i now now') :=
  fun _ _ _ _ y hy _ => h y hy

/-- The turn passes the bytes of a connection that has been dispatched as BENCH to
`type3_dispatch_on_crypto_init`. -/
def FallsThrough (s : BenchServer W) (i : ℕ) (now now' : ℤ) : Prop :=
  ∃ x ∈ s.live[i]?, x.conn.cError = false ∧ x.dispatched = true ∧
    (benchTurn env now now' s.registry x).2 = .dispatched

instance (s : BenchServer W) (i : ℕ) (now now' : ℤ) :
    Decidable (FallsThrough env s i now now') := by
  unfold FallsThrough
  infer_instance

/-- Then the guard has not done its work. -/
theorem FallsThrough.not_benchGuarded {s : BenchServer W} {i : ℕ} {now now' : ℤ}
    (h : FallsThrough env s i now now') : ¬ BenchGuarded env s (.parse i now now') := by
  obtain ⟨x, hi, herror, hdispatched, hway⟩ := h
  intro hguarded
  have hturn := (hguarded x hi herror).1 hdispatched
  rw [hway] at hturn
  rcases hturn with hearly | ⟨-, hdrained⟩ | ⟨-, hguarded, -⟩
  · cases hearly
  · cases hdrained
  · cases hguarded

/-- What the guard relies on in every state. -/
structure BenchServerSound (s : BenchServer W) : Prop where
  distinct : (s.live.map fun x => x.handle.fd).Nodup
  nonzero : ∀ x ∈ s.live, x.handle ≠ .zero
  guarded : ∀ x ∈ s.live, x.conn.cError = false → Guards s.registry x

theorem BenchServerSound.start (enabled : Bool) :
    BenchServerSound (BenchServer.start enabled : BenchServer W) where
  distinct := List.nodup_nil
  nonzero := fun _ hx => absurd hx List.not_mem_nil
  guarded := fun _ hx => absurd hx List.not_mem_nil

theorem Hooked.outsideParser {c : Conn W} (hc : Hooked c) (d : Conn W) :
    Hooked (c.outsideParser d) where
  crypto := if_pos (by rw [hc.crypto]; rfl)
  settled := hc.settled
  stream := hc.stream

namespace BenchServerSound

variable {env proxyProtocolEnabled} {s : BenchServer W}

/-- A connection is accepted. -/
theorem accept (h : BenchServerSound s) {fd : ℤ} {remote : RemoteAddr} {ourPort : ℕ} {world : W}
    (hkept : BenchKept env s (.accept fd remote ourPort world)) :
    BenchServerSound
      (benchServerStep env proxyProtocolEnabled s (.accept fd remote ourPort world)) := by
  dsimp only [benchServerStep]
  split
  · exact h
  next hfree =>
    obtain ⟨hzero, hunmarked⟩ := hkept hfree
    constructor
    · rw [List.map_append, List.nodup_append_comm]
      exact List.nodup_cons.mpr ⟨hfree, h.distinct⟩
    · intro x hx
      rcases List.mem_append.mp hx with hx | hx
      · exact h.nonzero x hx
      · rw [List.mem_singleton.mp hx]
        exact hzero
    · intro x hx herror
      rcases List.mem_append.mp hx with hx | hx
      · exact h.guarded x hx herror
      · rw [List.mem_singleton.mp hx]
        exact ⟨fun hmark => absurd hmark hunmarked, fun hnot => Bool.noConfusion hnot,
          fun hnot => Bool.noConfusion hnot⟩

/-- A connection takes the place of another with the same handle. -/
theorem set (h : BenchServerSound s) {i : ℕ} {x z : BenchPeer W} (hi : s.live[i]? = some x)
    (hhandle : z.handle = x.handle) {g : BenchRegistry}
    (hguards : z.conn.cError = false → Guards g z)
    (hothers : ∀ y ∈ s.live, y.handle.fd ≠ x.handle.fd → y.conn.cError = false → Guards g y) :
    BenchServerSound { s with registry := g, live := s.live.set i z } where
  distinct := by
    have hkeys := map_set_of_key (k := fun x : BenchPeer W => x.handle.fd) hi
      (congrArg ConnHandle.fd hhandle)
    dsimp only
    rw [hkeys]
    exact h.distinct
  nonzero := by
    intro y hy
    rcases other_of_mem_set h.distinct hi hy with rfl | ⟨hy, -⟩
    · rw [hhandle]
      exact h.nonzero x (List.mem_of_getElem? hi)
    · exact h.nonzero y hy
  guarded := by
    intro y hy herror
    rcases other_of_mem_set h.distinct hi hy with rfl | ⟨hy, hne⟩
    · exact hguards herror
    · exact hothers y hy hne herror

/-- What the reader, the writer and the timers do. -/
theorem change (h : BenchServerSound s) (i : ℕ) (d : Conn W) :
    BenchServerSound (benchServerStep env proxyProtocolEnabled s (.change i d)) := by
  dsimp only [benchServerStep]
  cases hi : s.live[i]? with
  | none => exact h
  | some x =>
    refine h.set (z := x.withConn (x.conn.outsideParser d)) hi rfl (fun herror => ?_)
      fun y hy _ => h.guarded y hy
    have hx := h.guarded x (List.mem_of_getElem? hi) (Bool.or_eq_false_iff.mp herror).1
    exact hx.withConn fun hdispatched => (hx.hooked hdispatched).outsideParser d

/-- A turn of the parser. -/
theorem parse (h : BenchServerSound s) {i : ℕ} {now now' : ℤ}
    (hkept : BenchKept env s (.parse i now now')) :
    BenchServerSound (benchServerStep env proxyProtocolEnabled s (.parse i now now')) := by
  dsimp only [benchServerStep]
  cases hi : s.live[i]? with
  | none => exact h
  | some x =>
    dsimp only
    split
    · exact h
    next hx =>
      have hxerror : x.conn.cError = false := Bool.eq_false_iff.mpr hx
      obtain ⟨hhandle, hturn⟩ := benchTurn_guards env now now'
        (h.guarded x (List.mem_of_getElem? hi) hxerror)
      refine h.set hi hhandle hturn fun y hy hfd herror => ?_
      have hne : y.handle ≠ x.handle := fun heq => hfd (congrArg ConnHandle.fd heq)
      have hguards := h.guarded y hy herror
      obtain ⟨hunmarked, hknown⟩ := benchTurn_others env (g := s.registry) (k := x) now now' hne
        (h.nonzero y hy)
      exact ⟨fun hmark => hguards.own (hunmarked hmark), hguards.hooked, fun hdispatched =>
        hknown (fun htakes => hkept x hi hxerror htakes y hy hne herror hdispatched)
          (hguards.known hdispatched)⟩

/-- A connection is closed.  Its marks and its session stay. -/
theorem close (h : BenchServerSound s) (i : ℕ) :
    BenchServerSound (benchServerStep env proxyProtocolEnabled s (.close i)) := by
  have hsub : (s.live.eraseIdx i).Sublist s.live := List.eraseIdx_sublist s.live i
  exact ⟨h.distinct.sublist (hsub.map _), fun x hx => h.nonzero x (hsub.subset hx),
    fun x hx => h.guarded x (hsub.subset hx)⟩

/-- **Every step that is kept clear of keeps the guard's tables sound.** -/
theorem step (h : BenchServerSound s) {e : BenchServerEvent W} (hkept : BenchKept env s e) :
    BenchServerSound (benchServerStep env proxyProtocolEnabled s e) := by
  cases e with
  | accept fd remote ourPort world => exact h.accept hkept
  | takeGeneration => exact ⟨h.distinct, h.nonzero, h.guarded⟩
  | change i d => exact h.change i d
  | parse i now now' => exact h.parse hkept
  | close i => exact h.close i

/-- **With its tables sound the guard does its work.** -/
theorem benchGuarded (h : BenchServerSound s) (e : BenchServerEvent W) : BenchGuarded env s e := by
  cases e with
  | parse i now now' =>
    intro x hi herror
    exact benchTurn_way env now now' (h.guarded x (List.mem_of_getElem? hi) herror)
  | _ => trivial

end BenchServerSound

/-- **The guard in every run.**  Where every connection is accepted under a descriptor and a
generation that no entry of the marks has, and at every dispatch as BENCH each other connection that
has been dispatched so, and has not failed, has a session that is not stale or a mark, the guard
does its work in every step. -/
theorem benchGuard_kept (enabled : Bool) (es : List (BenchServerEvent W))
    (hkept : Along (benchServerStep env proxyProtocolEnabled) (BenchKept env) (.start enabled) es) :
    Along (benchServerStep env proxyProtocolEnabled) (BenchGuarded env) (.start enabled) es :=
  along_of_inv (fun _ _ h hkept => BenchServerSound.step h hkept)
    (fun _ e h _ => h.benchGuarded e) (BenchServerSound.start enabled) hkept

end Step

/-- A server whose sockets take what they are given and that has the memory it asks for. -/
def sampleBenchServer : BenchServerEnv Unit :=
  { sampleServer with
    csprng := fun w n => (some (List.replicate n 0), w)
    flush := fun w out => (some out.length, w)
    calloc := fun w => (true, w) }

/-- Where the clients are. -/
def sampleBenchAddr : RemoteAddr := ⟨0x7f000001, [], 50000, false⟩

/-- The reader brings some bytes. -/
def sampleBenchRead (i : ℕ) (bytes : Bytes) : BenchServerEvent Unit :=
  .change i { tcpRpcsExtInitAccepted sampleBenchServer.toExtServerEnv false
    (Conn.allocated sampleBenchAddr 443 ()) with inp := bytes }

/-- A request for an HTTP stream, and the header of a bench client. -/
def sampleBenchRequest : Bytes := ascii "POST / HTTP/1.1\r\n\r\n" ++ [0x04, 0x01, 0x00, 0x00]

/-- Its header, at a server that does not serve BENCH. -/
def sampleUnserved : BenchPeer Unit :=
  ⟨⟨5, 1⟩, { Conn.allocated sampleBenchAddr 443 () with inp := sampleBenchRequest }, [], false⟩

theorem benchTurn_disabled_sample :
    (benchTurn sampleBenchServer 0 0 (.start false) sampleUnserved).1.2 =
      sampleUnserved.after (parseStages sampleBenchServer.toExtServerEnv sampleUnserved.conn) :=
  benchTurn_disabled _ 0 0 rfl (by decide) (by decide)

/-- The client at place `i` connects and is dispatched as BENCH. -/
def sampleBenchClient (i : ℕ) (fd now : ℤ) : List (BenchServerEvent Unit) :=
  [.accept fd sampleBenchAddr 443 (), sampleBenchRead i sampleBenchRequest, .parse i now now]

/-- Two clients; the second makes the session of the first be reaped, and the guard closes the first
when it sends again. -/
def sampleGuardedRun : List (BenchServerEvent Unit) :=
  sampleBenchClient 0 5 0 ++ sampleBenchClient 1 6 400 ++
    [sampleBenchRead 0 [0x01, 2, 3], .parse 0 401 401]

theorem benchGuard_kept_sample :
    Along (benchServerStep sampleBenchServer false) (BenchGuarded sampleBenchServer) (.start true)
        sampleGuardedRun ∧
      ((finish (benchServerStep sampleBenchServer false) (.start true) sampleGuardedRun).live.map
        fun x => x.conn.cError) = [true, false] :=
  ⟨benchGuard_kept sampleBenchServer false true sampleGuardedRun
    ⟨fun _ => by decide +kernel, trivial, benchKept_parse _ (by decide +kernel),
      fun _ => by decide +kernel, trivial, benchKept_parse _ (by decide +kernel), trivial,
      benchKept_parse _ (by decide +kernel), trivial⟩, by decide +kernel⟩

/-- After 64 clients that are gone nothing is marked any more: another client's session is reaped,
and it sends again. -/
def sampleLeaks : List (BenchServerEvent Unit) :=
  (List.replicate 64 (sampleBenchClient 0 5 0 ++ [.close 0])).flatten ++
    sampleBenchClient 0 5 301 ++ sampleBenchClient 1 6 602 ++ [sampleBenchRead 0 [0x01, 2, 3]]

/-- **The bytes of a bench connection are dispatched again.** -/
theorem benchGuard_leak :
    ¬ Along (benchServerStep sampleBenchServer false) (BenchGuarded sampleBenchServer) (.start true)
      (sampleLeaks ++ [.parse 0 603 603]) := by
  have hfalls : FallsThrough sampleBenchServer
      (finish (benchServerStep sampleBenchServer false) (.start true) sampleLeaks) 0 603 603 := by
    decide +kernel
  intro h
  exact hfalls.not_benchGuarded _ (along_append.mp h).2.1

end Server
end Teleproto3
