/-
# A client behind the PROXY protocol

Behind a balancer the first bytes of a connection are a header that says where the client is, and
the client's own stream follows.  The server should do with that stream what it does with the
same stream sent to it directly from that address.

Both connections are read side by side here, the second one with the header cut off its reads.
What keeps them apart is the order of the stages: the detector of HTTP and WebSocket requests
looks at the header, and decides, before the header is stripped.  So a request behind a header is
never seen, and where the detector asks for more, a line that ends twice, the bytes of the header
count.  `proxyRun_transparent` is about the runs in which neither happens: the detector finds no
request in the client's stream, and does not keep from the other stages of one of the two
connections alone what they would act on.
-/

import Teleproto3.Server.ProbeWait
import Teleproto3.Server.ProxyProtocol

namespace Teleproto3
namespace Server

open Lib

variable {W : Type*}

/-! ### The header -/

/-- A server with the parser of the PROXY protocol. -/
def proxyServer (inetPton4 : Bytes → Option ℕ) (inetPton6 : Bytes → Option Bytes)
    (base : ExtServerEnv W) : ExtServerEnv W :=
  { base with proxyProtocolParse := proxyProtocolParse inetPton4 inetPton6 }

/-- A header for the stages around the parser: it is found when it is complete and not before, and it
starts no request. -/
structure IsHeader (env : ExtServerEnv W) (p : Bytes) (addr : Option RemoteAddr) : Prop where
  complete : ∀ y, env.proxyProtocolParse (p ++ y) = .header p.length addr
  incomplete : ∀ q, q <+: p → q.length < p.length → env.proxyProtocolParse q = .needMore
  long : 9 ≤ p.length
  notRequest : ∀ y, ¬ ascii "GET" <+: p ++ y ∧ ¬ ascii "POST" <+: p ++ y

theorem ValidHeader.isHeader {inetPton4 : Bytes → Option ℕ} {inetPton6 : Bytes → Option Bytes}
    {p : Bytes} {addr : Option RemoteAddr} (h : ValidHeader inetPton4 inetPton6 p addr)
    (base : ExtServerEnv W) : IsHeader (proxyServer inetPton4 inetPton6 base) p addr where
  complete := proxyProtocolParse_append h
  incomplete := fun _ => proxyProtocolParse_prefix h
  long := by
    have := h.long
    omega
  notRequest := h.notRequest

/-- The connection behind the header: it has the address stated in it. -/
def Conn.stripped (c : Conn W) (p : Bytes) (addr : Option RemoteAddr) : Conn W :=
  { c with
    cProxyProtocol := false
    remote := addr.getD c.remote
    log := c.log ++ [.proxyHeader p] }

theorem Untouched.stripped {c : Conn W} (h : Untouched c) (p : Bytes) (addr : Option RemoteAddr) :
    Untouched (c.stripped p addr) :=
  ⟨h.type, h.error, h.failed, h.netFailed, h.stopRead, h.stopParse, h.status, h.crypto, h.mode,
    h.tls, h.inU, h.number, h.medium⟩

section Strip

variable {env : ExtServerEnv W} {c : Conn W} {p : Bytes} {addr : Option RemoteAddr}

/-- A header that is not complete is nothing to act on. -/
theorem IsHeader.idle (h : IsHeader env p addr) (hproxy : c.cProxyProtocol = true) {q : Bytes}
    (hq : q <+: p) (hlt : q.length < p.length) : Idle env c q := by
  right
  rw [if_pos hproxy]
  exact h.incomplete q hq hlt

/-- One that is, is. -/
theorem IsHeader.not_idle (h : IsHeader env p addr) (hproxy : c.cProxyProtocol = true) (y : Bytes) :
    ¬ Idle env c (p ++ y) := by
  have hlong := h.long
  rintro (hlt | hmore)
  · rw [List.length_append] at hlt
    omega
  · rw [if_pos hproxy, h.complete y] at hmore
    exact nomatch hmore

/-- The bytes held by an untouched connection are enough, or are asked for. -/
theorem parseLength_untouched {d : Conn W} (h : Untouched d) :
    parseLength d = if 9 ≤ d.inp.length then .ok d
      else .error (.ret d (if d.inp.length = 0 then NEED_MORE_BYTES else 9 - d.inp.length)) := by
  have hmin : minLen d = 1 := by
    unfold minLen
    rw [h.medium]
    rfl
  unfold parseLength
  rw [hmin]
  by_cases hnil : d.inp.length = 0
  · rw [if_pos hnil, if_neg (by omega), if_pos hnil]
  · rw [if_neg hnil, if_neg hnil]
    by_cases hshort : d.inp.length < 1 + 8
    · rw [if_pos hshort, if_neg (by omega)]
      norm_num
    · rw [if_neg hshort, if_neg (by omega), if_pos (by omega)]

/-- **Behind the detector, the header makes no difference.** -/
theorem parseStages_header (h : IsHeader env p addr) (hc : Untouched c)
    (hproxy : c.cProxyProtocol = true)
    (hacl : addr.isSome → env.ipAclCheck (addr.getD c.remote) = true) (y : Bytes) :
    parseStages env (c.holding .none (p ++ y) 0) =
      parseStages env ((c.stripped p addr).holding .none y 0) := by
  have hlong := h.long
  have hbefore := hc.holding .none (p ++ y) 0
  have hbehind := (hc.stripped p addr).holding .none y 0
  have henough : 9 ≤ (c.holding .none (p ++ y) 0).inp.length := by
    show 9 ≤ (p ++ y).length
    rw [List.length_append]
    omega
  rw [parseStages_untouched env hbefore rfl, parseStages_untouched env hbehind rfl,
    parseLength_untouched hbefore, if_pos henough]
  have hstrip : proxyHeader env (c.holding .none (p ++ y) 0) =
      parseLength ((c.stripped p addr).holding .none y 0) := by
    have hfound : env.proxyProtocolParse (c.holding .none (p ++ y) 0).inp = .header p.length addr :=
      h.complete y
    have hconn : { ((c.holding .none (p ++ y) 0).record
          (.proxyHeader ((p ++ y).take p.length))).skipData p.length with
        cProxyProtocol := false, remote := addr.getD c.remote } =
        (c.stripped p addr).holding .none y 0 := by
      rw [List.take_left]
      show { (c.stripped p addr).holding .none y 0 with inp := (p ++ y).drop p.length } = _
      rw [List.drop_left]
      rfl
    unfold proxyHeader
    rw [if_pos (show (c.holding .none (p ++ y) 0).cProxyProtocol = true from hproxy), hfound]
    dsimp only
    refine (if_neg ?_).trans (congrArg parseLength hconn)
    rintro ⟨hsome, hrejected⟩
    have haccepted := hacl hsome
    rw [show env.ipAclCheck (addr.getD c.remote) = false from hrejected] at haccepted
    exact absurd haccepted (by decide)
  show handshake env (c.holding .none (p ++ y) 0) = _
  unfold handshake
  rw [hstrip]
  cases hlength : parseLength ((c.stripped p addr).holding .none y 0) with
  | error exit => rfl
  | ok d =>
    rw [parseLength_untouched hbehind] at hlength
    split_ifs at hlength
    rw [← Except.ok.inj hlength]
    rfl

/-- Neither a header nor a part of one starts a request. -/
theorem IsHeader.not_startsRequest (h : IsHeader env p addr) {w y : Bytes} (hw : w <+: p ++ y) :
    ¬ StartsRequest w := by
  obtain ⟨more, hmore⟩ := hw
  have hno := h.notRequest y
  rw [← hmore] at hno
  exact Server.not_startsRequest hno.1 hno.2

/-- A read whose first call of the parser leaves a connection that waits. -/
theorem readOne_needMore {d : Conn W} {ws : WsState} {w r : Bytes} {n : ℕ} (hc : Untouched c)
    (hfits : (w ++ r).length < 2 ^ 31) (hne : w ++ r ≠ [])
    (hparse : parseStages env (c.holding ws (w ++ r) 0) = .error (.ret d NEED_MORE_BYTES)) :
    readOne env (.ok (c.holding ws w 0)) (r, n) = .ok d := by
  have hfront := readerFront_untouched env ws hc (le_refl 0) hfits
  rw [if_pos (Int.natCast_nonneg _)] at hfront
  have hstops : ¬ ReaderStops (c.holding ws (w ++ r) 0) := fun hs =>
    hne ((readerStops_untouched hc hfits).mp hs)
  have hcall : (clientMethods env).parseExecute (c.holding ws (w ++ r) 0) =
      .ok (d, NEED_MORE_BYTES) := by
    show clientParseExecute env (c.holding ws (w ++ r) 0) = _
    unfold clientParseExecute
    rw [(hc.holding ws (w ++ r) 0).type]
    exact tcpRpcsCompactParseExecute_of_error env hparse
  show (jobRun (clientMethods env) (c.holding ws w 0) [r] (n + 1)).map ReaderResult.conn = _
  rw [jobRun_of_live (hc.holding ws w 0).error,
    cpuTcpServerReader_of_done hfront (readerTurn_of_needMore hstops hcall)]
  rfl

/-- The read that completes the header is, where the detector does not keep it, a read of the
client's bytes alone. -/
theorem Undecided.of_header {s : Except ReaderFault (Conn W)} {w r y : Bytes} {n : ℕ}
    (hs : Undecided env c w s) (h : IsHeader env p addr) (hc : Untouched c)
    (hproxy : c.cProxyProtocol = true)
    (hacl : addr.isSome → env.ipAclCheck (addr.getD c.remote) = true)
    (hfits : (w ++ r).length < 2 ^ 31) (hsplit : w ++ r = p ++ y) (hkeeps : ¬ Keeps s r) :
    readOne env s (r, n) =
      readOne env (.ok ((c.stripped p addr).holding .none [] 0)) (y, n) := by
  have hlong := h.long
  have hlen : (w ++ r).length = p.length + y.length := by rw [hsplit, List.length_append]
  have hne : w ++ r ≠ [] := fun hnil => by
    rw [hnil, List.length_nil] at hlen
    omega
  have hrequest : FindsNoRequest s r := by
    intro d hd _ _
    rw [hs.inp hd, hsplit]
    exact h.not_startsRequest (List.prefix_refl _)
  have hact : ¬ Idle env c (w ++ r) := hsplit ▸ h.not_idle hproxy y
  have hstages : parseStages env (c.holding .none (w ++ r) 0) =
      parseStages env ((c.stripped p addr).holding .none y 0) :=
    hsplit ▸ parseStages_header h hc hproxy hacl y
  have hfits' : ([] ++ y).length < 2 ^ 31 := by
    rw [List.nil_append]
    omega
  rw [hs.of_acts hc hfits hrequest hact hkeeps]
  by_cases hnil : y = []
  · -- The header has come alone: the client has sent nothing yet.
    subst hnil
    have hmore : parseStages env ((c.stripped p addr).holding .none [] 0) =
        .error (.ret ((c.stripped p addr).holding .none [] 0) NEED_MORE_BYTES) := by
      rw [parseStages_untouched env ((hc.stripped p addr).holding .none [] 0) rfl]
      rfl
    obtain ⟨skip, hskip, hread⟩ := readOne_unchanged (n := n) (x := []) (r := [])
      (hc.stripped p addr) hfits' (Or.inl rfl) hmore
    rcases hskip with rfl | ⟨-, hlt⟩
    · rw [readOne_needMore hc hfits hne (hstages.trans hmore)]
      exact hread.symm
    · exact absurd hlt (lt_irrefl _)
  · exact readOne_congr hc (hc.stripped p addr) hfits hfits' hne hnil hstages

/-! ### Behind the header -/

variable (env c p addr) in
/-- A connection that holds a whole header and these bytes of the client, or these bytes alone, and
has done nothing with the client's bytes. -/
inductive Ahead (x : Bytes) : Except ReaderFault (Conn W) → Prop
  | held : Ahead x (.ok (c.holding .handshake (p ++ x) 0))
  | idle {skip : ℤ} (hskip : Patient env (c.stripped p addr) x skip) :
    Ahead x (.ok ((c.stripped p addr).holding .none x skip))

variable {s : Except ReaderFault (Conn W)} {w r x y : Bytes} {n : ℕ}

/-- A read of the header's end that is kept, or brings too little of the client's bytes. -/
theorem Undecided.ahead (hs : Undecided env c w s) (h : IsHeader env p addr) (hc : Untouched c)
    (hproxy : c.cProxyProtocol = true)
    (hacl : addr.isSome → env.ipAclCheck (addr.getD c.remote) = true)
    (hfits : (w ++ r).length < 2 ^ 31) (hsplit : w ++ r = p ++ y)
    (hwaits : Keeps s r ∨ Idle env (c.stripped p addr) y) :
    Ahead env c p addr y (readOne env s (r, n)) := by
  by_cases hkeeps : Keeps s r
  · rw [hs.of_keeps hc hfits hkeeps, hsplit]
    exact .held
  · have hlen : (w ++ r).length = p.length + y.length := by rw [hsplit, List.length_append]
    have hfits' : ([] ++ y).length < 2 ^ 31 := by
      rw [List.nil_append]
      omega
    rw [hs.of_header h hc hproxy hacl hfits hsplit hkeeps]
    obtain ⟨skip, hskip, hread⟩ := readOne_idle (n := n) (hc.stripped p addr)
      (.zero _ []) hfits' (hwaits.resolve_left hkeeps)
    rw [hread]
    exact .idle hskip

/-- A read that is not kept, and brings enough, starts afresh with the client's bytes. -/
theorem Undecided.afresh (hs : Undecided env c x s) (hc : Untouched c)
    (hfits : (x ++ r).length < 2 ^ 31) (hrequest : FindsNoRequest s r) (hkeeps : ¬ Keeps s r)
    (hact : ¬ Idle env c (x ++ r)) :
    readOne env s (r, n) = readOne env (.ok (c.holding .none [] 0)) (x ++ r, n) := by
  have hne : x ++ r ≠ [] := fun hnil => hact (Or.inl (by rw [hnil]; decide))
  rw [hs.of_acts hc hfits hrequest hact hkeeps]
  exact readOne_congr hc hc hfits hfits hne hne rfl

theorem Ahead.waits (hs : Ahead env c p addr x s) (h : IsHeader env p addr) (hc : Untouched c)
    (hproxy : c.cProxyProtocol = true)
    (hacl : addr.isSome → env.ipAclCheck (addr.getD c.remote) = true)
    (hfits : ∀ d, s = .ok d → (d.inp ++ r).length < 2 ^ 31)
    (hwaits : Keeps s r ∨ Idle env (c.stripped p addr) (x ++ r)) :
    Ahead env c p addr (x ++ r) (readOne env s (r, n)) := by
  cases hs with
  | held =>
    exact Undecided.waiting.ahead h hc hproxy hacl (hfits _ rfl) (List.append_assoc p x r) hwaits
  | idle hskip =>
    have hidle : Idle env (c.stripped p addr) (x ++ r) := by
      rcases hwaits with ⟨d, hd, hws, -⟩ | hidle
      · rw [← Except.ok.inj hd] at hws
        exact WsState.noConfusion hws
      · exact hidle
    obtain ⟨skip, hskip, hread⟩ := readOne_idle (n := n) (hc.stripped p addr) hskip (hfits _ rfl) hidle
    rw [hread]
    exact .idle hskip

theorem Ahead.afresh (hs : Ahead env c p addr x s) (h : IsHeader env p addr) (hc : Untouched c)
    (hproxy : c.cProxyProtocol = true)
    (hacl : addr.isSome → env.ipAclCheck (addr.getD c.remote) = true)
    (hfits : ∀ d, s = .ok d → (d.inp ++ r).length < 2 ^ 31) (hkeeps : ¬ Keeps s r)
    (hact : ¬ Idle env (c.stripped p addr) (x ++ r)) :
    readOne env s (r, n) =
      readOne env (.ok ((c.stripped p addr).holding .none [] 0)) (x ++ r, n) := by
  cases hs with
  | held =>
    exact Undecided.waiting.of_header h hc hproxy hacl (hfits _ rfl) (List.append_assoc p x r) hkeeps
  | idle hskip =>
    refine (Undecided.idle hskip).afresh (hc.stripped p addr) (hfits _ rfl) ?_ hkeeps hact
    intro d hd hws
    rw [← Except.ok.inj hd] at hws
    exact WsState.noConfusion hws

end Strip

/-! ### Side by side -/

/-- How many bytes of the header are still to come, the connection behind the balancer, and the one
without it. -/
abbrev ProxyRuns (W : Type*) := ℕ × Except ReaderFault (Conn W) × Except ReaderFault (Conn W)

section Run

variable (env : ExtServerEnv W) (p : Bytes) (addr : Option RemoteAddr)

/-- One read of both: the second connection gets what is behind the header. -/
def proxyStep (s : ProxyRuns W) (e : Bytes × ℕ) : ProxyRuns W :=
  (s.1 - e.1.length, readOne env s.2.1 e, readOne env s.2.2 (e.1.drop s.1, e.2))

/-- What a connection has come to, apart from the header it still holds. -/
def Conn.shown (c : Conn W) : Conn W :=
  if c.cProxyProtocol then { (c.stripped p addr).settled with inp := c.inp.drop p.length }
  else c.settled

/-- The two connections differ in nothing but the header. -/
def SameButHeader (s : ProxyRuns W) : Prop :=
  s.2.1.map (Conn.shown p addr) = s.2.2.map (Conn.shown p addr)

/-- What is held is counted by an `int`, and where a read ends behind the header, the detector finds no
request in the client's stream, and keeps it from the other stages of both connections, or of
none, or as long as they would not act on it. -/
def StripsInTime (s : ProxyRuns W) (e : Bytes × ℕ) : Prop :=
  ∀ a b, s.2.1 = .ok a → s.2.2 = .ok b → (a.inp ++ e.1).length < 2 ^ 31 ∧
    (s.1 ≤ e.1.length → FindsNoRequest s.2.2 (e.1.drop s.1) ∧
      ((Keeps s.2.1 e.1 ↔ Keeps s.2.2 (e.1.drop s.1)) ∨ Idle env b (b.inp ++ e.1.drop s.1)))

/-- Two connections that are the same stay the same. -/
theorem proxyStep_same (s : Except ReaderFault (Conn W)) (es : List (Bytes × ℕ)) :
    Throughout (proxyStep env) (SameButHeader p addr) (0, s, s) es := by
  induction es generalizing s with
  | nil => rfl
  | cons e es ih =>
    have hstep : proxyStep env (0, s, s) e = (0, readOne env s e, readOne env s e) := by
      show (0 - e.1.length, readOne env s e, readOne env s (e.1.drop 0, e.2)) = _
      rw [Nat.zero_sub, List.drop_zero]
    refine ⟨rfl, ?_⟩
    rw [hstep]
    exact ih _

end Run

section Run

variable {env : ExtServerEnv W} {c : Conn W} {p : Bytes} {addr : Option RemoteAddr}

theorem Ahead.shown {x : Bytes} {a : Except ReaderFault (Conn W)} (ha : Ahead env c p addr x a)
    (hproxy : c.cProxyProtocol = true) :
    a.map (Conn.shown p addr) = .ok ((c.stripped p addr).holding .none x 0) := by
  cases ha with
  | held =>
    refine congrArg Except.ok ((if_pos hproxy).trans ?_)
    show { (c.stripped p addr).holding .none x 0 with inp := (p ++ x).drop p.length } = _
    rw [List.drop_left]
    rfl
  | idle hskip => rfl

theorem Undecided.shown {x : Bytes} {b : Except ReaderFault (Conn W)}
    (hb : Undecided env (c.stripped p addr) x b) :
    b.map (Conn.shown p addr) = .ok ((c.stripped p addr).holding .none x 0) := by
  cases hb with
  | idle hskip => rfl
  | waiting => rfl

/-- The client's bytes fit where what is held does. -/
theorem Ahead.fits {x r : Bytes} {a : Except ReaderFault (Conn W)} (ha : Ahead env c p addr x a) :
    ∃ d, a = .ok d ∧ ((d.inp ++ r).length < 2 ^ 31 → (x ++ r).length < 2 ^ 31) := by
  cases ha with
  | held =>
    refine ⟨_, rfl, fun hfits => ?_⟩
    have hlen : (p ++ x ++ r).length = p.length + (x ++ r).length := by
      rw [List.append_assoc, List.length_append]
    have hheld : (p ++ x ++ r).length < 2 ^ 31 := hfits
    omega
  | idle hskip => exact ⟨_, rfl, fun hfits => hfits⟩

theorem Undecided.exists_ok {x : Bytes} {b : Except ReaderFault (Conn W)}
    (hb : Undecided env c x b) :
    ∃ d, b = .ok d ∧ d.inp = x ∧ d.cProxyProtocol = c.cProxyProtocol ∧ d.world = c.world := by
  cases hb with
  | idle hskip => exact ⟨_, rfl, rfl, rfl, rfl⟩
  | waiting => exact ⟨_, rfl, rfl, rfl, rfl⟩

/-- Whether there is something to act on is a question of the bytes, the flag and the secrets. -/
theorem idle_congr {d : Conn W} (hproxy : d.cProxyProtocol = c.cProxyProtocol)
    (hworld : d.world = c.world) (x : Bytes) : Idle env d x ↔ Idle env c x := by
  unfold Idle
  rw [hproxy, hworld]

/-- Both connections have come behind the header with a read. -/
theorem StripsInTime.step {a b a' b' : Except ReaderFault (Conn W)} {x y r : Bytes} {n : ℕ}
    (hb : Undecided env (c.stripped p addr) x b) (hc : Untouched c)
    (hfits : (x ++ y).length < 2 ^ 31) (hrequest : FindsNoRequest b y)
    (hkeeps : (Keeps a r ↔ Keeps b y) ∨ Idle env (c.stripped p addr) (x ++ y))
    (hb' : b' = readOne env b (y, n))
    (hwaits : Keeps a r ∨ Idle env (c.stripped p addr) (x ++ y) → Ahead env c p addr (x ++ y) a')
    (hacts : ¬ Keeps a r → ¬ Idle env (c.stripped p addr) (x ++ y) →
      a' = readOne env (.ok ((c.stripped p addr).holding .none [] 0)) (x ++ y, n)) :
    a' = b' ∨ Ahead env c p addr (x ++ y) a' ∧ Undecided env (c.stripped p addr) (x ++ y) b' := by
  have hc' := hc.stripped p addr
  subst hb'
  by_cases hidle : Idle env (c.stripped p addr) (x ++ y)
  · exact Or.inr ⟨hwaits (Or.inr hidle), hb.of_idle hc' hfits hrequest hidle⟩
  · have hiff := hkeeps.resolve_right hidle
    by_cases hkept : Keeps a r
    · refine Or.inr ⟨hwaits (Or.inl hkept), ?_⟩
      rw [hb.of_keeps hc' hfits (hiff.mp hkept)]
      exact .waiting
    · left
      rw [hacts hkept hidle, hb.afresh hc' hfits hrequest (fun hk => hkept (hiff.mpr hk)) hidle]

/-- Both connections have the whole header behind them, and have done nothing yet. -/
theorem Ahead.sameButHeader {x : Bytes} {a b : Except ReaderFault (Conn W)} {es : List (Bytes × ℕ)}
    (ha : Ahead env c p addr x a) (hb : Undecided env (c.stripped p addr) x b)
    (h : IsHeader env p addr) (hc : Untouched c) (hproxy : c.cProxyProtocol = true)
    (hacl : addr.isSome → env.ipAclCheck (addr.getD c.remote) = true)
    (hcond : Along (proxyStep env) (StripsInTime env) (0, a, b) es) :
    Throughout (proxyStep env) (SameButHeader p addr) (0, a, b) es := by
  induction es generalizing x a b with
  | nil => exact (ha.shown hproxy).trans hb.shown.symm
  | cons e es ih =>
    obtain ⟨r, n⟩ := e
    obtain ⟨hstrips, hrest⟩ := hcond
    refine ⟨(ha.shown hproxy).trans hb.shown.symm, ?_⟩
    have hstep : proxyStep env (0, a, b) (r, n) = (0, readOne env a (r, n), readOne env b (r, n)) := by
      show (0 - r.length, readOne env a (r, n), readOne env b (r.drop 0, n)) = _
      rw [Nat.zero_sub, List.drop_zero]
    rw [hstep] at hrest ⊢
    obtain ⟨d, hd, hdfits⟩ := ha.fits (r := r)
    obtain ⟨d', hd', hinp, hproxy', hworld⟩ := hb.exists_ok
    obtain ⟨hfits, hbehind⟩ := hstrips d d' hd hd'
    obtain ⟨hrequest, hkeeps⟩ := hbehind (Nat.zero_le _)
    have hafits : ∀ f, a = .ok f → (f.inp ++ r).length < 2 ^ 31 := fun f hf => by
      rw [← Except.ok.inj (hd.symm.trans hf)]
      exact hfits
    rw [hinp, idle_congr hproxy' hworld] at hkeeps
    have hnext := StripsInTime.step (n := n) hb hc (hdfits hfits) hrequest hkeeps rfl
      (fun hwaits => ha.waits (n := n) h hc hproxy hacl hafits hwaits)
      fun hkept hact => ha.afresh h hc hproxy hacl hafits hkept hact
    rcases hnext with heq | ⟨ha', hb'⟩
    · rw [show readOne env a (r, n) = readOne env b (r, n) from heq]
      exact proxyStep_same env p addr _ es
    · exact ih ha' hb' hrest

/-- What a connection shows of a header that is not complete. -/
theorem Undecided.shown_header {q : Bytes} {a : Except ReaderFault (Conn W)}
    (ha : Undecided env c q a) (hproxy : c.cProxyProtocol = true) (hlt : q.length < p.length) :
    a.map (Conn.shown p addr) = .ok ((c.stripped p addr).holding .none [] 0) := by
  have hdrop : q.drop p.length = [] := List.drop_eq_nil_of_le hlt.le
  cases ha with
  | idle hskip =>
    refine congrArg Except.ok ((if_pos hproxy).trans ?_)
    show { (c.stripped p addr).holding .none q 0 with inp := q.drop p.length } = _
    rw [hdrop]
    rfl
  | waiting =>
    refine congrArg Except.ok ((if_pos hproxy).trans ?_)
    show { (c.stripped p addr).holding .none q 0 with inp := q.drop p.length } = _
    rw [hdrop]
    rfl

/-- The header is not complete yet, and the second connection has received nothing. -/
theorem Undecided.sameButHeader {q t : Bytes} {a : Except ReaderFault (Conn W)}
    {es : List (Bytes × ℕ)} (ha : Undecided env c q a) (hq : q <+: p) (hlt : q.length < p.length)
    (h : IsHeader env p addr) (hc : Untouched c) (hproxy : c.cProxyProtocol = true)
    (hacl : addr.isSome → env.ipAclCheck (addr.getD c.remote) = true)
    (hstream : q ++ (es.map Prod.fst).flatten = p ++ t)
    (hcond : Along (proxyStep env) (StripsInTime env)
      (p.length - q.length, a, .ok ((c.stripped p addr).holding .handshake [] 0)) es) :
    Throughout (proxyStep env) (SameButHeader p addr)
      (p.length - q.length, a, .ok ((c.stripped p addr).holding .handshake [] 0)) es := by
  have hb : Undecided env (c.stripped p addr) []
      (.ok ((c.stripped p addr).holding .handshake [] 0)) := .waiting
  induction es generalizing q a with
  | nil => exact (ha.shown_header hproxy hlt).trans hb.shown.symm
  | cons e es ih =>
    obtain ⟨r, n⟩ := e
    obtain ⟨hstrips, hrest⟩ := hcond
    refine ⟨(ha.shown_header hproxy hlt).trans hb.shown.symm, ?_⟩
    rw [List.map_cons, List.flatten_cons, ← List.append_assoc] at hstream
    have hheld : q ++ r <+: p ++ t := ⟨_, hstream⟩
    obtain ⟨d, hd, hinp, -, -⟩ := ha.exists_ok
    obtain ⟨hfits, hbehind⟩ := hstrips d _ hd rfl
    rw [hinp] at hfits
    replace hfits : (q ++ r).length < 2 ^ 31 := hfits
    have hlen : (q ++ r).length = q.length + r.length := List.length_append
    by_cases hmore : (q ++ r).length < p.length
    · -- Still a part of the header.
      have hpart : q ++ r <+: p :=
        List.prefix_of_prefix_length_le hheld (List.prefix_append p t) hmore.le
      have hrequest : FindsNoRequest a r := by
        intro f hf _ _
        rw [ha.inp hf]
        exact h.not_startsRequest hheld
      have hnothing : r.drop (p.length - q.length) = [] := List.drop_eq_nil_of_le (by omega)
      have hwait : readOne env (.ok ((c.stripped p addr).holding .handshake [] 0)) ([], n) =
          .ok ((c.stripped p addr).holding .handshake [] 0) :=
        readOne_waiting (hc.stripped p addr) (by decide) (Or.inl (by decide))
      have hstep : proxyStep env
          (p.length - q.length, a, .ok ((c.stripped p addr).holding .handshake [] 0)) (r, n) =
          (p.length - (q ++ r).length, readOne env a (r, n),
            .ok ((c.stripped p addr).holding .handshake [] 0)) := by
        refine Prod.ext ?_ (Prod.ext rfl ?_)
        · show p.length - q.length - r.length = p.length - (q ++ r).length
          omega
        · show readOne env (.ok ((c.stripped p addr).holding .handshake [] 0))
            (r.drop (p.length - q.length), n) = _
          rw [hnothing, hwait]
      rw [hstep] at hrest ⊢
      exact ih (ha.of_idle hc hfits hrequest (h.idle hproxy hpart hmore)) hpart hmore hstream hrest
    · -- The read in which the header ends.
      obtain ⟨y, hy⟩ : p <+: q ++ r :=
        List.prefix_of_prefix_length_le (List.prefix_append p t) hheld (not_lt.mp hmore)
      have hylen : (q ++ r).length = p.length + y.length := by rw [← hy, List.length_append]
      have hdrop : r.drop (p.length - q.length) = y := by
        have hbytes : (q ++ r).drop p.length = y := by rw [← hy, List.drop_left]
        rw [List.drop_append, List.drop_eq_nil_of_le hlt.le, List.nil_append] at hbytes
        exact hbytes
      have hzero : p.length - q.length - r.length = 0 := by omega
      obtain ⟨hrequest, hkeeps⟩ := hbehind (show p.length - q.length ≤ r.length by omega)
      have hstep : proxyStep env
          (p.length - q.length, a, .ok ((c.stripped p addr).holding .handshake [] 0)) (r, n) =
          (0, readOne env a (r, n),
            readOne env (.ok ((c.stripped p addr).holding .handshake [] 0)) (y, n)) := by
        refine Prod.ext hzero (Prod.ext rfl ?_)
        show readOne env (.ok ((c.stripped p addr).holding .handshake [] 0))
            (r.drop (p.length - q.length), n) = _
        rw [hdrop]
      rw [hstep] at hrest ⊢
      have hnext := StripsInTime.step (n := n) hb hc (by rw [List.nil_append]; omega)
        (hdrop ▸ hrequest) (hdrop ▸ hkeeps) rfl
        (fun hwaits => ha.ahead (n := n) h hc hproxy hacl hfits hy.symm hwaits)
        fun hkept _ => ha.of_header h hc hproxy hacl hfits hy.symm hkept
      rcases hnext with heq | ⟨ha', hb'⟩
      · rw [heq]
        exact proxyStep_same env p addr _ es
      · exact ha'.sameButHeader hb' h hc hproxy hacl hrest

/-- **Behind a header of the PROXY protocol the server does what it does without one**, for a client at
the address in the header, in every run of reads in which the detector neither finds a request in
the client's stream nor keeps it from the other stages of one connection alone. -/
theorem proxyRun_transparent (inetPton4 : Bytes → Option ℕ) (inetPton6 : Bytes → Option Bytes)
    (base : ExtServerEnv W) (p t : Bytes) (addr : Option RemoteAddr) (balancer : RemoteAddr)
    (ourPort : ℕ) (world : W) (es : List (Bytes × ℕ))
    (hvalid : ValidHeader inetPton4 inetPton6 p addr)
    (hstream : (es.map Prod.fst).flatten = p ++ t)
    (hacl : addr.isSome → base.ipAclCheck (addr.getD balancer) = true)
    (hcond : Along (proxyStep (proxyServer inetPton4 inetPton6 base))
      (StripsInTime (proxyServer inetPton4 inetPton6 base))
      (p.length,
        .ok (tcpRpcsExtInitAccepted (proxyServer inetPton4 inetPton6 base) true
          (Conn.allocated balancer ourPort world)),
        .ok { tcpRpcsExtInitAccepted (proxyServer inetPton4 inetPton6 base) false
          (Conn.allocated (addr.getD balancer) ourPort world) with log := [.proxyHeader p] }) es) :
    Throughout (proxyStep (proxyServer inetPton4 inetPton6 base)) (SameButHeader p addr)
      (p.length,
        .ok (tcpRpcsExtInitAccepted (proxyServer inetPton4 inetPton6 base) true
          (Conn.allocated balancer ourPort world)),
        .ok { tcpRpcsExtInitAccepted (proxyServer inetPton4 inetPton6 base) false
          (Conn.allocated (addr.getD balancer) ourPort world) with log := [.proxyHeader p] }) es := by
  have hlong := hvalid.long
  have hc := accepted_untouched (proxyServer inetPton4 inetPton6 base) true balancer ourPort world
  exact Undecided.sameButHeader (q := []) .waiting List.nil_prefix (by rw [List.length_nil]; omega)
    (hvalid.isHeader base) hc rfl hacl hstream hcond

/-- The sample server behind a balancer that names no address. -/
def sampleProxyServer : ExtServerEnv Unit := proxyServer (fun _ => none) (fun _ => none) sampleServer

/-- The header of such a balancer. -/
def unknownHeader : Bytes := ascii "PROXY UNKNOWN\r\n"

theorem unknownHeader_valid : ValidHeader (fun _ => none) (fun _ => none) unknownHeader none := rfl

/-- A connection from that balancer. -/
def sampleBehind : Conn Unit :=
  tcpRpcsExtInitAccepted sampleProxyServer true
    (Conn.allocated ⟨0x7f000001, [], 50000, false⟩ 443 ())

/-- The same client without it. -/
def sampleDirect : Conn Unit :=
  { tcpRpcsExtInitAccepted sampleProxyServer false
      (Conn.allocated ⟨0x7f000001, [], 50000, false⟩ 443 ()) with
    log := [.proxyHeader unknownHeader] }

theorem sampleBehind_untouched : Untouched sampleBehind :=
  accepted_untouched sampleProxyServer true ⟨0x7f000001, [], 50000, false⟩ 443 ()

theorem sampleDirect_untouched : Untouched sampleDirect :=
  sampleBehind_untouched.stripped unknownHeader none

/-- The hypotheses of `proxyRun_transparent` hold of a client whose first line is over, twice, with its
first read. -/
theorem proxyRun_transparent_line :
    Throughout (proxyStep sampleProxyServer) (SameButHeader unknownHeader none)
      (unknownHeader.length, .ok sampleBehind, .ok sampleDirect)
      [(unknownHeader, 0), ([13, 10, 13, 10] ++ List.replicate 60 1, 0)] := by
  refine proxyRun_transparent (fun _ => none) (fun _ => none) sampleServer unknownHeader
    ([13, 10, 13, 10] ++ List.replicate 60 1) none ⟨0x7f000001, [], 50000, false⟩ 443 () _
    unknownHeader_valid rfl (fun h => nomatch h) ⟨?_, ?_, trivial⟩
  · rintro a b ha hb
    obtain rfl := Except.ok.inj ha
    obtain rfl := Except.ok.inj hb
    refine ⟨by decide, fun _ => ⟨?_, Or.inr (Or.inl (by decide))⟩⟩
    intro d hd _ hwait
    rw [← Except.ok.inj hd] at hwait
    exact absurd (Or.inl (by decide)) hwait
  · -- The detector has kept the header, in which one line ends.
    have hfst : readOne sampleProxyServer (.ok sampleBehind) (unknownHeader, 0) =
        .ok (sampleBehind.holding .handshake unknownHeader 0) :=
      readOne_waiting (x := []) sampleBehind_untouched (by decide) (Or.inr ⟨by decide, by decide⟩)
    have hsnd : readOne sampleProxyServer (.ok sampleDirect) ([], 0) = .ok sampleDirect :=
      readOne_waiting (x := []) sampleDirect_untouched (by decide) (Or.inl (by decide))
    rintro a b ha hb
    obtain rfl := Except.ok.inj (hfst.symm.trans ha)
    obtain rfl := Except.ok.inj (hsnd.symm.trans hb)
    refine ⟨by decide, fun _ => ⟨?_, Or.inl ⟨?_, ?_⟩⟩⟩
    · intro d hd _ _
      rw [← Except.ok.inj (hsnd.symm.trans hd)]
      decide
    · rintro ⟨d, hd, -, hwait⟩
      rw [← Except.ok.inj (hfst.symm.trans hd)] at hwait
      exact absurd hwait (by decide)
    · rintro ⟨d, hd, -, hwait⟩
      rw [← Except.ok.inj (hsnd.symm.trans hd)] at hwait
      exact absurd hwait (by decide)

/-- A request that opens a stream. -/
def postChunked : Bytes := ascii "POST / HTTP/1.1\r\nTransfer-Encoding: chunked\r\n\r\n"

/-- **A request behind a header is not seen**: without the header it opens a stream. -/
theorem proxyRun_not_transparent :
    ValidHeader (fun _ => none) (fun _ => none) unknownHeader none ∧
      ¬ Throughout (proxyStep sampleProxyServer) (SameButHeader unknownHeader none)
        (unknownHeader.length, .ok sampleBehind, .ok sampleDirect)
        [(unknownHeader ++ postChunked, 0)] := by
  refine ⟨unknownHeader_valid, fun hall => ?_⟩
  have h : IsHeader sampleProxyServer unknownHeader none :=
    unknownHeader_valid.isHeader sampleServer
  -- The detector looks at the header, and the request is too short for anything else.
  obtain ⟨skip, hfst⟩ : ∃ skip, readOne sampleProxyServer (.ok sampleBehind)
      (unknownHeader ++ postChunked, 0) = .ok (sampleDirect.holding .none postChunked skip) := by
    have hkeeps : ¬ Keeps (.ok sampleBehind) (unknownHeader ++ postChunked) := by
      rintro ⟨d, hd, -, hwait⟩
      rw [← Except.ok.inj hd] at hwait
      exact absurd hwait (by decide)
    have hidle : Idle sampleProxyServer sampleDirect postChunked := by
      right
      decide
    obtain ⟨skip, -, hread⟩ := readOne_idle (n := 0) (x := []) sampleDirect_untouched (.zero _ [])
      (by decide) hidle
    have hheader := Undecided.of_header (w := []) (n := 0) .waiting h sampleBehind_untouched rfl
      (fun h => nomatch h) (by decide) rfl hkeeps
    exact ⟨skip, hheader.trans hread⟩
  obtain ⟨d, hstages, hmode⟩ : ∃ d, parseStages sampleProxyServer
      (sampleDirect.holding .handshake ([] ++ postChunked) 0) = .error (.ret d NEED_MORE_BYTES) ∧
        (d.shown unknownHeader none).transportMode = .httpStream := ⟨_, rfl, rfl⟩
  have hsnd : readOne sampleProxyServer (.ok sampleDirect) (postChunked, 0) = .ok d :=
    readOne_needMore sampleDirect_untouched (by decide) (by decide) hstages
  have hsame : (readOne sampleProxyServer (.ok sampleBehind)
      (unknownHeader ++ postChunked, 0)).map (Conn.shown unknownHeader none) =
      (readOne sampleProxyServer (.ok sampleDirect) (postChunked, 0)).map
        (Conn.shown unknownHeader none) := hall.2
  rw [hfst, hsnd] at hsame
  have hmodes := congrArg Conn.transportMode (Except.ok.inj hsame)
  rw [hmode] at hmodes
  exact TransportMode.noConfusion hmodes

end Run

end Server
end Teleproto3
