/-
# Other clients behind the probe for HTTP and WebSocket

Every connection is accepted with `ws_state` at `HANDSHAKE`, and the detector looks at its first
bytes before anything else does.  For a client that speaks neither HTTP nor WebSocket this
should make no difference: nothing is consumed, and the later stages get the same bytes.

What makes a difference is that the detector may ask for more: as long as no line ends twice
in what has been received, before any zero byte, and there are fewer than 4096 bytes, no other
stage is reached.  The two servers, with the detector and without it, are read side by side
here: `probeRun_transparent` is about the runs in which the detector asks for more only while no
later stage has enough to act on.

A connection from which nothing has been consumed is described by three things: what it holds,
`ws_state`, and how many bytes its reader waits for (`Conn.holding`).
-/

import Teleproto3.Lib.Runs
import Teleproto3.Server.ParseLoop

namespace Teleproto3
namespace Server

open Lib

variable {W : Type*}

/-! ### Before anything is consumed -/

/-- A connection that has been accepted, and of which nothing has been consumed. -/
structure Untouched (c : Conn W) : Prop where
  type : c.type = .rpcExtServer
  error : c.cError = false
  failed : c.cFailed = false
  netFailed : c.cNetFailed = false
  stopRead : c.cStopRead = false
  stopParse : c.cStopParse = false
  status : c.status ≠ .error
  crypto : c.crypto = none
  mode : c.transportMode = .ws
  tls : c.cIsTls = false
  inU : c.inU = []
  number : c.rpc.inPacketNum = -3
  medium : c.rpc.flags.medium = false

/-- The connection with these bytes in `in`. -/
def Conn.holding (c : Conn W) (ws : WsState) (x : Bytes) (skip : ℤ) : Conn W :=
  { c with wsState := ws, inp := x, skipBytes := skip }

theorem Untouched.holding {c : Conn W} (h : Untouched c) (ws : WsState) (x : Bytes) (skip : ℤ) :
    Untouched (c.holding ws x skip) :=
  ⟨h.type, h.error, h.failed, h.netFailed, h.stopRead, h.stopParse, h.status, h.crypto, h.mode,
    h.tls, h.inU, h.number, h.medium⟩

/-- The detector asks for more. -/
def Waiting (x : Bytes) : Prop :=
  x.length < 4 ∨ findSub headersEnd (peekBuf x) = none ∧ x.length < 4096

instance (x : Bytes) : Decidable (Waiting x) := by
  unfold Waiting
  infer_instance

/-- The detector asks for more and leaves everything as it is. -/
theorem detect_waiting {acceptKey : Bytes → Option Bytes} {c : Conn W}
    (hws : c.wsState = .handshake) (h : Waiting c.inp) :
    detect acceptKey c = .error (.ret c NEED_MORE_BYTES) := by
  unfold detect
  rw [if_pos hws]
  by_cases hrequest : StartsRequest c.inp
  · have hnone : findSub headersEnd (peekBuf c.inp) = none ∧ c.inp.length < 4096 :=
      h.resolve_left (not_lt.mpr hrequest.1)
    rw [if_pos hrequest]
    unfold httpStreamRequest
    rw [hnone.1]
    dsimp only
    rw [if_neg (not_le.mpr hnone.2)]
    rfl
  · have hmore : wsParseUpgradeRequest c.inp = .needMore := by
      unfold wsParseUpgradeRequest
      rcases h with hlt | ⟨hnone, hlt⟩
      · rw [if_pos hlt]
      · rw [hnone]
        dsimp only
        rw [if_neg (not_le.mpr hlt), ite_self]
    rw [if_neg hrequest]
    show (if c.wsState = .handshake then wsHandshake acceptKey c else .ok c) = _
    rw [if_pos hws]
    unfold wsHandshake
    rw [hmore]

/-- Where it does not, a client that has sent no request is let pass. -/
theorem detect_passes_other {acceptKey : Bytes → Option Bytes} {c : Conn W}
    (hws : c.wsState = .handshake) (h : ¬ Waiting c.inp) (hrequest : ¬ StartsRequest c.inp) :
    detect acceptKey c = .ok { c with wsState := .none } := by
  have hlen : ¬ c.inp.length < 4 := fun hlt => h (Or.inl hlt)
  have hget : c.inp.take 4 ≠ ascii "GET " := by
    intro heq
    refine hrequest ⟨not_lt.mp hlen, Or.inr ?_⟩
    have htake : c.inp.take 3 = (c.inp.take 4).take 3 := by
      rw [List.take_take]
      rfl
    rw [htake, heq]
    rfl
  have hrefused : wsParseUpgradeRequest c.inp = .refused := by
    unfold wsParseUpgradeRequest
    rw [if_neg hlen]
    cases hfind : findSub headersEnd (peekBuf c.inp) with
    | none =>
      dsimp only
      rw [if_pos (not_lt.mp fun hlt => h (Or.inr ⟨hfind, hlt⟩))]
    | some n =>
      dsimp only
      rw [if_pos hget]
  unfold detect
  rw [if_pos hws, if_neg hrequest]
  show (if c.wsState = .handshake then wsHandshake acceptKey c else .ok c) = _
  rw [if_pos hws]
  unfold wsHandshake
  rw [hrefused]

section Idle

variable (env : ExtServerEnv W)

/-- What has been received is not enough for any stage behind the detector to act on: for a header
of the PROXY protocol, where one is expected, and otherwise for a ClientHello, where a domain
is imitated, or an obfuscated2 header. -/
def Idle (c : Conn W) (x : Bytes) : Prop :=
  x.length < 9 ∨
    if c.cProxyProtocol then env.proxyProtocolParse x = .needMore
    else if env.defaultDomainInfo = none then x.length < 64
    else StartsHello x ∧ env.secrets c.world ≠ [] ∧ x.length < 5 + beValue ((x.drop 3).take 2)

/-- A number of bytes the reader may wait for without missing anything. -/
def Patient (c : Conn W) (x : Bytes) (skip : ℤ) : Prop :=
  0 ≤ skip ∧ skip < 2 ^ 31 ∧ ∀ y, ¬ Idle env c (x ++ y) → skip ≤ (x ++ y).length

variable {env}

theorem Patient.zero (c : Conn W) (x : Bytes) : Patient env c x 0 :=
  ⟨le_refl _, by decide, fun y _ => Int.natCast_nonneg _⟩

theorem Patient.append {c : Conn W} {x : Bytes} {skip : ℤ} (h : Patient env c x skip) (r : Bytes) :
    Patient env c (x ++ r) skip :=
  ⟨h.1, h.2.1, fun y hy => by
    rw [List.append_assoc] at hy ⊢
    exact h.2.2 (r ++ y) hy⟩

/-- The first bytes of a ClientHello are there or not, and what length they announce, whatever
follows. -/
theorem startsHello_append {x : Bytes} (h : 9 ≤ x.length) (y : Bytes) :
    (StartsHello (x ++ y) ↔ StartsHello x) ∧
      ((x ++ y).drop 3).take 2 = (x.drop 3).take 2 := by
  have htake : (x ++ y).take 3 = x.take 3 := List.take_append_of_le_length (by omega)
  have hget : (x ++ y).getD 3 0 = x.getD 3 0 := by
    rw [List.getD_eq_getElem?_getD, List.getD_eq_getElem?_getD,
      List.getElem?_append_left (by omega)]
  constructor
  · unfold StartsHello
    rw [htake, hget]
  · rw [List.drop_append_of_le_length (by omega), List.take_append_of_le_length]
    rw [List.length_drop]
    omega

variable (env) in
/-- The stages of an untouched connection that is not, or no longer, behind the detector. -/
theorem parseStages_untouched {c : Conn W} (h : Untouched c) (hws : c.wsState = .none) :
    parseStages env c = (parseLength c).bind (handshake env) := by
  have hdetect : detect env.acceptKey c = .ok c := detect_of_ne (by rw [hws]; decide)
  have hpre : preCrypto env c = .ok c := by
    unfold preCrypto
    rw [if_neg (fun hactive => by rw [hws] at hactive; exact absurd hactive.1 (by decide)),
      if_neg (fun hmode => hmode.1 h.mode)]
  have hflags : parseFlags c = .ok c := by
    have htimer : { c with timer := if c.rpc.inPacketNum ≠ -3 then none else c.timer } = c := by
      rw [if_neg (not_not.mpr h.number)]
    unfold parseFlags
    dsimp only
    rw [if_neg (by rw [h.error, h.stopParse]; decide)]
    exact congrArg Except.ok htimer
  unfold parseStages
  rw [hdetect]
  show (preCrypto env c).bind (parseSession env) = _
  rw [hpre]
  show parseSession env c = _
  unfold parseSession
  rw [hflags]
  show (parseLength c).bind _ = _
  cases hlength : parseLength c with
  | error exit => rfl
  | ok d =>
    have hd : d = c := by
      unfold parseLength at hlength
      split_ifs at hlength
      exact (Except.ok.inj hlength).symm
    show (if d.rpc.inPacketNum = -3 then handshake env d else parsePacket env d) = handshake env d
    rw [hd, if_pos h.number]

/-- A wait for no more than it takes to end the idleness. -/
def AsksPatiently (env : ExtServerEnv W) (c : Conn W) (res : ℤ) : Prop :=
  res = NEED_MORE_BYTES ∨ 0 < res ∧ res < NEED_MORE_BYTES ∧ Patient env c c.inp res

theorem asksPatiently_of_short {c : Conn W} {n : ℕ} (hn : c.inp.length < n) (hle : n < 2 ^ 31 - 1)
    (hact : ∀ y, ¬ Idle env c (c.inp ++ y) → n ≤ (c.inp ++ y).length + c.inp.length) :
    AsksPatiently env c (n - c.inp.length) := by
  unfold AsksPatiently NEED_MORE_BYTES
  refine Or.inr ⟨by omega, by omega, by omega, by omega, fun y hy => ?_⟩
  have hreach := hact y hy
  omega

theorem nine_le_of_not_idle {c : Conn W} {bs : Bytes} (h : ¬ Idle env c bs) : 9 ≤ bs.length :=
  not_lt.mp fun hlt => h (Or.inl hlt)

/-- The header of the PROXY protocol is not complete. -/
theorem handshake_idle_proxy {c : Conn W} (hlen : 9 ≤ c.inp.length)
    (hproxy : c.cProxyProtocol = true) (hpart : env.proxyProtocolParse c.inp = .needMore) :
    ∃ res, handshake env c = .error (.ret c res) ∧ AsksPatiently env c res := by
  have hheader : proxyHeader env c = .error (.ret c
      (if c.inp.length < 16 then 16 - c.inp.length else NEED_MORE_BYTES)) := by
    unfold proxyHeader
    rw [if_pos hproxy, hpart]
  unfold handshake
  rw [hheader]
  refine ⟨_, rfl, ?_⟩
  by_cases hlt : c.inp.length < 16
  · rw [if_pos hlt]
    refine asksPatiently_of_short (n := 16) hlt (by norm_num) fun y hy => ?_
    have hlong := nine_le_of_not_idle hy
    rw [List.length_append] at hlong ⊢
    omega
  · rw [if_neg hlt]
    exact Or.inl rfl

/-- Behind the header of the PROXY protocol, or without one. -/
theorem handshake_of_plain {c : Conn W} (hproxy : ¬ c.cProxyProtocol = true) :
    handshake env c = (fakeTls env c).bind (obfs2Header env) := by
  have hheader : proxyHeader env c = .ok c := by
    unfold proxyHeader
    rw [if_neg hproxy]
  unfold handshake
  rw [hheader]
  rfl

/-- The header of obfuscated2 is not complete. -/
theorem handshake_idle_obfs2 {c : Conn W} (htls : c.cIsTls = false)
    (hproxy : ¬ c.cProxyProtocol = true) (hdomain : env.defaultDomainInfo = none)
    (hshort : c.inp.length < 64) :
    ∃ res, handshake env c = .error (.ret c res) ∧ AsksPatiently env c res := by
  have hfake : fakeTls env c = .ok c := by
    unfold fakeTls
    rw [htls, hdomain]
    rfl
  rw [handshake_of_plain hproxy, hfake]
  refine ⟨(64 : ℕ) - c.inp.length, ?_, asksPatiently_of_short hshort (by norm_num) fun y hy => ?_⟩
  · show obfs2Header env c = _
    unfold obfs2Header
    rw [if_pos hshort]
    rfl
  · have hlong : ¬ (c.inp ++ y).length < 64 := fun hlt =>
      hy (Or.inr (by rw [if_neg hproxy, if_pos hdomain]; exact hlt))
    omega

/-- A ClientHello is not complete. -/
theorem handshake_idle_hello {c : Conn W} (htls : c.cIsTls = false)
    (hproxy : ¬ c.cProxyProtocol = true) {dflt : DomainInfo}
    (hdomain : env.defaultDomainInfo = some dflt) (hlen : 9 ≤ c.inp.length)
    (hhello : StartsHello c.inp) (hsecrets : env.secrets c.world ≠ [])
    (hshort : c.inp.length < 5 + beValue ((c.inp.drop 3).take 2)) :
    ∃ res, handshake env c = .error (.ret c res) ∧ AsksPatiently env c res := by
  have hreturn : clientHello env dflt c =
      .ret c ((5 + beValue ((c.inp.drop 3).take 2) : ℕ) - c.inp.length) := by
    unfold clientHello
    dsimp only
    rw [if_pos hshort]
  have hfake : fakeTls env c = .error (clientHello env dflt c) := by
    unfold fakeTls
    rw [htls, hdomain]
    show (if StartsHello c.inp ∧ env.secrets c.world ≠ [] then _ else _) = _
    rw [if_pos ⟨hhello, hsecrets⟩]
  rw [handshake_of_plain hproxy, hfake, hreturn]
  refine ⟨_, rfl, asksPatiently_of_short hshort ?_ fun y hy => ?_⟩
  · have htwo : ((c.inp.drop 3).take 2).length ≤ 2 := List.length_take_le 2 _
    have hvalue := beValue_lt ((c.inp.drop 3).take 2)
    have hpow : 256 ^ ((c.inp.drop 3).take 2).length ≤ 256 ^ 2 :=
      Nat.pow_le_pow_right (by decide) htwo
    omega
  · obtain ⟨hstarts, hbytes⟩ := startsHello_append hlen y
    have hylt : ¬ (c.inp ++ y).length < 5 + beValue ((c.inp.drop 3).take 2) := fun hlt =>
      hy (Or.inr (by
        rw [if_neg hproxy, if_neg (by rw [hdomain]; exact Option.some_ne_none dflt)]
        exact ⟨hstarts.mpr hhello, hsecrets, by rw [hbytes]; exact hlt⟩))
    omega

/-- **Nothing happens to an idle connection**: the parser leaves it as it is, and asks for no more
than it takes to end this. -/
theorem parse_idle {c : Conn W} (h : Untouched c) (hws : c.wsState = .none)
    (hidle : Idle env c c.inp) :
    ∃ res, parseStages env c = .error (.ret c res) ∧
      (res = NEED_MORE_BYTES ∨ 0 < res ∧ res < NEED_MORE_BYTES ∧ Patient env c c.inp res) := by
  rw [parseStages_untouched env h hws]
  have hmin : minLen c = 1 := by
    unfold minLen
    rw [h.medium]
    rfl
  by_cases hnil : c.inp.length = 0
  · refine ⟨NEED_MORE_BYTES, ?_, Or.inl rfl⟩
    unfold parseLength
    rw [if_pos hnil]
    rfl
  by_cases hshort : c.inp.length < 9
  · refine ⟨(9 : ℕ) - c.inp.length, ?_, asksPatiently_of_short hshort (by norm_num) fun y hy => ?_⟩
    · unfold parseLength
      rw [if_neg hnil, hmin, if_pos (by omega)]
      rfl
    · have hlong := nine_le_of_not_idle hy
      omega
  have hlength : parseLength c = .ok c := by
    unfold parseLength
    rw [if_neg hnil, hmin, if_neg (by omega), if_neg (by omega)]
  have hrest := hidle.resolve_left hshort
  rw [hlength]
  show ∃ res, handshake env c = _ ∧ AsksPatiently env c res
  by_cases hproxy : c.cProxyProtocol = true
  · rw [if_pos hproxy] at hrest
    exact handshake_idle_proxy (not_lt.mp hshort) hproxy hrest
  rw [if_neg hproxy] at hrest
  cases hdomain : env.defaultDomainInfo with
  | none =>
    rw [if_pos hdomain] at hrest
    exact handshake_idle_obfs2 h.tls hproxy hdomain hrest
  | some dflt =>
    rw [if_neg (by rw [hdomain]; exact Option.some_ne_none dflt)] at hrest
    obtain ⟨hhello, hsecrets, hlt⟩ := hrest
    exact handshake_idle_hello h.tls hproxy hdomain (not_lt.mp hshort) hhello hsecrets hlt

end Idle

/-! ### One read -/

section Read

variable (env : ExtServerEnv W)

/-- A read: what arrives, and how many turns the loop of the reader is given behind its first. -/
def readOne (s : Except ReaderFault (Conn W)) (e : Bytes × ℕ) : Except ReaderFault (Conn W) :=
  s.bind fun c => (jobRun (clientMethods env) c [e.1] (e.2 + 1)).map ReaderResult.conn

variable {env} {c : Conn W} {ws : WsState} {x r : Bytes} {skip : ℤ} {n : ℕ}

/-- Waiting for bytes. -/
theorem readerSkip_of_pos {d : Conn W} (h : 0 < d.skipBytes) :
    readerSkip d = if d.skipBytes ≤ totalBytes d.inp then .ok { d with skipBytes := 0 }
      else .error (.ok ⟨d, 0, []⟩) := by
  unfold readerSkip
  dsimp only
  rw [if_neg (not_lt.mpr h.le), if_pos h]

theorem readerSkip_of_zero {d : Conn W} (h : d.skipBytes = 0) : readerSkip d = .ok d := by
  unfold readerSkip
  dsimp only
  rw [if_neg (not_lt.mpr h.ge), if_neg (not_lt.mpr h.le)]

variable (env ws) in
/-- The reader of an untouched connection up to its last loop. -/
theorem readerFront_untouched (h : Untouched c) (hskip : 0 ≤ skip)
    (hfits : (x ++ r).length < 2 ^ 31) :
    readerFront (clientMethods env) (c.holding ws x skip) [r] =
      if skip ≤ (x ++ r).length then .ok (c.holding ws (x ++ r) 0)
      else .error (.ok ⟨c.holding ws (x ++ r) skip, 0, []⟩) := by
  have hc := h.holding ws (x ++ r) skip
  have hfill : readerFill (c.holding ws x skip) [r] = c.holding ws (x ++ r) skip := by
    have hin : ¬ ((c.holding ws x skip).crypto.isSome ∨
        (c.holding ws x skip).transportMode = .httpStream) := by
      rw [(h.holding ws x skip).crypto, (h.holding ws x skip).mode]
      decide
    unfold readerFill
    rw [if_neg hin, List.flatten_singleton]
    rfl
  have hdecode : readerDecode (clientMethods env) (c.holding ws (x ++ r) skip) =
      .ok (c.holding ws (x ++ r) skip) := by
    unfold readerDecode
    rw [if_neg (by rw [hc.crypto]; decide), if_neg (by rw [hc.mode]; decide)]
  have hflags : readerFlags (c.holding ws (x ++ r) skip) = .ok (c.holding ws (x ++ r) skip) := by
    unfold readerFlags
    rw [if_neg (by rw [hc.failed, hc.error, hc.netFailed]; decide),
      if_neg (by rw [hc.stopRead]; decide)]
  have htotal : totalBytes (x ++ r) = (x ++ r).length := wrap32_of_fits (by omega) (by omega)
  unfold readerFront
  rw [hfill, hdecode]
  show (readerFlags (c.holding ws (x ++ r) skip)).bind readerSkip = _
  rw [hflags]
  show readerSkip (c.holding ws (x ++ r) skip) = _
  rcases hskip.lt_or_eq with hpos | hzero
  · rw [readerSkip_of_pos (d := c.holding ws (x ++ r) skip) hpos,
      show totalBytes (c.holding ws (x ++ r) skip).inp = (x ++ r).length from htotal]
    rfl
  · rw [← hzero, if_pos (Int.natCast_nonneg _)]
    exact readerSkip_of_zero rfl

/-- A read that brings too little. -/
theorem readOne_short (h : Untouched c) (hskip : 0 ≤ skip) (hfits : (x ++ r).length < 2 ^ 31)
    (hshort : ¬ skip ≤ (x ++ r).length) :
    readOne env (.ok (c.holding ws x skip)) (r, n) = .ok (c.holding ws (x ++ r) skip) := by
  show (jobRun (clientMethods env) (c.holding ws x skip) [r] (n + 1)).map ReaderResult.conn = _
  rw [jobRun_of_live (h.holding ws x skip).error, cpuTcpServerReader,
    readerFront_untouched _ _ h hskip hfits, if_neg hshort]
  rfl

/-- A read that brings enough is a read by which nothing was waited for. -/
theorem readOne_enough (h : Untouched c) (hskip : 0 ≤ skip) (hfits : (x ++ r).length < 2 ^ 31)
    (henough : skip ≤ (x ++ r).length) :
    readOne env (.ok (c.holding ws x skip)) (r, n) =
      readOne env (.ok (c.holding ws x 0)) (r, n) := by
  show (jobRun (clientMethods env) (c.holding ws x skip) [r] (n + 1)).map ReaderResult.conn =
    (jobRun (clientMethods env) (c.holding ws x 0) [r] (n + 1)).map ReaderResult.conn
  rw [jobRun_of_live (h.holding ws x skip).error, jobRun_of_live (h.holding ws x 0).error,
    cpuTcpServerReader, cpuTcpServerReader, readerFront_untouched _ _ h hskip hfits,
    readerFront_untouched _ _ h (le_refl 0) hfits, if_pos henough, if_pos (Int.natCast_nonneg _)]

/-- The parser is called, unless there is nothing to read. -/
theorem readerStops_untouched (h : Untouched c) (hfits : x.length < 2 ^ 31) :
    ReaderStops (c.holding ws x 0) ↔ x = [] := by
  have hc := h.holding ws x 0
  have htotal : totalBytes x = x.length := wrap32_of_fits (by omega) (by omega)
  constructor
  · intro hstops
    rcases hstops with hs | hs | hs | hs | hs | hs | hs
    · exact absurd rfl hs
    · rw [hc.error] at hs
      exact absurd hs (by decide)
    · rw [hc.failed] at hs
      exact absurd hs (by decide)
    · rw [hc.netFailed] at hs
      exact absurd hs (by decide)
    · rw [hc.stopRead] at hs
      exact absurd hs (by decide)
    · exact absurd hs hc.status
    · have hzero : (x.length : ℤ) = 0 := htotal ▸ hs
      exact List.length_eq_zero_iff.mp (by omega)
  · rintro rfl
    exact Or.inr (Or.inr (Or.inr (Or.inr (Or.inr (Or.inr htotal)))))

/-- A read whose first call of the parser changes nothing. -/
theorem readOne_unchanged (h : Untouched c) (hfits : (x ++ r).length < 2 ^ 31) {res : ℤ}
    (hres : res = NEED_MORE_BYTES ∨ 0 < res ∧ res < NEED_MORE_BYTES)
    (hparse : parseStages env (c.holding ws (x ++ r) 0) =
      .error (.ret (c.holding ws (x ++ r) 0) res)) :
    ∃ skip, (skip = 0 ∨ skip = res ∧ res < NEED_MORE_BYTES) ∧
      readOne env (.ok (c.holding ws x 0)) (r, n) = .ok (c.holding ws (x ++ r) skip) := by
  have hfront := readerFront_untouched env ws h (le_refl 0) hfits
  rw [if_pos (Int.natCast_nonneg _)] at hfront
  have hrun : readOne env (.ok (c.holding ws x 0)) (r, n) =
      (cpuTcpServerReader (clientMethods env) (c.holding ws x 0) [r] (n + 1)).map
        ReaderResult.conn := by
    show (jobRun (clientMethods env) (c.holding ws x 0) [r] (n + 1)).map _ = _
    rw [jobRun_of_live (h.holding ws x 0).error]
  rw [hrun]
  by_cases hstops : ReaderStops (c.holding ws (x ++ r) 0)
  · refine ⟨0, Or.inl rfl, ?_⟩
    rw [cpuTcpServerReader_of_done hfront (readerTurn_of_stops hstops)]
    rfl
  · have hcall : (clientMethods env).parseExecute (c.holding ws (x ++ r) 0) =
        .ok (c.holding ws (x ++ r) 0, res) := by
      show clientParseExecute env (c.holding ws (x ++ r) 0) = _
      unfold clientParseExecute
      rw [(h.holding ws (x ++ r) 0).type]
      exact tcpRpcsCompactParseExecute_of_error env hparse
    rcases hres with rfl | ⟨hpos, hlt⟩
    · refine ⟨0, Or.inl rfl, ?_⟩
      rw [cpuTcpServerReader_of_done hfront (readerTurn_of_needMore hstops hcall)]
      rfl
    · refine ⟨res, Or.inr ⟨rfl, hlt⟩, ?_⟩
      have hskip : skipAfter (c.holding ws (x ++ r) 0) res = res := by
        have hin : (c.holding ws (x ++ r) 0).inU = [] := h.inU
        unfold skipAfter
        rw [(h.holding ws (x ++ r) 0).crypto, hin]
        show (if res < 0 then _ else wrap32 (res + wrap32 0)) = res
        unfold NEED_MORE_BYTES at hlt
        rw [if_neg (by omega), wrap32_of_fits (x := 0) (by norm_num) (by norm_num), add_zero,
          wrap32_of_fits (by omega) (by omega)]
      rw [cpuTcpServerReader_of_done hfront (readerTurn_of_skip hstops hcall (by omega) hlt.ne),
        hskip]
      rfl

/-- Two connections the parser makes the same of. -/
theorem readOne_congr {c' : Conn W} {ws' : WsState} {x' r' : Bytes} (h : Untouched c)
    (h' : Untouched c') (hfits : (x ++ r).length < 2 ^ 31) (hfits' : (x' ++ r').length < 2 ^ 31)
    (hne : x ++ r ≠ []) (hne' : x' ++ r' ≠ [])
    (hparse : parseStages env (c.holding ws (x ++ r) 0) =
      parseStages env (c'.holding ws' (x' ++ r') 0)) :
    readOne env (.ok (c.holding ws x 0)) (r, n) =
      readOne env (.ok (c'.holding ws' x' 0)) (r', n) := by
  have hcall : (clientMethods env).parseExecute (c.holding ws (x ++ r) 0) =
      (clientMethods env).parseExecute (c'.holding ws' (x' ++ r') 0) := by
    show clientParseExecute env _ = clientParseExecute env _
    unfold clientParseExecute
    rw [(h.holding ws (x ++ r) 0).type, (h'.holding ws' (x' ++ r') 0).type]
    show tcpRpcsCompactParseExecute env _ = tcpRpcsCompactParseExecute env _
    cases hstages : parseStages env (c'.holding ws' (x' ++ r') 0) with
    | ok d =>
      rw [tcpRpcsCompactParseExecute_of_ok env (hparse.trans hstages),
        tcpRpcsCompactParseExecute_of_ok env hstages]
    | error exit =>
      rw [tcpRpcsCompactParseExecute_of_error env (hparse.trans hstages),
        tcpRpcsCompactParseExecute_of_error env hstages]
  have hturn : readerTurn (clientMethods env) (c.holding ws (x ++ r) 0, []) =
      readerTurn (clientMethods env) (c'.holding ws' (x' ++ r') 0, []) := by
    unfold readerTurn
    dsimp only
    rw [if_neg (fun hs => hne ((readerStops_untouched h hfits).mp hs)),
      if_neg (fun hs => hne' ((readerStops_untouched h' hfits').mp hs)), hcall]
  have hloop : loopFor (readerTurn (clientMethods env)) (n + 1) (c.holding ws (x ++ r) 0, []) =
      loopFor (readerTurn (clientMethods env)) (n + 1) (c'.holding ws' (x' ++ r') 0, []) := by
    unfold loopFor
    rw [hturn]
  show (jobRun (clientMethods env) (c.holding ws x 0) [r] (n + 1)).map ReaderResult.conn =
    (jobRun (clientMethods env) (c'.holding ws' x' 0) [r'] (n + 1)).map ReaderResult.conn
  rw [jobRun_of_live (h.holding ws x 0).error, jobRun_of_live (h'.holding ws' x' 0).error,
    cpuTcpServerReader, cpuTcpServerReader, readerFront_untouched _ _ h (le_refl 0) hfits,
    readerFront_untouched _ _ h' (le_refl 0) hfits', if_pos (Int.natCast_nonneg _),
    if_pos (Int.natCast_nonneg _)]
  dsimp only
  rw [hloop]

/-- A read that leaves a connection idle. -/
theorem readOne_idle (h : Untouched c) (hskip : Patient env c x skip)
    (hfits : (x ++ r).length < 2 ^ 31) (hidle : Idle env c (x ++ r)) :
    ∃ skip', Patient env c (x ++ r) skip' ∧
      readOne env (.ok (c.holding .none x skip)) (r, n) =
        .ok (c.holding .none (x ++ r) skip') := by
  by_cases henough : skip ≤ (x ++ r).length
  · obtain ⟨res, hstages, hres⟩ := parse_idle (h.holding .none (x ++ r) 0) rfl hidle
    obtain ⟨skip', hskip', hread⟩ := readOne_unchanged (n := n) h hfits
      (hres.imp_right fun hr => ⟨hr.1, hr.2.1⟩) hstages
    rw [readOne_enough h hskip.1 hfits henough]
    refine ⟨skip', ?_, hread⟩
    rcases hskip' with rfl | ⟨rfl, hlt⟩
    · exact .zero c _
    · rcases hres with rfl | ⟨-, -, hpatient⟩
      · exact absurd hlt (lt_irrefl _)
      · exact hpatient
  · exact ⟨skip, hskip.append r, readOne_short h hskip.1 hfits henough⟩

/-- A read that is waited for by the detector. -/
theorem readOne_waiting (h : Untouched c) (hfits : (x ++ r).length < 2 ^ 31)
    (hwait : Waiting (x ++ r)) :
    readOne env (.ok (c.holding .handshake x 0)) (r, n) =
      .ok (c.holding .handshake (x ++ r) 0) := by
  have hstages : parseStages env (c.holding .handshake (x ++ r) 0) =
      .error (.ret (c.holding .handshake (x ++ r) 0) NEED_MORE_BYTES) := by
    unfold parseStages
    rw [detect_waiting rfl hwait]
    rfl
  obtain ⟨skip', hskip', hread⟩ := readOne_unchanged (n := n) h hfits (Or.inl rfl) hstages
  rcases hskip' with rfl | ⟨-, hlt⟩
  · exact hread
  · exact absurd hlt (lt_irrefl _)

/-- A read with which the detector lets the client pass. -/
theorem readOne_passes (h : Untouched c) (hfits : (x ++ r).length < 2 ^ 31)
    (hwait : ¬ Waiting (x ++ r)) (hrequest : ¬ StartsRequest (x ++ r)) :
    readOne env (.ok (c.holding .handshake x 0)) (r, n) =
      readOne env (.ok (c.holding .none x 0)) (r, n) := by
  have hne : x ++ r ≠ [] := by
    intro hnil
    rw [hnil] at hwait
    exact hwait (Or.inl (by decide))
  refine readOne_congr h h hfits hfits hne hne ?_
  have hpass : detect env.acceptKey (c.holding .handshake (x ++ r) 0) =
      .ok (c.holding .none (x ++ r) 0) := detect_passes_other rfl hwait hrequest
  have hnone : detect env.acceptKey (c.holding .none (x ++ r) 0) =
      .ok (c.holding .none (x ++ r) 0) :=
    detect_of_ne (show (WsState.none : WsState) ≠ .handshake from WsState.noConfusion)
  unfold parseStages
  rw [hpass, hnone]

/-! ### Side by side -/

variable (env c x) in
/-- A connection that holds these bytes and has done nothing with them, behind the detector or in
front of it. -/
inductive Undecided : Except ReaderFault (Conn W) → Prop
  | idle {skip : ℤ} (hskip : Patient env c x skip) : Undecided (.ok (c.holding .none x skip))
  | waiting : Undecided (.ok (c.holding .handshake x 0))

variable {s : Except ReaderFault (Conn W)}

/-- The detector keeps what this read brings from the other stages. -/
def Keeps (s : Except ReaderFault (Conn W)) (r : Bytes) : Prop :=
  ∃ c, s = .ok c ∧ c.wsState = .handshake ∧ Waiting (c.inp ++ r)

/-- The detector finds no request, where this read brings enough for it to decide. -/
def FindsNoRequest (s : Except ReaderFault (Conn W)) (r : Bytes) : Prop :=
  ∀ c, s = .ok c → c.wsState = .handshake → ¬ Waiting (c.inp ++ r) → ¬ StartsRequest (c.inp ++ r)

theorem Undecided.inp (hs : Undecided env c x s) {d : Conn W} (hd : s = .ok d) : d.inp = x := by
  cases hs with
  | idle hskip =>
    rw [← Except.ok.inj hd]
    rfl
  | waiting =>
    rw [← Except.ok.inj hd]
    rfl

/-- What the detector keeps is only received. -/
theorem Undecided.of_keeps (hs : Undecided env c x s) (h : Untouched c)
    (hfits : (x ++ r).length < 2 ^ 31) (hkeeps : Keeps s r) :
    readOne env s (r, n) = .ok (c.holding .handshake (x ++ r) 0) := by
  obtain ⟨d, hd, hws, hwait⟩ := hkeeps
  cases hs with
  | idle hskip =>
    rw [← Except.ok.inj hd] at hws
    exact WsState.noConfusion hws
  | waiting =>
    rw [← Except.ok.inj hd] at hwait
    exact readOne_waiting h hfits hwait

/-- As long as there is nothing to act on, it stays so. -/
theorem Undecided.of_idle (hs : Undecided env c x s) (h : Untouched c)
    (hfits : (x ++ r).length < 2 ^ 31) (hrequest : FindsNoRequest s r)
    (hidle : Idle env c (x ++ r)) : Undecided env c (x ++ r) (readOne env s (r, n)) := by
  cases hs with
  | idle hskip =>
    obtain ⟨skip', hskip', hread⟩ := readOne_idle (n := n) h hskip hfits hidle
    rw [hread]
    exact .idle hskip'
  | waiting =>
    by_cases hwait : Waiting (x ++ r)
    · rw [readOne_waiting h hfits hwait]
      exact .waiting
    · obtain ⟨skip', hskip', hread⟩ := readOne_idle (n := n) h (.zero c x) hfits hidle
      rw [readOne_passes h hfits hwait (hrequest _ rfl rfl hwait), hread]
      exact .idle hskip'

/-- Once there is, and the detector lets pass, all that was not waited for makes no difference. -/
theorem Undecided.of_acts (hs : Undecided env c x s) (h : Untouched c)
    (hfits : (x ++ r).length < 2 ^ 31) (hrequest : FindsNoRequest s r)
    (hact : ¬ Idle env c (x ++ r)) (hkeeps : ¬ Keeps s r) :
    readOne env s (r, n) = readOne env (.ok (c.holding .none x 0)) (r, n) := by
  cases hs with
  | idle hskip => exact readOne_enough h hskip.1 hfits (hskip.2.2 r hact)
  | waiting =>
    have hwait : ¬ Waiting (x ++ r) := fun hwait => hkeeps ⟨_, rfl, rfl, hwait⟩
    exact readOne_passes h hfits hwait (hrequest _ rfl rfl hwait)

/-- What a connection has come to, apart from where the detector is and how many bytes the reader
waits for. -/
def Conn.settled (c : Conn W) : Conn W :=
  { c with
    wsState := if c.wsState = .handshake then .none else c.wsState
    skipBytes := 0 }

/-- Two connections have come to the same, or the process has ended in the same way. -/
def SameBehaviour (s : Except ReaderFault (Conn W) × Except ReaderFault (Conn W)) : Prop :=
  s.1.map Conn.settled = s.2.map Conn.settled

theorem Undecided.settled (hs : Undecided env c x s) :
    s.map Conn.settled = .ok (c.holding .none x 0) := by
  cases hs with
  | idle hskip => rfl
  | waiting => rfl

end Read

section Run

variable (env : ExtServerEnv W)

/-- One read of both connections. -/
def bothStep (s : Except ReaderFault (Conn W) × Except ReaderFault (Conn W)) (e : Bytes × ℕ) :
    Except ReaderFault (Conn W) × Except ReaderFault (Conn W) :=
  (readOne env s.1 e, readOne env s.2 e)

/-- The detector, where it asks for more, keeps nothing from the other stages that they would act
on, and what is held is counted by an `int`. -/
def WaitsHarmlessly (s : Except ReaderFault (Conn W) × Except ReaderFault (Conn W))
    (e : Bytes × ℕ) : Prop :=
  ∀ c, s.2 = .ok c → (c.inp ++ e.1).length < 2 ^ 31 ∧
    (c.wsState = .handshake → Waiting (c.inp ++ e.1) → Idle env c (c.inp ++ e.1))

/-- A connection that has just been accepted is untouched. -/
theorem accepted_untouched (proxyProtocolEnabled : Bool) (remote : RemoteAddr) (ourPort : ℕ)
    (world : W) : Untouched (tcpRpcsExtInitAccepted env proxyProtocolEnabled
      (Conn.allocated remote ourPort world)) :=
  ⟨rfl, rfl, rfl, rfl, rfl, rfl, ConnStatus.noConfusion, rfl, rfl, rfl, rfl, rfl, rfl⟩

/-- Two connections that are the same stay the same. -/
theorem bothStep_same {s : Except ReaderFault (Conn W) × Except ReaderFault (Conn W)}
    (h : s.1 = s.2) (es : List (Bytes × ℕ)) : Throughout (bothStep env) SameBehaviour s es := by
  induction es generalizing s with
  | nil =>
    show s.1.map _ = s.2.map _
    rw [h]
  | cons e es ih =>
    refine ⟨?_, ih ?_⟩
    · show s.1.map _ = s.2.map _
      rw [h]
    · show readOne env s.1 e = readOne env s.2 e
      rw [h]

/-- What starts no request starts with none. -/
theorem not_startsRequest {x y : Bytes} (hget : ¬ ascii "GET" <+: x ++ y)
    (hpost : ¬ ascii "POST" <+: x ++ y) : ¬ StartsRequest x := by
  rintro ⟨-, h | h⟩
  · exact hpost ((h ▸ List.take_prefix 4 x).trans (List.prefix_append x y))
  · exact hget ((h ▸ List.take_prefix 3 x).trans (List.prefix_append x y))

variable {env} in
/-- What the condition says about a connection that has done nothing yet. -/
theorem WaitsHarmlessly.of_undecided {c : Conn W} {x r : Bytes} {n : ℕ}
    {s : Except ReaderFault (Conn W) × Except ReaderFault (Conn W)}
    (h : WaitsHarmlessly env s (r, n)) (hs : Undecided env c x s.2) :
    (x ++ r).length < 2 ^ 31 ∧ (Keeps s.2 r → Idle env c (x ++ r)) := by
  obtain ⟨t, u⟩ := s
  cases hs with
  | idle hskip =>
    refine ⟨(h _ rfl).1, fun ⟨d, hd, hws, _⟩ => ?_⟩
    rw [← Except.ok.inj hd] at hws
    exact WsState.noConfusion hws
  | waiting =>
    refine ⟨(h _ rfl).1, fun ⟨d, hd, _, hwait⟩ => ?_⟩
    rw [← Except.ok.inj hd] at hwait
    exact (h _ rfl).2 rfl hwait

variable {env} in
/-- Two connections that have done nothing yet, one of them behind the detector. -/
theorem Undecided.sameBehaviour {c : Conn W} (h : Untouched c) {x : Bytes} {skip : ℤ}
    {s : Except ReaderFault (Conn W)} (hskip : Patient env c x skip) (hs : Undecided env c x s)
    {es : List (Bytes × ℕ)}
    (hget : ¬ ascii "GET" <+: x ++ (es.map Prod.fst).flatten)
    (hpost : ¬ ascii "POST" <+: x ++ (es.map Prod.fst).flatten)
    (hcond : Along (bothStep env) (WaitsHarmlessly env) (.ok (c.holding .none x skip), s) es) :
    Throughout (bothStep env) SameBehaviour (.ok (c.holding .none x skip), s) es := by
  induction es generalizing x s skip with
  | nil => exact hs.settled.symm
  | cons e es ih =>
    obtain ⟨r, n⟩ := e
    obtain ⟨hharmless, hrest⟩ := hcond
    rw [List.map_cons, List.flatten_cons, ← List.append_assoc] at hget hpost
    have hrequest : FindsNoRequest s r := by
      intro d hd _ _
      rw [hs.inp hd]
      exact not_startsRequest hget hpost
    obtain ⟨hfits, hwaits⟩ := hharmless.of_undecided hs
    refine ⟨hs.settled.symm, ?_⟩
    by_cases hidle : Idle env c (x ++ r)
    · -- There is still nothing to act on.
      obtain ⟨skip', hskip', hread⟩ := readOne_idle (n := n) h hskip hfits hidle
      have hstep : bothStep env (.ok (c.holding .none x skip), s) (r, n) =
          (.ok (c.holding .none (x ++ r) skip'), readOne env s (r, n)) :=
        Prod.ext hread rfl
      rw [hstep] at hrest ⊢
      exact ih hskip' (hs.of_idle h hfits hrequest hidle) hget hpost hrest
    · -- Both come to act on what this read has brought.
      refine bothStep_same env ?_ es
      show readOne env (.ok (c.holding .none x skip)) (r, n) = readOne env s (r, n)
      rw [readOne_enough h hskip.1 hfits (hskip.2.2 r hidle),
        hs.of_acts h hfits hrequest hidle fun hkeeps => hidle (hwaits hkeeps)]

/-- **The detector makes no difference** to a client whose stream begins with neither `GET` nor
`POST`, in every run of reads in which it asks for more only as long as no other stage has enough
to act on. -/
theorem probeRun_transparent (proxyProtocolEnabled : Bool) (remote : RemoteAddr) (ourPort : ℕ)
    (world : W) (es : List (Bytes × ℕ)) (hget : ¬ ascii "GET" <+: (es.map Prod.fst).flatten)
    (hpost : ¬ ascii "POST" <+: (es.map Prod.fst).flatten)
    (hcond : Along (bothStep env) (WaitsHarmlessly env)
      (.ok { tcpRpcsExtInitAccepted env proxyProtocolEnabled
          (Conn.allocated remote ourPort world) with wsState := .none },
        .ok (tcpRpcsExtInitAccepted env proxyProtocolEnabled
          (Conn.allocated remote ourPort world))) es) :
    Throughout (bothStep env) SameBehaviour
      (.ok { tcpRpcsExtInitAccepted env proxyProtocolEnabled
          (Conn.allocated remote ourPort world) with wsState := .none },
        .ok (tcpRpcsExtInitAccepted env proxyProtocolEnabled
          (Conn.allocated remote ourPort world))) es := by
  have h := accepted_untouched env proxyProtocolEnabled remote ourPort world
  exact Undecided.sameBehaviour h (.zero _ []) .waiting hget hpost hcond

/-- The condition of `probeRun_transparent` is met by a client whose first line is over, twice, at
once. -/
theorem probeRun_transparent_line :
    Throughout (bothStep sampleServer) SameBehaviour
      (.ok { sampleAccepted with wsState := .none }, .ok sampleAccepted)
      [([13, 10, 13], 0), (10 :: List.replicate 60 1, 0)] := by
  have h := accepted_untouched sampleServer false ⟨0x7f000001, [], 50000, false⟩ 443 ()
  refine probeRun_transparent sampleServer false ⟨0x7f000001, [], 50000, false⟩ 443 () _
    (by decide) (by decide) ⟨?_, ?_, trivial⟩
  · intro c hc
    obtain rfl := Except.ok.inj hc
    exact ⟨by decide, fun _ _ => Or.inl (by decide)⟩
  · -- The first three bytes are waited for.
    have hread : readOne sampleServer (.ok sampleAccepted) ([13, 10, 13], 0) =
        .ok (sampleAccepted.holding .handshake [13, 10, 13] 0) :=
      readOne_waiting (x := []) h (by decide) (by decide)
    intro c hc
    obtain rfl := Except.ok.inj (hread.symm.trans hc)
    exact ⟨by decide, fun _ hwait => absurd hwait (by decide)⟩

/-- **The detector makes a difference.**  A plain client sends its 64 bytes, in which no line ends:
without the detector they are looked at at once, with it they are not. -/
theorem probeRun_not_transparent :
    ¬ ascii "GET" <+: List.replicate 64 (1 : UInt8) ∧
      ¬ ascii "POST" <+: List.replicate 64 (1 : UInt8) ∧
      ¬ Throughout (bothStep sampleServer) SameBehaviour
        (.ok { sampleAccepted with wsState := .none }, .ok sampleAccepted)
        [(List.replicate 64 1, 0)] := by
  refine ⟨by decide, by decide, fun hall => ?_⟩
  have h := accepted_untouched sampleServer false ⟨0x7f000001, [], 50000, false⟩ 443 ()
  have hwaits : readOne sampleServer (.ok sampleAccepted) (List.replicate 64 1, 0) =
      .ok (sampleAccepted.holding .handshake (List.replicate 64 1) 0) :=
    readOne_waiting (x := []) h (by decide) (by decide)
  obtain ⟨c, hacts, hlog⟩ : ∃ c, readOne sampleServer
      (.ok { sampleAccepted with wsState := .none }) (List.replicate 64 1, 0) = .ok c ∧
        c.log = [.obfs2Header (List.replicate 64 1)] := by
    obtain ⟨c, hstages, hlog⟩ : ∃ c, parseStages sampleServer
        (sampleAccepted.holding .none (List.replicate 64 1) 0) = .error (.ret c GLOBAL_SKIP) ∧
          c.log = [.obfs2Header (List.replicate 64 1)] := ⟨_, rfl, rfl⟩
    have hparse : (clientMethods sampleServer).parseExecute
        (sampleAccepted.holding .none (List.replicate 64 1) 0) = .ok (c, GLOBAL_SKIP) :=
      tcpRpcsCompactParseExecute_of_error sampleServer hstages
    have hturn : readerTurn (clientMethods sampleServer)
        (sampleAccepted.holding .none (List.replicate 64 1) 0, []) = _ :=
      readerTurn_of_skip (by decide) hparse (by decide) (by decide)
    have hfront := readerFront_untouched sampleServer .none (x := [])
      (r := List.replicate 64 1) h (le_refl 0) (by decide)
    refine ⟨{ c with skipBytes := skipAfter c GLOBAL_SKIP }, ?_, hlog⟩
    exact congrArg (Except.map ReaderResult.conn) (cpuTcpServerReader_of_done hfront hturn 0)
  have hsame : (readOne sampleServer (.ok { sampleAccepted with wsState := .none })
      (List.replicate 64 1, 0)).map Conn.settled =
      (readOne sampleServer (.ok sampleAccepted) (List.replicate 64 1, 0)).map Conn.settled :=
    hall.2
  rw [hacts, hwaits] at hsame
  have hlogs : c.log = [] := congrArg Conn.log (Except.ok.inj hsame)
  rw [hlog] at hlogs
  exact absurd hlogs (by decide)

end Run

end Server
end Teleproto3
