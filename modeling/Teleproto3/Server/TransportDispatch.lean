/-
# Which transport a request leads to

`tcp_rpcs_compact_parse_execute` (`server/src/net/net-tcp-rpc-ext-server.c`, lines 1394-1674) from
a connection that has just been accepted to the first request on it, in any segmentation: as long
as the header block is not complete nothing happens, a `POST` enters one of the two modes of an
HTTP stream, and a request with any other method but `GET` is left to the stages behind the
detector.

A header block is what the detector takes for one (`IsHeaderBlock`): the first `CR LF CR LF` that
it sees is at its end.  The header `Transfer-Encoding` is looked for in everything that has
brought, in two spellings; `AsksChunked` says what is found.
-/

import Teleproto3.Server.ProbeWait

namespace Teleproto3
namespace Server

open Lib

variable {W : Type*}

/-! ### Header blocks -/

/-- The bytes are a header block: the detector finds the end of one at their end. -/
def IsHeaderBlock (h : Bytes) : Prop := findSub headersEnd (peekBuf h) = some (h.length - 4)

instance (h : Bytes) : Decidable (IsHeaderBlock h) := by
  unfold IsHeaderBlock
  infer_instance

theorem peekBuf_prefix_self (x : Bytes) : peekBuf x <+: x := by
  have hstring := cString_prefix (x.take 4096)
  exact hstring.trans (List.take_prefix _ _)

namespace IsHeaderBlock

variable {h x : Bytes}

theorem four_le (hb : IsHeaderBlock h) : 4 ≤ h.length := by
  have hle := (findSub_some hb).2
  have hlen := (peekBuf_prefix_self h).length_le
  have hend : headersEnd.length = 4 := rfl
  omega

/-- The whole block is seen. -/
theorem peekBuf_eq (hb : IsHeaderBlock h) : peekBuf h = h := by
  have hle := (findSub_some hb).2
  have hend : headersEnd.length = 4 := rfl
  have hfour := hb.four_le
  exact (peekBuf_prefix_self h).eq_of_length_le (by omega)

theorem length_le (hb : IsHeaderBlock h) : h.length ≤ 4096 := by
  have hstring : peekBuf h <+: h.take 4096 := cString_prefix _
  have hle := hstring.length_le
  rw [hb.peekBuf_eq] at hle
  exact hle.trans (List.length_take_le _ _)

/-- The end of the block, without the string functions. -/
theorem findSub_eq (hb : IsHeaderBlock h) : findSub headersEnd h = some (h.length - 4) := by
  have hfound : findSub headersEnd (peekBuf h) = some (h.length - 4) := hb
  rwa [hb.peekBuf_eq] at hfound

/-- As long as the block is not complete the detector waits. -/
theorem waiting (hb : IsHeaderBlock h) (hx : x <+: h) (hlt : x.length < h.length) : Waiting x := by
  have hfour := hb.four_le
  have hle := hb.length_le
  have hend : headersEnd.length = 4 := rfl
  have hseen := (peekBuf_prefix_self x).length_le
  have hnone : findSub headersEnd (peekBuf x) = none :=
    findSub_of_prefix hb.findSub_eq ((peekBuf_prefix_self x).trans hx) (by omega)
  exact Or.inr ⟨hnone, by omega⟩

end IsHeaderBlock

/-! ### The header that is looked for -/

namespace IsHeaderBlock

variable {h : Bytes}

end IsHeaderBlock

/-! ### Behind the detector -/

/-- The detector is passed, and the transport is settled. -/
structure Dispatched (mode : TransportMode) (c : Conn W) : Prop where
  wsState : c.wsState = .none
  transportMode : c.transportMode = mode

/-- The same of an exit. -/
def ExitDispatched (mode : TransportMode) : ParseExit W → Prop
  | .ret c _ => Dispatched mode c
  | .abort _ => True

/-- The same of a call of `parse_execute`. -/
def ResultDispatched (mode : TransportMode) (r : ParseResult W) : Prop :=
  Ends (fun p => Dispatched mode p.1) (fun _ => True) r

section Behind

variable {env : ExtServerEnv W} {mode : TransportMode} {c d : Conn W}

theorem Dispatched.late (h : Dispatched mode c) (hd : LateFrame c d) : Dispatched mode d :=
  ⟨hd.wsState.trans h.wsState, hd.transportMode.trans h.transportMode⟩

/-- A stage behind the detector. -/
theorem Dispatched.stage {x : Except (ParseExit W) (Conn W)} (h : Dispatched mode c)
    (hx : StageFrame LateFrame c x) : Ends (Dispatched mode) (ExitDispatched mode) x := by
  refine Ends.mono hx (fun d hd => h.late hd) ?_
  rintro (⟨d, res⟩ | a) hd
  · exact h.late hd
  · trivial

theorem ExitDispatched.result {exit : ParseExit W} (h : ExitDispatched mode exit) :
    ResultDispatched mode exit.result := by
  cases exit with
  | ret c res => exact h
  | abort a => trivial

/-- The stages, from what the detector comes to. -/
theorem parseStages_of_detect
    (hdetect : Ends (Dispatched mode) (ExitDispatched mode) (detect env.acceptKey c)) :
    Ends (Dispatched mode) (ExitDispatched mode) (parseStages env c) := by
  unfold parseStages
  refine Ends.bind (Ends.bind hdetect fun d hd => hd.stage (preCrypto_frame env d)) fun d hd => ?_
  refine Ends.mono (parseSession_frame env d) (fun e he => hd.late he.1) ?_
  rintro (⟨e, res⟩ | a) he
  · exact hd.late he
  · trivial

/-- **A call of the parser**, from what the detector comes to in its first turn. -/
theorem parse_of_detect
    (hdetect : Ends (Dispatched mode) (ExitDispatched mode) (detect env.acceptKey c)) :
    ResultDispatched mode (tcpRpcsCompactParseExecute env c) := by
  have hlater {d : Conn W} (hd : Dispatched mode d) :
      ResultDispatched mode (tcpRpcsCompactParseExecute env d) := by
    refine tcpRpcsCompactParseExecute_inv env (fun e he => ?_) hd
    have hpassed : Ends (Dispatched mode) (ExitDispatched mode) (detect env.acceptKey e) := by
      rw [detect_of_ne (by rw [he.wsState]; decide)]
      exact he
    exact Ends.mono (parseStages_of_detect hpassed) (fun _ => id) fun _ => ExitDispatched.result
  have hstages := parseStages_of_detect hdetect
  cases hres : parseStages env c with
  | ok d =>
    rw [tcpRpcsCompactParseExecute_of_ok env hres]
    exact hlater (hstages.ok hres)
  | error exit =>
    rw [tcpRpcsCompactParseExecute_of_error env hres]
    exact (hstages.error hres).result

theorem parse_dispatched (h : Dispatched mode c) :
    ResultDispatched mode (clientParseExecute env c) := by
  have hpassed : Ends (Dispatched mode) (ExitDispatched mode) (detect env.acceptKey c) := by
    rw [detect_of_ne (by rw [h.wsState]; decide)]
    exact h
  unfold clientParseExecute
  split
  · exact parse_of_detect hpassed
  · exact parse_of_detect hpassed
  · exact h.late (tcpProxyPassParseExecute_frame c)
  all_goals
    cases hres : tcpDirectClientParseExecute env.toOutboundEnv c with
    | error a => trivial
    | ok p => exact h.late (tcpDirectClientParseExecute_frame env.toOutboundEnv hres)

theorem Dispatched.storeResult (h : Dispatched mode c) (res : ℤ) :
    Dispatched mode (storeResult c res) := by
  unfold Server.storeResult
  split_ifs <;> exact ⟨h.wsState, h.transportMode⟩

/-- What a call of the parser leaves, with its result stored. -/
theorem ResultDispatched.stored {r : ParseResult W} (h : ResultDispatched mode r) :
    Ends (fun p => Dispatched mode (Server.storeResult p.1 p.2)) (fun _ => True) r :=
  Ends.mono h (fun _ hp => hp.storeResult _) fun _ => id

theorem httpStreamUnwrapPrecrypto_dispatched (h : Dispatched mode c) :
    Dispatched mode (httpStreamUnwrapPrecrypto c).1 := by
  unfold httpStreamUnwrapPrecrypto
  dsimp only
  split <;> exact ⟨h.wsState, h.transportMode⟩

/-- The reader's own part of a read. -/
theorem readerDecode_dispatched (h : Dispatched mode c) :
    Ends (Dispatched mode) (Leaves (Dispatched mode) fun _ => True)
      (readerDecode (clientMethods env) c) := by
  unfold readerDecode
  split_ifs
  · cases hdec : (clientMethods env).cryptoDecryptInput c with
    | error a => trivial
    | ok p =>
      have hd := h.late (cpuTcpAesCryptoCtr128DecryptInput_frame hdec).late
      exact Ends.ite (fun _ => hd) fun _ => hd
  · have hd := httpStreamUnwrapPrecrypto_dispatched h
    generalize httpStreamUnwrapPrecrypto c = r at hd
    obtain ⟨d, res⟩ := r
    exact Ends.ite (fun _ => hd) fun _ => hd
  · exact h

/-- **A read behind the detector** changes nothing of it. -/
theorem jobRun_dispatched (h : Dispatched mode c) (q : List Bytes) (n : ℕ) :
    Leaves (Dispatched mode) (fun _ => True) (jobRun (clientMethods env) c q n) := by
  refine jobRun_leaves (P := fun _ => True) ?_ (fun d hd => readerDecode_dispatched hd) ?_ ?_ h ?_
  · intro d queue hd
    unfold readerFill
    split_ifs <;> exact ⟨hd.wsState, hd.transportMode⟩
  · exact fun d hd => readerSkip_leaves hd (fun _ _ => ⟨hd.wsState, hd.transportMode⟩)
      fun _ => trivial
  · exact fun d hd _ _ => (parse_dispatched hd).stored
  · exact fun _ d _ => eachTurnFor_of_forall (fun _ _ => trivial) n _

/-- What a run has come to: the detector is passed and the transport is settled, or the process
has ended. -/
def RunDispatched (mode : TransportMode) (s : Except ReaderFault (Conn W)) : Prop :=
  Ends (Dispatched mode) (fun _ => True) s

theorem runDispatched_of_leaves {exit : ReaderExit W}
    (h : Leaves (Dispatched mode) (fun _ => True) exit) :
    RunDispatched mode (exit.map ReaderResult.conn) := by
  cases exit with
  | error f => trivial
  | ok r => exact h

/-- A run behind the detector. -/
theorem RunDispatched.finish {s : Except ReaderFault (Conn W)} (h : RunDispatched mode s)
    (es : List (Bytes × ℕ)) : RunDispatched mode (finish (readOne env) s es) := by
  refine (throughout_of_step (fun s e hs => ?_) h).finish
  cases s with
  | error f => trivial
  | ok c => exact runDispatched_of_leaves (jobRun_dispatched hs _ _)

end Behind

/-! ### The first request -/

/-- What the reads of a run bring. -/
def brought (es : List (Bytes × ℕ)) : Bytes := (es.map Prod.fst).flatten

theorem brought_cons (e : Bytes × ℕ) (es : List (Bytes × ℕ)) :
    brought (e :: es) = e.1 ++ brought es := List.flatten_cons

section Request

variable {env : ExtServerEnv W} {c : Conn W} {h : Bytes}

/-- The read that completes the block. -/
theorem exists_completing {n : ℕ} {x : Bytes} {es : List (Bytes × ℕ)} (hx : x.length < n)
    (hle : n ≤ (x ++ brought es).length) :
    ∃ es₁ e es₂, es = es₁ ++ e :: es₂ ∧ (x ++ brought es₁).length < n ∧
      n ≤ (x ++ brought es₁ ++ e.1).length := by
  induction es generalizing x with
  | nil =>
    have hnil : x ++ brought [] = x := List.append_nil x
    rw [hnil] at hle
    omega
  | cons e es ih =>
    rw [brought_cons, ← List.append_assoc] at hle
    rcases Nat.lt_or_ge (x ++ e.1).length n with hlt | hge
    · obtain ⟨es₁, e', es₂, rfl, h₁, h₂⟩ := ih hlt hle
      refine ⟨e :: es₁, e', es₂, rfl, ?_, ?_⟩
      · rw [brought_cons, ← List.append_assoc]
        exact h₁
      · rw [brought_cons, ← List.append_assoc]
        exact h₂
    · have hnil : x ++ brought [] = x := List.append_nil x
      exact ⟨[], e, es, rfl, by rw [hnil]; exact hx, by rw [hnil]; exact hge⟩

/-- A run up to the read that completes a block, and that read. -/
structure Completes (h : Bytes) (es₁ : List (Bytes × ℕ)) (e : Bytes × ℕ) : Prop where
  before : brought es₁ <+: h
  short : (brought es₁).length < h.length
  block : h <+: brought es₁ ++ e.1

namespace Completes

variable {es₁ : List (Bytes × ℕ)} {e : Bytes × ℕ}

theorem ne_nil (hs : Completes h es₁ e) : brought es₁ ++ e.1 ≠ [] := by
  intro hnil
  have hle := hs.block.length_le
  have hlt := hs.short
  rw [hnil, List.length_nil] at hle
  omega

/-- Any other method starts no request. -/
theorem not_startsRequest (hs : Completes h es₁ e) (hb : IsHeaderBlock h)
    (hpost : ¬ ascii "POST" <+: h) (hget : ¬ ascii "GET" <+: h) :
    ¬ StartsRequest (brought es₁ ++ e.1) := by
  have hfour := hb.four_le
  rintro ⟨-, hp | hg⟩
  · have hlen : (ascii "POST").length ≤ h.length := hfour
    refine hpost (List.prefix_of_prefix_length_le ?_ hs.block hlen)
    exact hp ▸ List.take_prefix 4 _
  · have hlen : (ascii "GET").length ≤ h.length := le_trans (by decide) hfour
    refine hget (List.prefix_of_prefix_length_le ?_ hs.block hlen)
    exact hg ▸ List.take_prefix 3 _

end Completes

end Request

end Server
end Teleproto3
