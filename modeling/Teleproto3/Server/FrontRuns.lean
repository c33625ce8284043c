/-
# Every run of the front end

Packets of clients and of data centres, the jobs they become, connections that open, close and are
freed, and the queue of notifications, in any order.  `answers_separate` says that queries and
answers stay with their clients as long as no client is given an `fd` under which
`get_ext_connection_by_in_fd` still finds an entry.

That can happen: a job of `do_rpcs_execute` keeps its connection from being freed, but
`forward_tcp_query` does not look whether the connection is closed.  If the job runs behind
`mtproto_ext_rpc_close`, it makes an entry that nobody removes, and the next client of the `fd` is
taken for the one before it (`reused_misdirects`).
-/

import Teleproto3.Lib.Runs
import Teleproto3.Server.FrontSound

namespace Teleproto3
namespace Server

open Lib ExtMemory

namespace MtFront

/-- **A client is given an `fd` that has no entry.** -/
def Unclaimed (F : MtFront) : FrontEvent → Prop
  | .opened x => x.type = .client → F.table.getExtConnectionByInFd x.job.fd = .ok none
  | _ => True

instance decidableUnclaimed (F : MtFront) : (ev : FrontEvent) → Decidable (F.Unclaimed ev)
  | .opened x =>
    inferInstanceAs (Decidable (_ → F.table.getExtConnectionByInFd x.job.fd = .ok none))
  | .announced _ | .flagged .. | .received .. | .closed _ | .socketFailed _ | .untargeted _
  | .freed _ | .notify | .execute .. | .process .. => instDecidableTrue

variable {F F' : MtFront} {L : ExtLedger}

/-! ### One event -/

/-- The connection on an `fd`, if something is done with it. -/
theorem onConn_cases (fd : ℕ) (f : FrontConnection → MtFront) :
    F.onConn fd f = F ∨ ∃ x ∈ F.conns, x.job.fd = fd ∧ F.onConn fd f = f x := by
  unfold onConn
  split
  · next x hx =>
    exact .inr ⟨x, List.mem_of_find?_eq_some hx, by simpa using List.find?_some hx, rfl⟩
  · exact .inl rfl

/-- **A connection is opened.** -/
theorem Sound.opened (h : F.Sound L) {x : FrontConnection} (hallowed : F.Allowed (.opened x))
    (hclear : F.Unclaimed (.opened x)) : { F with conns := F.conns ++ [x] }.Sound L := by
  obtain ⟨hfd, -, -, hother⟩ := hallowed
  refine { h with
    held := h.held.opened hfd hother
    owned := fun z hz h0 y hy hclient hyfd => ?_ }
  rcases List.mem_append.mp hy with hy | hy
  · exact h.owned z hz h0 y hy hclient hyfd
  · obtain rfl := List.mem_singleton.mp hy
    have hget := h.holds.getByInFd_live hz h0
    rw [← hyfd, hclear hclient] at hget
    cases hget

/-- **A packet is received.** -/
theorem Sound.received (h : F.Sound L) {x : FrontConnection} (hx : x ∈ F.conns) (msg : Bytes)
    (crowded : Bool) : (F.received x msg crowded).Sound L := by
  unfold MtFront.received
  split
  · next htype =>
    split_ifs
    · exact h
    · exact h.silent (by simp [FrontRecord.asks]) (by simp [FrontRecord.answers])
    · exact { h with held := h.held.more hx rfl htype }
  · split_ifs
    · exact { h with }
    · exact h

/-- **One event** keeps what holds of the front end. -/
theorem Sound.act (h : F.Sound L) {ev : FrontEvent} (hallowed : F.Allowed ev)
    (hclear : F.Unclaimed ev) (hrun : F.act ev = .ok F') : ∃ L', F'.Sound L' := by
  cases ev with
  | opened x =>
    obtain rfl := Except.ok.inj hrun
    exact ⟨L, h.opened hallowed hclear⟩
  | announced fd =>
    obtain rfl := Except.ok.inj hrun
    rcases onConn_cases (F := F) fd _ with heq | ⟨x, hx, rfl, heq⟩
    · exact ⟨L, heq.symm ▸ h⟩
    · obtain ⟨hfresh, hopen⟩ := hallowed x hx rfl
      rw [heq]
      refine ⟨L, { h with
        held := h.held.announced hx hfresh hopen
        owned := h.owned.written (fun y => ?_) fun y => ?_ }⟩ <;>
      · dsimp only
        split_ifs <;> rfl
  | flagged fd flags =>
    obtain rfl := Except.ok.inj hrun
    exact ⟨L, h.setConn fd (fun _ => rfl) (fun _ => rfl) (fun _ => rfl) fun _ => rfl⟩
  | received fd msg crowded =>
    obtain rfl := Except.ok.inj hrun
    rcases onConn_cases (F := F) fd _ with heq | ⟨x, hx, rfl, heq⟩
    · exact ⟨L, heq.symm ▸ h⟩
    · exact ⟨L, heq.symm ▸ h.received hx msg crowded⟩
  | closed fd =>
    obtain rfl := Except.ok.inj hrun
    rcases onConn_cases (F := F) fd _ with heq | ⟨x, hx, rfl, heq⟩
    · exact ⟨L, heq.symm ▸ h⟩
    · rw [heq]
      refine ⟨L, { h with
        held := h.held.closed hx
        owned := h.owned.written (fun y => ?_) fun y => ?_ }⟩ <;>
      · dsimp only
        split_ifs <;> rfl
  | socketFailed fd =>
    obtain rfl := Except.ok.inj hrun
    exact ⟨L, h.setConn fd (fun _ => rfl) (fun _ => rfl) (fun _ => rfl) fun _ => rfl⟩
  | untargeted fd =>
    obtain rfl := Except.ok.inj hrun
    exact ⟨L, h.setConn fd (fun _ => rfl) (fun _ => rfl) (fun _ => rfl) fun _ => rfl⟩
  | freed fd =>
    obtain rfl := Except.ok.inj hrun
    obtain ⟨hclosed, hqueries, -, hns⟩ := hallowed
    exact ⟨L, { h with
      held := h.held.freed hclosed hqueries hns
      owned := fun x hx h0 y hy => h.owned x hx h0 y (List.mem_filter.mp hy).1 }⟩
  | notify =>
    simp only [MtFront.act] at hrun
    split at hrun
    · obtain rfl := Except.ok.inj hrun
      exact ⟨L, h⟩
    · next n ns hns => exact h.runNotificationEvent hns hrun
  | execute i draws =>
    obtain ⟨hfew, htries⟩ := hallowed
    simp only [MtFront.act] at hrun
    split at hrun
    · obtain rfl := Except.ok.inj hrun
      exact ⟨L, h⟩
    · next q hq =>
      have hmade : L.made < 2 ^ 40 := by
        have hcreated := h.holds.created
        unfold ExtLedger.made
        omega
      have hfewer : { F with queries := F.queries.eraseIdx i }.Sound L :=
        { h with held := h.held.fewer fun q' hq' => List.mem_of_mem_eraseIdx hq' }
      exact hfewer.doRpcsExecute (h.held.queried q (List.mem_of_getElem? hq)) hmade
        (fun d hd => htries _ hd d rfl) hrun
  | process i crowded =>
    simp only [MtFront.act] at hrun
    split at hrun
    · obtain rfl := Except.ok.inj hrun
      exact ⟨L, h⟩
    · next p hp =>
      have hfewer : { F with packets := F.packets.eraseIdx i }.Sound L := { h with }
      exact hfewer.processClientPacket hrun

/-- The same of a step, which may end the program. -/
theorem Sound.step (h : F.Sound L) {ev : FrontEvent} (hallowed : F.Allowed ev)
    (hclear : F.Unclaimed ev) : ∃ L', (F.step ev).Sound L' := by
  unfold MtFront.step
  split
  · exact ⟨L, h⟩
  · split
    · next F' hrun => exact h.act hallowed hclear hrun
    · exact ⟨L, { h with }⟩

end MtFront

/-! ### Every run -/

/-- **Answers reach only the client that asked**, in every run in which no client is given an `fd`
that still has an entry. -/
theorem answers_separate (config : FrontConfig) (evs : List FrontEvent)
    (hallowed : Along MtFront.step MtFront.Allowed (.start config) evs)
    (hclear : Along MtFront.step MtFront.Unclaimed (.start config) evs) :
    Throughout MtFront.step (fun F => Separate F.log) (.start config) evs := by
  have hsound : Throughout MtFront.step (fun F => ∃ L, F.Sound L) (.start config) evs := by
    refine throughout_of_along ?_ ⟨_, MtFront.start_sound config⟩ (along_and hallowed hclear)
    rintro F ev ⟨L, h⟩ ⟨hev, hfresh⟩
    exact h.step hev hfresh
  refine hsound.imp ?_
  rintro F ⟨L, h⟩
  exact h.log.separate

/-- A connection to a data centre on 7. -/
def sampleCentre : FrontConnection := { job := ⟨1, 7, 3⟩, type := .dataCentre }

/-- Two clients on 5, one after the other. -/
def sampleFrontClient (job generation : ℕ) : FrontConnection :=
  { job := ⟨job, 5, generation⟩, type := .client }

/-- A query with an `auth_key_id`. -/
def sampleQueryPacket : Bytes := List.replicate 56 1

/-- What is drawn for a query that goes to the data centre. -/
def sampleDraws : QueryDraws := ⟨[some sampleCentre.job], [some sampleCentre.job], some 100, []⟩

/-- The first client asks and is answered; the second comes when the first is gone, and asks. -/
def sampleVisits : List FrontEvent :=
  [.opened sampleCentre, .announced 7, .notify, .opened (sampleFrontClient 2 8),
    .received 5 sampleQueryPacket false, .execute 0 sampleDraws,
    .received 7 (le32 RPC_PROXY_ANS ++ le32 0 ++ le64 4194309 ++ [1, 2, 3, 4]) false,
    .process 0 false, .closed 5, .notify, .freed 5, .opened (sampleFrontClient 3 9),
    .received 5 sampleQueryPacket false, .execute 0 sampleDraws]

theorem answers_separate_sample :
    Throughout MtFront.step (fun F => Separate F.log) (.start {}) sampleVisits ∧
      .answer ⟨2, 5, 8⟩ 4194309 [1, 2, 3, 4] ∈
        (finish MtFront.step (.start {}) sampleVisits).log := by
  refine ⟨answers_separate {} sampleVisits ?_ ?_, ?_⟩
  · decide
  · decide
  · decide

/-- The job of the first client runs behind the notification that the client is closed. -/
def sampleLate : List FrontEvent :=
  [.opened sampleCentre, .announced 7, .notify, .opened (sampleFrontClient 2 8),
    .received 5 sampleQueryPacket false, .closed 5, .notify, .execute 0 sampleDraws, .freed 5,
    .opened (sampleFrontClient 3 9), .received 5 sampleQueryPacket false, .execute 0 sampleDraws]

/-- **A query may be forwarded as another client's**: the second client's goes under the entry of
the first. -/
theorem answers_not_separate :
    Along MtFront.step MtFront.Allowed (.start {}) sampleLate ∧
      ¬ Throughout MtFront.step (fun F => Separate F.log) (.start {}) sampleLate := by
  refine ⟨by decide, fun h => ?_⟩
  obtain ⟨r, hr, hbad⟩ : ∃ r ∈ (finish MtFront.step (.start {}) sampleLate).log,
      r.misdirected = true := by decide
  rw [h.finish.not_misdirected hr] at hbad
  cases hbad

/-! ### Where a client is given an `fd` that has an entry -/

namespace MtFront

variable {F F' : MtFront} {L : ExtLedger} {a : ℕ} {e : ExtEntry}

/-- A query that is sent under an entry of another generation is misdirected. -/
theorem sendQuery_misdirects (h : F.table.Holds L) (hx : (a, e) ∈ L.live) {c : FrontConnection}
    (hgen : e.inGen ≠ c.job.generation) (d : ConnectionJob) (flags : BitVec 32) (data : Bytes) :
    ∃ F', F.sendQuery c d (.cell a) flags data = .ok F' ∧ ∃ r ∈ F'.log, r.misdirected = true := by
  obtain ⟨ex, hload, hex⟩ := h.load hx
  refine ⟨F.record [.query c.job d ex (F.proxyReq c ex flags data)], ?_, _,
    List.mem_append_right _ List.mem_cons_self, ?_⟩
  · rw [sendQuery, load_eq hload]
    rfl
  · have hin : ex.inGen = e.inGen := congrArg ExtConnection.inGen hex
    simpa [FrontRecord.misdirected, hin] using hgen

/-- An entry whose data centre is there is used. -/
theorem reuseOutbound_eq (h : F.table.Holds L) (hx : (a, e) ∈ L.live)
    (hout : 0 < e.outFd ∧ e.outFd < MAX_CONNECTIONS) {d : FrontConnection}
    (hd : F.connectionGetByFdGeneration e.outFd e.outGen = some d) (htarget : d.target = true)
    (authKeyId : UInt64) : ∃ m' L' e', F.reuseOutbound (.cell a) authKeyId =
        .ok ({ F with table := m' }, some d.job) ∧ m'.Holds L' ∧ (a, e') ∈ L'.live ∧
      e'.inGen = e.inGen := by
  obtain ⟨m₁, L₁, hm, hholds, hL₁⟩ := h.setAuthKeyId hx authKeyId
  obtain ⟨e', hx', hgen, hsame⟩ : ∃ e', (a, e') ∈ L₁.live ∧ e'.inGen = e.inGen ∧
      e'.out = e.out := by
    rcases hL₁ with rfl | rfl
    · exact ⟨e, hx, rfl, rfl⟩
    · exact ⟨_, List.mem_map.mpr ⟨(a, e), hx, if_pos rfl⟩, rfl, rfl⟩
  obtain ⟨ex, hload, hex⟩ := hholds.load hx'
  have hfd : ex.outFd = e.outFd :=
    (congrArg ExtConnection.outFd hex).trans (congrArg (fun o => (o.map Prod.fst).getD 0) hsame)
  have hgn : ex.outGen = e.outGen :=
    (congrArg ExtConnection.outGen hex).trans (congrArg (fun o => (o.map Prod.snd).getD 0) hsame)
  have hget : (F.connectionGetByFdGeneration ex.outFd ex.outGen).filter
      FrontConnection.target = some d := by
    rw [hfd, hgn, hd, Option.filter_some, if_pos htarget]
  have hget' : ({ F with table := m₁ }.connectionGetByFdGeneration ex.outFd ex.outGen).filter
      FrontConnection.target = some d := hget
  refine ⟨m₁, L₁, e', ?_, hholds, hx', hgen⟩
  simp only [reuseOutbound, hm, onTable, ok_seq, load_eq hload, insist, hfd, hgn, hout, and_self,
    if_true]
  rw [hfd, hgn] at hget'
  simp only [hget']
  rfl

/-- A client's query goes under the entry of its `fd`. -/
theorem forwardTcpQuery_misdirects (h : F.table.Holds L) (hx : (a, e) ∈ L.live)
    {c : FrontConnection} (hfd : e.inFd = c.job.fd) (h0 : c.job.fd ≠ 0)
    (hgen : e.inGen ≠ c.job.generation) (hout : 0 < e.outFd ∧ e.outFd < MAX_CONNECTIONS)
    {d : FrontConnection} (hd : F.connectionGetByFdGeneration e.outFd e.outGen = some d)
    (htarget : d.target = true) (S : Bool) (draws : QueryDraws) (flags : BitVec 32)
    (authKeyId : UInt64) (data : Bytes) :
    ∃ F', F.forwardTcpQuery c S draws flags authKeyId data = .ok F' ∧
      ∃ r ∈ F'.log, r.misdirected = true := by
  have hget := h.getByInFd_live hx (hfd ▸ h0)
  rw [hfd] at hget
  obtain ⟨m₁, L₁, e', hreuse, hholds, hx', hgen'⟩ := reuseOutbound_eq h hx hout hd htarget authKeyId
  obtain ⟨F', hsend, hr⟩ := sendQuery_misdirects (F := { F with table := m₁ }) hholds hx'
    (hgen' ▸ hgen) d.job (flags ||| (c.flags &&& RPC_F_DROPPED) ||| 0x1000) data
  refine ⟨F', ?_, hr⟩
  simp only [forwardTcpQuery, hget, onTable, ok_seq, hreuse]
  exact hsend

theorem step_of_act (hrunning : F.fault = none) {ev : FrontEvent} (hact : F.act ev = .ok F') :
    F.step ev = F' := by
  unfold step
  rw [hrunning, hact]

/-- **What the condition keeps out**: where a client is given an `fd` that has the entry of another
generation, and the entry leads to a data centre, the client's first query goes under that entry. -/
theorem Sound.reused_misdirects (h : F.Sound L) (hrunning : F.fault = none)
    {x : FrontConnection} (hclient : x.type = .client) (hallowed : F.Allowed (.opened x))
    (hx : (a, e) ∈ L.live) (hfd : e.inFd = x.job.fd) (h0 : x.job.fd ≠ 0)
    (hgen : e.inGen ≠ x.job.generation) {d : FrontConnection}
    (hout : 0 < e.outFd ∧ e.outFd < MAX_CONNECTIONS)
    (hd : F.connectionGetByFdGeneration e.outFd e.outGen = some d) (htarget : d.target = true)
    {msg : Bytes} (hlength : msg.length ≤ MAX_POST_SIZE)
    (hmsg : (forwardMtprotoPacket msg).isSome) (draws : QueryDraws) :
    ¬ Separate (finish MtFront.step F [.opened x, .received x.job.fd msg false,
      .execute F.queries.length draws]).log := by
  have hfree : ∀ y ∈ F.conns, y.job.fd ≠ x.job.fd ∧ y.job.job ≠ x.job.job := hallowed.2.2.2
  have hat : (F.conns ++ [x]).find? (fun y => y.job.fd = x.job.fd) = some x := by
    rw [List.find?_append, List.find?_eq_none.mpr fun y hy => by simpa using (hfree y hy).1]
    simp
  have hinfo : (F.conns ++ [x]).find? (fun y => y.job = x.job) = some x := by
    rw [List.find?_append, List.find?_eq_none.mpr fun y hy => ?_]
    · simp
    · simpa using fun he => (hfree y hy).2 (congrArg ConnectionJob.job he)
  let F₁ : MtFront := { F with conns := F.conns ++ [x] }
  have hrunning₁ : F₁.fault = none := hrunning
  have h₁ : F.step (.opened x) = F₁ := step_of_act hrunning rfl
  let q : QueryJob := ⟨x.job, msg, x.flags &&&
    (RPC_F_QUICKACK ||| RPC_F_DROPPED ||| RPC_F_COMPACT_MEDIUM ||| RPC_F_EXTMODE3)⟩
  let F₂ : MtFront := { F₁ with queries := F.queries ++ [q] }
  have hrunning₂ : F₂.fault = none := hrunning
  have h₂ : F₁.step (.received x.job.fd msg false) = F₂ := by
    have hon : F₁.onConn x.job.fd (fun y => F₁.received y msg false) = F₁.received x msg false := by
      simp only [onConn, F₁, hat]
    have hrec : F₁.received x msg false = F₂ := by
      simp only [MtFront.received, hclient, Nat.not_lt_of_le hlength, if_false, Bool.false_eq_true,
        F₂, q, F₁]
    exact step_of_act hrunning₁ (congrArg Except.ok (hon.trans hrec))
  -- The job runs.
  obtain ⟨m₃, htouch, hholds⟩ := h.holds.touch (c := x.job) hallowed.1
  obtain ⟨⟨flags, authKeyId⟩, hfwd⟩ := Option.isSome_iff_exists.mp hmsg
  let F₃ : MtFront := { F₁ with table := m₃ }
  have hget : F₃.connectionGetByFdGeneration e.outFd e.outGen = some d := by
    obtain ⟨hfound, hgood⟩ := Option.filter_eq_some_iff.mp hd
    refine Option.filter_eq_some_iff.mpr ⟨?_, hgood⟩
    exact List.find?_append.trans (by rw [hfound, Option.some_or])
  obtain ⟨F₄, hforward, hr⟩ := forwardTcpQuery_misdirects (F := F₃) hholds
    ((ExtLedger.touch_live_eq x.job).symm ▸ hx) hfd h0 hgen hout hget htarget
    (F₃.chooseConnection draws.targets).isSome draws (flags ||| q.rpcFlags) authKeyId msg
  have h₄ : F₂.step (.execute F.queries.length draws) = F₄ := by
    have hq : (F.queries ++ [q])[F.queries.length]? = some q := List.getElem?_concat_length
    have hrest : (F.queries ++ [q]).eraseIdx F.queries.length = F.queries := by
      rw [List.eraseIdx_append_of_length_le le_rfl, Nat.sub_self]
      exact List.append_nil _
    have hx : F₁.info q.conn = .ok x := by simp only [info, F₁, q, hinfo]
    refine step_of_act hrunning₂ ?_
    simp only [MtFront.act, F₂, hq, hrest]
    change F₁.doRpcsExecute q draws = .ok F₄
    have htable : F₁.table.lruInsertConn q.conn = .ok m₃ := htouch
    simp only [MtFront.doRpcsExecute, hx, htable, onTable, ok_seq, q, hfwd]
    exact hforward
  intro hsep
  simp only [finish_cons, finish_nil, h₁, h₂, h₄] at hsep
  obtain ⟨r, hr, hbad⟩ := hr
  rw [hsep.not_misdirected hr] at hbad
  cases hbad

end MtFront

end Server
end Teleproto3
