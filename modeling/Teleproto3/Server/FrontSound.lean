/-
# What the jobs of the front end keep

`MtFront.Sound F L` joins the table, the ledger, the references and the log.  Besides, an entry
whose `fd` is now a client's is the entry of that client and not of one before it: this is what
`forward_tcp_query` takes for granted, and what it does not keep by itself.

One lemma for each function of the engine's thread says that the function keeps it.
-/

import Teleproto3.Server.FrontHeld

namespace Teleproto3
namespace Server

open ExtMemory

/-- **The entry of a client's `fd` has the client's generation.** -/
def Owned (conns : List FrontConnection) (L : ExtLedger) : Prop :=
  ∀ x ∈ L.live, x.2.inFd ≠ 0 → ∀ y ∈ conns, y.type = .client → y.job.fd = x.2.inFd →
    y.job.generation = x.2.inGen

variable {F F' : MtFront} {m' : ExtTable} {L L' : ExtLedger} {a : ℕ} {e : ExtEntry}

theorem Owned.within {conns : List FrontConnection} (h : Owned conns L) (hw : L'.Within L) :
    Owned conns L' := by
  intro x' hx' h0 y hy hclient hfd
  obtain ⟨x, hx, -, hxfd, hxgen, -, -⟩ := hw.live x' hx'
  rw [hxfd] at h0 hfd
  rw [hxgen]
  exact h x hx h0 y hy hclient hfd

/-- Writing to a connection does not change whose entries there are. -/
theorem Owned.written {conns : List FrontConnection} (h : Owned conns L)
    {f : FrontConnection → FrontConnection} (hjob : ∀ x, (f x).job = x.job)
    (htype : ∀ x, (f x).type = x.type) : Owned (conns.map f) L := by
  intro x hx h0 y' hy' hclient hfd
  obtain ⟨y, hy, rfl⟩ := List.mem_map.mp hy'
  rw [htype] at hclient
  rw [hjob] at hfd ⊢
  exact h x hx h0 y hy hclient hfd

namespace MtFront

/-- Everything but that each entry has forwarded a query. -/
structure Prepared (F : MtFront) (L : ExtLedger) : Prop where
  holds : F.table.Holds L
  counted : L.Counted
  plain : ∀ x ∈ L.live, x.2.inConnId = 0
  held : Held F.conns F.queries F.notifications L.ready
  owned : Owned F.conns L
  log : LogSound F.log L

/-- **What holds of the front end**, against the ledger of its table. -/
structure Sound (F : MtFront) (L : ExtLedger) : Prop extends F.Prepared L where
  asked : Asked F.log L

theorem start_sound (config : FrontConfig) : (start config).Sound .start where
  holds := ExtTable.empty_holds
  counted := ExtLedger.start_counted
  plain := by simp [ExtLedger.start]
  held := Held.start
  owned := by simp [Owned, ExtLedger.start]
  log := LogSound.start
  asked := by simp [Asked, ExtLedger.start]

/-! ### The parts of a step -/

/-- **Entries go**, the table holds what is left, and the queue may have been read. -/
theorem Sound.lapse_queue (h : F.Sound L) {ns : List NotificationEvent} (hholds : m'.Holds L')
    (hw : L'.Within L) (hmade : L'.made = L.made) (hheld : Held F.conns F.queries ns L'.ready) :
    { F with table := m', notifications := ns }.Sound L' where
  holds := hholds
  counted := h.counted.of_eq hmade hw.issued
  plain x' hx' := by
    obtain ⟨x, hx, -, -, -, hconn, -⟩ := hw.live x' hx'
    rw [hconn]
    exact h.plain x hx
  held := hheld
  owned := h.owned.within hw
  log := h.log.within hw
  asked := h.asked.within hw

/-- Entries go, and the table holds what is left. -/
theorem Sound.lapse (h : F.Sound L) (hholds : m'.Holds L') (hw : L'.Within L)
    (hmade : L'.made = L.made) (hready : L'.ready = L.ready) :
    { F with table := m' }.Sound L' :=
  h.lapse_queue hholds hw hmade (hready.symm ▸ h.held)

/-- What is neither a query nor an answer is recorded. -/
theorem Sound.silent (h : F.Sound L) {rs : List FrontRecord} (hasks : ∀ r ∈ rs, r.asks = none)
    (hanswers : ∀ r ∈ rs, r.answers = none) : (F.record rs).Sound L :=
  { h with
    log := h.log.silent hasks hanswers
    asked := h.asked.append rs }

theorem Sound.notices (h : F.Sound L) (ns : List ExtNotice) :
    (F.record (ns.map .notice)).Sound L := by
  refine h.silent (fun r hr => ?_) fun r hr => ?_ <;>
  · obtain ⟨n, -, rfl⟩ := List.mem_map.mp hr
    rfl

/-- A connection is written to, but not to what others rely on. -/
theorem Sound.setConn (h : F.Sound L) (fd : ℕ) {f : FrontConnection → FrontConnection}
    (hjob : ∀ x, (f x).job = x.job) (htype : ∀ x, (f x).type = x.type)
    (hann : ∀ x, (f x).announced = x.announced) (hclosed : ∀ x, (f x).closed = x.closed) :
    (F.setConn fd f).Sound L := by
  have hkeeps {β : Type} (p : FrontConnection → β) (hp : ∀ x, p (f x) = p x)
      (x : FrontConnection) : p (if x.job.fd = fd then f x else x) = p x := by
    split_ifs
    · exact hp x
    · rfl
  exact { h with
    held := h.held.written (hkeeps _ hjob) (hkeeps _ htype) (hkeeps _ hann) (hkeeps _ hclosed)
    owned := h.owned.written (hkeeps _ hjob) (hkeeps _ htype) }

/-! ### Calls of the table -/

theorem onTable_eq_ok {α : Type} {r : Except ExtFault α} {x : α} :
    onTable r = .ok x ↔ r = .ok x := by
  cases r <;> simp [onTable]

/-- `remove_ext_connection` of a live entry. -/
theorem Sound.removeExtConnection (h : F.Sound L) (hx : (a, e) ∈ L.live) {flags : ℕ}
    (hrun : F.removeExtConnection (.cell a) flags = .ok F') :
    F'.Sound (L.remove a) ∧ F'.conns = F.conns := by
  have hremovable : e.Removable flags := .inr (.inr (h.plain _ hx))
  obtain ⟨m', hm, hholds⟩ := h.holds.remove hx F.connections hremovable
  obtain ⟨x, hcall, hrun⟩ := seq_eq_ok hrun
  obtain rfl := Except.ok.inj (hm.symm.trans (onTable_eq_ok.mp hcall))
  obtain rfl := Except.ok.inj hrun
  exact ⟨(h.lapse hholds (ExtLedger.remove_within a) (ExtLedger.made_remove a) rfl).notices _, rfl⟩

/-- `lru_insert_conn`. -/
theorem Sound.touch (h : F.Sound L) {c : ConnectionJob} (hfd : c.fd < MAX_CONNECTIONS)
    (hrun : F.table.lruInsertConn c = .ok m') : { F with table := m' }.Sound (L.touch c) := by
  obtain ⟨m'', hm, hholds⟩ := h.holds.touch hfd
  obtain rfl := Except.ok.inj (hm.symm.trans hrun)
  exact h.lapse hholds (ExtLedger.touch_within c) (ExtLedger.made_touch c)
    (ExtLedger.touch_ready c)

/-- `get_ext_connection_by_in_fd` finds the entry of an `fd`, or there is none on its circle. -/
theorem found_cases (h : F.table.Holds L) {fd : ℕ} (hfd : fd < MAX_CONNECTIONS)
    {o : Option ExtRef} (hrun : F.table.getExtConnectionByInFd fd = .ok o) :
    o = none ∨ ∃ a e, (a, e) ∈ L.live ∧ e.inFd = fd ∧ fd ≠ 0 ∧ o = some (.cell a) := by
  by_cases hent : ∃ x ∈ L.live, x.2.inFd = fd ∧ fd ≠ 0
  · obtain ⟨⟨a, e⟩, hx, rfl, h0⟩ := hent
    have hget := h.getByInFd_live hx h0
    exact .inr ⟨a, e, hx, rfl, h0, (Except.ok.inj (hget.symm.trans hrun)).symm⟩
  · refine .inl (Except.ok.inj (hrun.symm.trans (h.getByInFd_none hfd ?_)))
    by_cases h0 : fd = 0
    · simp [ExtLedger.ring, h0]
    · exact ExtTable.Holds.ring_inbound_none fun x hx he => hent ⟨x, hx, he, h0⟩

/-! ### Queries -/

/-- **A query is sent under the entry of its client.** -/
theorem Prepared.sendQuery (h : F.Prepared L) (hx : (a, e) ∈ L.live)
    (hasked : ∀ x ∈ L.live, x = (a, e) ∨ ∃ r ∈ F.log, ∃ c, r.asks = some (c, x.2.outConnId))
    {c : FrontConnection} (hfd : e.inFd = c.job.fd) (hgen : e.inGen = c.job.generation)
    {d : ConnectionJob} {flags : BitVec 32} {data : Lib.Bytes}
    (hrun : F.sendQuery c d (.cell a) flags data = .ok F') : F'.Sound L := by
  obtain ⟨ex, hload, hrun⟩ := seq_eq_ok hrun
  obtain ⟨c', hc', hce⟩ := h.holds.load hx
  obtain rfl := Except.ok.inj ((load_eq hc').symm.trans (onTable_eq_ok.mp hload))
  obtain rfl := Except.ok.inj hrun
  refine { h with
    log := h.log.query h.holds.sound hx hfd hgen hce rfl
    asked := fun x hx' => ?_ }
  rcases hasked x hx' with rfl | ⟨r, hr, hask⟩
  · refine ⟨_, List.mem_append_right _ List.mem_cons_self, c.job, ?_⟩
    exact congrArg (fun id => some (c.job, id)) (congrArg ExtConnection.outConnId hce)
  · exact ⟨r, List.mem_append_left _ hr, hask⟩

/-- An entry that was found leads to a data centre, or goes. -/
theorem Sound.reuseOutbound (h : F.Sound L) (hx : (a, e) ∈ L.live) {authKeyId : UInt64}
    {o : Option ConnectionJob} (hrun : F.reuseOutbound (.cell a) authKeyId = .ok (F', o)) :
    ∃ L', F'.Sound L' ∧ F'.conns = F.conns ∧ L'.made = L.made ∧
      (o = none ∨ ∃ e', (a, e') ∈ L'.live ∧ e'.inFd = e.inFd ∧ e'.inGen = e.inGen) := by
  obtain ⟨m₁, L₁, hm, hholds, hL₁⟩ := h.holds.setAuthKeyId hx authKeyId
  obtain ⟨m₂, hset, hrun⟩ := seq_eq_ok hrun
  obtain rfl := Except.ok.inj (hm.symm.trans (onTable_eq_ok.mp hset))
  obtain ⟨hw, hmade, hready, e', hx₁, hfd, hgen⟩ : L₁.Within L ∧ L₁.made = L.made ∧
      L₁.ready = L.ready ∧ ∃ e', (a, e') ∈ L₁.live ∧ e'.inFd = e.inFd ∧ e'.inGen = e.inGen := by
    rcases hL₁ with rfl | rfl
    · exact ⟨.refl, rfl, rfl, e, hx, rfl, rfl⟩
    · refine ⟨ExtLedger.rekey_within authKeyId, ExtLedger.made_rekey authKeyId, rfl,
        { e with authKeyId := authKeyId }, List.mem_map.mpr ⟨(a, e), hx, if_pos rfl⟩, rfl, rfl⟩
  have h₁ := h.lapse hholds hw hmade hready
  obtain ⟨c, -, hrun⟩ := seq_eq_ok hrun
  obtain ⟨_, -, hrun⟩ := seq_eq_ok hrun
  split at hrun
  · obtain ⟨rfl, rfl⟩ := Prod.mk.inj (Except.ok.inj hrun)
    exact ⟨L₁, h₁, rfl, hmade, .inr ⟨e', hx₁, hfd, hgen⟩⟩
  · obtain ⟨F₂, hremove, hrun⟩ := seq_eq_ok hrun
    obtain ⟨rfl, rfl⟩ := Prod.mk.inj (Except.ok.inj hrun)
    obtain ⟨h₂, hconns⟩ := h₁.removeExtConnection hx₁ hremove
    exact ⟨L₁.remove a, h₂, hconns, (ExtLedger.made_remove a).trans hmade, .inl rfl⟩

/-- A connection that carries its own tag is ready. -/
theorem Prepared.ready_of_chosen (h : F.Prepared L) {tries : List (Option ConnectionJob)}
    (htries : ∀ d, some d ∈ tries → ∃ x ∈ F.conns, x.job = d ∧ x.type = .dataCentre)
    {d : ConnectionJob} (hd : F.chooseConnection tries = some d) :
    d ∈ L.ready ∧ ∃ x ∈ F.conns, x.job = d ∧ x.type = .dataCentre := by
  obtain ⟨o, ho, hfilter⟩ := List.exists_of_findSome?_eq_some hd
  obtain ⟨rfl, htag⟩ := Option.filter_eq_some_iff.mp hfilter
  obtain ⟨x, hx, rfl, hdc⟩ := htries d (List.mem_of_mem_take ho)
  refine ⟨?_, x, hx, rfl, hdc⟩
  by_contra hnot
  have hzero := h.holds.untagged x.job.job fun c hc hjob => by
    obtain ⟨y, hy, rfl, -⟩ := h.held.lasting c hc
    exact hnot (h.held.of_job hy hx hjob ▸ hc)
  rw [of_decide_eq_true htag, ConnectionJob.tag] at hzero
  omega

/-- **A new entry** is the first of its client's `fd`. -/
theorem Sound.create (h : F.Sound L) {c : FrontConnection} (hc : c ∈ F.conns) {d : ConnectionJob}
    {authKeyId : UInt64} {slots : List ℕ} {s : ℕ}
    (hcreates : L.Creates c.job 0 (some d) a slots s)
    (hholds : m'.Holds (L.create a (L.newEntry c.job 0 (some d) authKeyId s))) :
    { F with table := m' }.Prepared (L.create a (L.newEntry c.job 0 (some d) authKeyId s)) := by
  refine { h with
    holds := hholds
    counted := h.counted.create hcreates
    plain := fun x hx => ?_
    owned := fun x hx h0 y hy hclient hfd => ?_
    log := h.log.create hcreates.fits }
  · rcases List.mem_append.mp hx with hx | hx
    · exact h.plain x hx
    · rw [List.mem_singleton.mp hx]
      rfl
  · rcases List.mem_append.mp hx with hx | hx
    · exact h.owned x hx h0 y hy hclient hfd
    · rw [List.mem_singleton.mp hx] at hfd ⊢
      rw [h.held.of_fd hy hc hfd]
      rfl

/-- **Where no entry leads to a data centre**, a new one does. -/
theorem Sound.createOutbound (h : F.Sound L) {c : FrontConnection} (hc : c ∈ F.conns)
    (hclient : c.type = .client) (hfew : L.made < 2 ^ 40) {S : Bool} {draws : QueryDraws}
    (htries : ∀ d, some d ∈ draws.tries → ∃ x ∈ F.conns, x.job = d ∧ x.type = .dataCentre)
    {flags : BitVec 32} {authKeyId : UInt64} {data : Lib.Bytes}
    (hrun : F.createOutbound c S draws flags authKeyId data = .ok F') : ∃ L', F'.Sound L' := by
  unfold MtFront.createOutbound at hrun
  split at hrun
  · -- The query is dropped.
    obtain rfl := Except.ok.inj hrun
    have hset := h.setConn c.job.fd (f := fun x => { x with flags := x.flags ||| RPC_F_DROPPED })
      (fun _ => rfl) (fun _ => rfl) (fun _ => rfl) (fun _ => rfl)
    exact ⟨L, hset.silent (by simp [FrontRecord.asks]) (by simp [FrontRecord.answers])⟩
  · next d hd =>
    have hchosen : F.chooseConnection draws.tries = some d := by
      split_ifs at hd
      exact hd
    obtain ⟨hready, x, hx, rfl, hdc⟩ := h.ready_of_chosen htries hchosen
    split_ifs at hrun
    · obtain rfl := Except.ok.inj hrun
      exact ⟨L, h.silent (by simp [FrontRecord.asks]) (by simp [FrontRecord.answers])⟩
    · have hother : x.job ≠ c.job := fun he => by
        rw [h.held.of_job hx hc (congrArg ConnectionJob.job he), hclient] at hdc
        cases hdc
      obtain ⟨⟨m₁, r⟩, hcreate, hsend⟩ := seq_eq_ok hrun
      obtain ⟨a, s, rfl, hcreates, hholds⟩ := h.holds.create_of_ok h.plain h.counted hfew
        (h.held.inRange c hc) (fun a ha => Option.isNone_iff_eq_none.mp
          (Option.filter_eq_some_iff.mp ha).2) hready hother (onTable_eq_ok.mp hcreate)
      refine ⟨_, (h.create hc hcreates hholds).sendQuery
        (List.mem_append_right _ List.mem_cons_self) (fun x hx => ?_) rfl rfl hsend⟩
      rcases List.mem_append.mp hx with hx | hx
      · exact .inr (h.asked x hx)
      · exact .inl (List.mem_singleton.mp hx)

/-- **`forward_tcp_query` for a client.** -/
theorem Sound.forwardTcpQuery (h : F.Sound L) {c : FrontConnection} (hc : c ∈ F.conns)
    (hclient : c.type = .client) (hfew : L.made < 2 ^ 40) {S : Bool} {draws : QueryDraws}
    (htries : ∀ d, some d ∈ draws.tries → ∃ x ∈ F.conns, x.job = d ∧ x.type = .dataCentre)
    {flags : BitVec 32} {authKeyId : UInt64} {data : Lib.Bytes}
    (hrun : F.forwardTcpQuery c S draws flags authKeyId data = .ok F') : ∃ L', F'.Sound L' := by
  obtain ⟨o, hfound, hrun⟩ := seq_eq_ok hrun
  rcases found_cases h.holds (h.held.inRange c hc) (onTable_eq_ok.mp hfound) with
    rfl | ⟨a, e, hx, hfd, h0, rfl⟩
  · exact h.createOutbound hc hclient hfew htries hrun
  · have hgen : e.inGen = c.job.generation :=
      (h.owned (a, e) hx (hfd ▸ h0) c hc hclient hfd.symm).symm
    obtain ⟨⟨F₁, o⟩, hreuse, hrun⟩ := seq_eq_ok hrun
    obtain ⟨L₁, h₁, hconns, hmade, ho⟩ := h.reuseOutbound hx hreuse
    cases o with
    | none => exact h₁.createOutbound (hconns ▸ hc) hclient (hmade ▸ hfew) (hconns ▸ htries) hrun
    | some d =>
      rcases ho with hnone | ⟨e', hx', hfd', hgen'⟩
      · cases hnone
      · exact ⟨L₁, h₁.toPrepared.sendQuery hx' (fun x hx => .inr (h₁.asked x hx))
          (hfd'.trans hfd) (hgen'.trans hgen) hrun⟩

/-- `CONN_INFO` of a connection is one of those that are open. -/
theorem info_eq_ok {c : ConnectionJob} {x : FrontConnection} (h : F.info c = .ok x) :
    x ∈ F.conns ∧ x.job = c := by
  unfold info at h
  split at h
  · next y hy =>
    obtain rfl := Except.ok.inj h
    exact ⟨List.mem_of_find?_eq_some hy, by simpa using List.find?_some hy⟩
  · cases h

/-- **`do_rpcs_execute`.** -/
theorem Sound.doRpcsExecute (h : F.Sound L) {q : QueryJob}
    (hq : ∃ x ∈ F.conns, x.job = q.conn ∧ x.type = .client) (hfew : L.made < 2 ^ 40)
    {draws : QueryDraws}
    (htries : ∀ d, some d ∈ draws.tries → ∃ x ∈ F.conns, x.job = d ∧ x.type = .dataCentre)
    (hrun : F.doRpcsExecute q draws = .ok F') : ∃ L', F'.Sound L' := by
  obtain ⟨c, hinfo, hrun⟩ := seq_eq_ok hrun
  obtain ⟨hc, hjob⟩ := info_eq_ok hinfo
  obtain ⟨x, hx, hxjob, hclient⟩ := hq
  obtain rfl := h.held.of_job hc hx (congrArg ConnectionJob.job (hjob.trans hxjob.symm))
  obtain ⟨m₁, htouch, hrun⟩ := seq_eq_ok hrun
  have h₁ := h.touch (hjob ▸ h.held.inRange c hc) (onTable_eq_ok.mp htouch)
  split at hrun
  · obtain rfl := Except.ok.inj hrun
    exact ⟨_, h₁⟩
  · refine h₁.forwardTcpQuery hc hclient ?_ htries hrun
    rwa [ExtLedger.made_touch]

/-! ### Answers -/

/-- `find_ext_connection_by_out_conn_id` finds the live entry of an id, or there is none. -/
theorem find_cases (h : F.table.Holds L) {id : UInt64} {o : Option ExtRef}
    (hrun : F.table.findExtConnectionByOutConnId id = .ok o) :
    o = none ∨ ∃ a e, (a, e) ∈ L.live ∧ e.outConnId = id ∧ o = some (.cell a) := by
  by_cases hent : ∃ x ∈ L.live, x.2.outConnId = id
  · obtain ⟨⟨a, e⟩, hx, rfl⟩ := hent
    exact .inr ⟨a, e, hx, rfl, (Except.ok.inj ((h.find_live hx).symm.trans hrun)).symm⟩
  · exact .inl (Except.ok.inj (hrun.symm.trans
      (h.find_other fun x hx he => hent ⟨x, hx, he⟩)))

/-- **Who is answered is the client of the id's entry.** -/
theorem answered_eq_ok (h : F.table.Holds L) {c : ConnectionJob} {id : UInt64}
    {ex : ExtConnection} {d : FrontConnection} (hrun : F.answered c id = .ok (some (ex, d))) :
    ∃ a e, (a, e) ∈ L.live ∧ e.outConnId = id ∧ d.job.fd = e.inFd ∧
      d.job.generation = e.inGen := by
  obtain ⟨o, hfind, hrun⟩ := seq_eq_ok hrun
  rcases find_cases h (onTable_eq_ok.mp hfind) with rfl | ⟨a, e, hx, hid, rfl⟩
  · cases hrun
  · obtain ⟨c', hload, hrun⟩ := seq_eq_ok hrun
    obtain ⟨c'', hc, hce⟩ := h.load hx
    obtain rfl := Except.ok.inj ((load_eq hc).symm.trans (onTable_eq_ok.mp hload))
    split_ifs at hrun
    · obtain ⟨d', hget, heq⟩ := Option.map_eq_some_iff.mp (Except.ok.inj hrun)
      obtain ⟨rfl, rfl⟩ := Prod.mk.inj heq
      obtain ⟨hfound, hgood⟩ := Option.filter_eq_some_iff.mp hget
      have hfd : d'.job.fd = c''.inFd := by simpa using List.find?_some hfound
      have hgen : d'.job.generation = c''.inGen := by
        simp only [Bool.and_eq_true, decide_eq_true_eq] at hgood
        exact hgood.2
      exact ⟨a, e, hx, hid, hfd.trans (congrArg ExtConnection.inFd hce),
        hgen.trans (congrArg ExtConnection.inGen hce)⟩
    · cases Except.ok.inj hrun

/-- **`process_client_packet`.** -/
theorem Sound.processClientPacket (h : F.Sound L) {p : PacketJob} {crowded : Bool}
    (hrun : F.processClientPacket p crowded = .ok F') : ∃ L', F'.Sound L' := by
  have hsilent (r : FrontRecord) (hasks : r.asks = none) (hanswers : r.answers = none) :
      (F.record [r]).Sound L :=
    h.silent (fun r' hr' => List.mem_singleton.mp hr' ▸ hasks)
      fun r' hr' => List.mem_singleton.mp hr' ▸ hanswers
  have hanswer {c : ConnectionJob} {id : UInt64} {ex : ExtConnection} {d : FrontConnection}
      (hto : F.answered c id = .ok (some (ex, d))) (r : FrontRecord) (hasks : r.asks = none)
      (hanswers : r.answers = some (d.job, id)) : (F.record [r]).Sound L := by
    obtain ⟨a, e, hx, rfl, hfd, hgen⟩ := answered_eq_ok h.holds hto
    exact { h with
      log := h.log.answer h.asked hx hfd hgen hasks hanswers
      asked := h.asked.append [r] }
  simp only [MtFront.processClientPacket] at hrun
  split_ifs at hrun
  · -- `RPC_PROXY_ANS`
    obtain ⟨o, hto, hrun⟩ := seq_eq_ok hrun
    split at hrun
    · obtain rfl := Except.ok.inj hrun
      exact ⟨L, hsilent _ rfl rfl⟩
    · split_ifs at hrun
      · obtain rfl := Except.ok.inj hrun
        exact ⟨L, hsilent _ rfl rfl⟩
      · obtain ⟨_, -, hrun⟩ := seq_eq_ok hrun
        obtain rfl := Except.ok.inj hrun
        exact ⟨L, hanswer hto _ rfl rfl⟩
  · -- `RPC_SIMPLE_ACK`
    obtain ⟨o, hto, hrun⟩ := seq_eq_ok hrun
    split at hrun
    · obtain rfl := Except.ok.inj hrun
      exact ⟨L, hsilent _ rfl rfl⟩
    · obtain ⟨_, -, hrun⟩ := seq_eq_ok hrun
      obtain rfl := Except.ok.inj hrun
      exact ⟨L, hanswer hto _ rfl rfl⟩
  · -- `RPC_CLOSE_EXT`
    obtain ⟨o, hfind, hrun⟩ := seq_eq_ok hrun
    rcases find_cases h.holds (onTable_eq_ok.mp hfind) with rfl | ⟨a, e, hx, -, rfl⟩
    · obtain rfl := Except.ok.inj hrun
      exact ⟨L, h⟩
    · exact ⟨_, (h.removeExtConnection hx hrun).1⟩
  · obtain rfl := Except.ok.inj hrun
    exact ⟨L, h⟩

/-! ### Notifications -/

/-- **`mtproto_ext_rpc_close`.** -/
theorem Sound.mtprotoExtRpcClose (h : F.Sound L) {c : ConnectionJob} (hfd : c.fd < MAX_CONNECTIONS)
    (hrun : F.mtprotoExtRpcClose c = .ok F') : ∃ L', F'.Sound L' := by
  obtain ⟨o, hfound, hrun⟩ := seq_eq_ok hrun
  rcases found_cases h.holds hfd (onTable_eq_ok.mp hfound) with rfl | ⟨a, e, hx, -, -, rfl⟩
  · obtain rfl := Except.ok.inj hrun
    exact ⟨L, h⟩
  · exact ⟨_, (h.removeExtConnection hx hrun).1⟩

/-- **`run_notification_event`** of the first notification in the queue. -/
theorem Sound.runNotificationEvent (h : F.Sound L) {n : NotificationEvent}
    {ns : List NotificationEvent} (hns : F.notifications = n :: ns)
    (hrun : { F with notifications := ns }.runNotificationEvent n = .ok F') :
    ∃ L', F'.Sound L' := by
  obtain ⟨x, hinfo, hrun⟩ := seq_eq_ok hrun
  obtain ⟨hx, hjob⟩ : x ∈ F.conns ∧ x.job = n.who := info_eq_ok hinfo
  have hfd : n.who.fd < MAX_CONNECTIONS := hjob ▸ h.held.inRange x hx
  have hheld := hns ▸ h.held
  have hsame {y : FrontConnection} (hy : y ∈ F.conns) (hwho : y.job.job = n.who.job) : y = x :=
    h.held.of_job hy hx (hwho.trans (congrArg ConnectionJob.job hjob.symm))
  -- What is ready is not a client.
  have hclient (hc : x.type = .client) : { F with notifications := ns }.Sound L := by
    refine h.lapse_queue h.holds .refl rfl (hheld.pop fun d hd => .inl ⟨hd, fun _ he => ?_⟩)
    obtain ⟨y, hy, rfl, hdc, -⟩ := h.held.lasting d hd
    rw [hsame hy (congrArg ConnectionJob.job he), hc] at hdc
    cases hdc
  split at hrun
  · -- `mtproto_ext_rpc_ready`
    next hc =>
    obtain ⟨m₁, htouch, hrun⟩ := seq_eq_ok hrun
    obtain rfl := Except.ok.inj hrun
    exact ⟨_, (hclient hc).touch hfd (onTable_eq_ok.mp htouch)⟩
  · -- `mtfront_client_ready`
    next ht hdc =>
    obtain ⟨m₁, hready, hrun⟩ := seq_eq_ok hrun
    obtain rfl := Except.ok.inj hrun
    have hun : n.who ∉ L.ready := (hheld.readying n List.mem_cons_self ht).1
    have hnew : ∀ d ∈ L.ready, d.fd ≠ n.who.fd ∧ d.job ≠ n.who.job := by
      intro d hd
      obtain ⟨y, hy, rfl, -⟩ := h.held.lasting d hd
      refine ⟨fun he => hun ?_, fun he => hun ?_⟩
      · rw [← hjob] at he
        rw [← hjob, ← h.held.of_fd hy hx he]
        exact hd
      · rw [← hjob, ← hsame hy he]
        exact hd
    obtain ⟨m₂, hrun₂, hholds⟩ := h.holds.markReady hfd (fun d hd => (hnew d hd).1)
      fun d hd => (hnew d hd).2
    obtain rfl := Except.ok.inj (hrun₂.symm.trans (onTable_eq_ok.mp hready))
    refine ⟨_, h.lapse_queue hholds (.of_subset (fun _ hx => hx) rfl) rfl
      (hheld.pop fun d hd => ?_)⟩
    rcases List.mem_append.mp hd with hd | hd
    · refine .inl ⟨hd, fun hclose => ?_⟩
      rw [ht] at hclose
      cases hclose
    · refine .inr ⟨ht, List.mem_singleton.mp hd, fun y hy hyd => ?_⟩
      rw [hsame hy (congrArg ConnectionJob.job (hyd.trans (List.mem_singleton.mp hd)))]
      exact hdc
  · -- `mtproto_ext_rpc_close`
    next hc => exact (hclient hc).mtprotoExtRpcClose hfd hrun
  · -- `mtfront_client_close`
    obtain ⟨y, hclose, hrun⟩ := seq_eq_ok hrun
    obtain rfl := Except.ok.inj hrun
    obtain ⟨m₁, hrun₁, hholds⟩ := h.holds.close F.connections hfd
      (fun d hd he => by
        obtain ⟨y, hy, rfl, -⟩ := h.held.lasting d hd
        rw [hsame hy he, hjob])
      (fun x hx => .inr (.inr (h.plain x (List.mem_filter.mp hx).1)))
    obtain rfl := Except.ok.inj (hrun₁.symm.trans (onTable_eq_ok.mp hclose))
    exact ⟨_, (h.lapse_queue hholds (ExtLedger.close_within _) (ExtLedger.made_close _)
      (hheld.pop fun d hd => .inl ⟨(ExtLedger.mem_ready_close hd).1,
        fun _ => (ExtLedger.mem_ready_close hd).2⟩)).notices _⟩

end MtFront

end Server
end Teleproto3
