/-
# The connections of the front end and who refers to them

A connection whose `fd` is open is alone on it.  The jobs and the notifications in the queue refer
to connections that are open, and so does what the ledger says is ready (`Held`).  The queue tells
of each connection first that it is ready and then that it is closed, so that a connection that is
ready and has been closed will be told of.

What the rest of the program sees to is `MtFront.Allowed`.
-/

import Teleproto3.Server.FrontLog

namespace Teleproto3
namespace Server

/-- **What the rest of the program sees to**: an `fd` is given out when it is free, and freed when
the connection is closed and nobody refers to it; that a connection is ready is told once and before
it closes; the connections of a target are connections to data centres; and there are fewer than
`2 ^ 40` entries, so that no `out_conn_id` overflows. -/
def MtFront.Allowed (F : MtFront) : FrontEvent → Prop
  | .opened x => x.job.fd < MAX_CONNECTIONS ∧ x.announced = false ∧ x.closed = false ∧
      ∀ y ∈ F.conns, y.job.fd ≠ x.job.fd ∧ y.job.job ≠ x.job.job
  | .announced fd => ∀ x ∈ F.conns, x.job.fd = fd → x.announced = false ∧ x.closed = false
  | .freed fd => (∀ x ∈ F.conns, x.job.fd = fd → x.closed = true) ∧
      (∀ q ∈ F.queries, q.conn.fd ≠ fd) ∧ (∀ p ∈ F.packets, p.conn.fd ≠ fd) ∧
      ∀ n ∈ F.notifications, n.who.fd ≠ fd
  | .execute _ draws => F.table.extConnectionsCreated < (2 ^ 40 : ℕ) ∧
      ∀ o ∈ draws.tries, ∀ d ∈ o, ∃ x ∈ F.conns, x.job = d ∧ x.type = .dataCentre
  | _ => True

instance MtFront.decidableAllowed (F : MtFront) : (ev : FrontEvent) → Decidable (F.Allowed ev)
  | .opened _ => inferInstanceAs (Decidable (_ ∧ _ ∧ _ ∧ ∀ y ∈ F.conns, _ ∧ _))
  | .announced _ => inferInstanceAs (Decidable (∀ x ∈ F.conns, _ → _))
  | .freed _ => inferInstanceAs (Decidable ((∀ x ∈ F.conns, _ → _) ∧ (∀ q ∈ F.queries, _) ∧
      (∀ p ∈ F.packets, _) ∧ ∀ n ∈ F.notifications, _))
  | .execute _ draws => inferInstanceAs (Decidable (_ ∧ ∀ o ∈ draws.tries, ∀ d ∈ o,
      ∃ x ∈ F.conns, _ ∧ _))
  | .flagged .. | .received .. | .closed _ | .socketFailed _ | .untargeted _ | .notify
  | .process .. => instDecidableTrue

/-- **The references are right.** -/
structure Held (conns : List FrontConnection) (queries : List QueryJob)
    (notifications : List NotificationEvent) (ready : List ConnectionJob) : Prop where
  fds : (conns.map fun x => x.job.fd).Nodup
  jobs : (conns.map fun x => x.job.job).Nodup
  inRange : ∀ x ∈ conns, x.job.fd < MAX_CONNECTIONS
  lasting : ∀ d ∈ ready, ∃ x ∈ conns, x.job = d ∧ x.type = .dataCentre ∧ x.announced = true ∧
    (x.closed = true → ⟨.close, d⟩ ∈ notifications)
  queried : ∀ q ∈ queries, ∃ x ∈ conns, x.job = q.conn ∧ x.type = .client
  closing : ∀ n ∈ notifications, n.type = .close → ∃ x ∈ conns, x.job = n.who ∧ x.closed = true
  readying : ∀ n ∈ notifications, n.type = .ready → n.who ∉ ready ∧ ∃ x ∈ conns, x.job = n.who ∧
    x.announced = true ∧ (x.closed = true → ⟨.close, n.who⟩ ∈ notifications)
  order : notifications.Pairwise fun n n' => n'.type = .ready → n.who ≠ n'.who

variable {conns : List FrontConnection} {queries queries' : List QueryJob}
  {ns : List NotificationEvent} {n : NotificationEvent} {ready ready' : List ConnectionJob}
  {x y : FrontConnection} {fd : ℕ}

namespace Held

theorem start : Held [] [] [] [] where
  fds := List.nodup_nil
  jobs := List.nodup_nil
  inRange := by simp
  lasting := by simp
  queried := by simp
  closing := by simp
  readying := by simp
  order := List.Pairwise.nil

/-- An `fd` has one connection. -/
theorem of_fd (h : Held conns queries ns ready) (hx : x ∈ conns) (hy : y ∈ conns)
    (hfd : x.job.fd = y.job.fd) : x = y := List.inj_on_of_nodup_map h.fds hx hy hfd

/-- So has a job. -/
theorem of_job (h : Held conns queries ns ready) (hx : x ∈ conns) (hy : y ∈ conns)
    (hjob : x.job.job = y.job.job) : x = y := List.inj_on_of_nodup_map h.jobs hx hy hjob

/-! ### Jobs -/

/-- Jobs may go. -/
theorem fewer (h : Held conns queries ns ready) (hsub : ∀ q ∈ queries', q ∈ queries) :
    Held conns queries' ns ready :=
  { h with queried := fun q hq => h.queried q (hsub q hq) }

/-- A job for an open connection may come. -/
theorem more (h : Held conns queries ns ready) {q : QueryJob} (hx : x ∈ conns)
    (hq : x.job = q.conn) (htype : x.type = .client) : Held conns (queries ++ [q]) ns ready := by
  refine { h with queried := fun q' hq' => ?_ }
  rcases List.mem_append.mp hq' with hq' | hq'
  · exact h.queried q' hq'
  · exact ⟨x, hx, (List.mem_singleton.mp hq') ▸ hq, htype⟩

/-! ### Notifications -/

/-- **A notification is taken from the queue.**  What is ready from then on was ready, or the
notification has made it so. -/
theorem pop (h : Held conns queries (n :: ns) ready)
    (hready : ∀ d ∈ ready', d ∈ ready ∧ (n.type = .close → d ≠ n.who) ∨
      n.type = .ready ∧ d = n.who ∧ ∀ x ∈ conns, x.job = d → x.type = .dataCentre) :
    Held conns queries ns ready' := by
  obtain ⟨hhead, horder⟩ := List.pairwise_cons.mp h.order
  have hrest {c : ConnectionJob} (hne : n.type = .close → c ≠ n.who)
      (hmem : (⟨.close, c⟩ : NotificationEvent) ∈ n :: ns) :
      (⟨.close, c⟩ : NotificationEvent) ∈ ns := by
    rcases List.mem_cons.mp hmem with heq | hmem
    · obtain rfl := heq
      exact absurd rfl (hne rfl)
    · exact hmem
  refine { h with
    lasting := fun d hd => ?_
    closing := fun n' hn' => h.closing n' (List.mem_cons_of_mem n hn')
    readying := fun n' hn' htype => ?_
    order := horder }
  · rcases hready d hd with ⟨hd, hne⟩ | ⟨htype, rfl, hdc⟩
    · obtain ⟨x, hx, hjob, hdc, hann, hclosed⟩ := h.lasting d hd
      exact ⟨x, hx, hjob, hdc, hann, fun hc => hrest hne (hclosed hc)⟩
    · obtain ⟨-, x, hx, hjob, hann, hclosed⟩ := h.readying n List.mem_cons_self htype
      refine ⟨x, hx, hjob, hdc x hx hjob, hann, fun hc => hrest (fun hclose => ?_) (hclosed hc)⟩
      rw [htype] at hclose
      cases hclose
  · obtain ⟨hun, x, hx, hjob, hann, hclosed⟩ := h.readying n' (List.mem_cons_of_mem n hn') htype
    have hother : n'.who ≠ n.who := (hhead n' hn' htype).symm
    refine ⟨fun hd => ?_, x, hx, hjob, hann, fun hc => hrest (fun _ => hother) (hclosed hc)⟩
    rcases hready _ hd with ⟨hd, -⟩ | ⟨-, heq, -⟩
    · exact hun hd
    · exact hother heq

/-! ### Connections -/

/-- A connection is opened. -/
theorem opened (h : Held conns queries ns ready) (hfd : x.job.fd < MAX_CONNECTIONS)
    (hother : ∀ y ∈ conns, y.job.fd ≠ x.job.fd ∧ y.job.job ≠ x.job.job) :
    Held (conns ++ [x]) queries ns ready := by
  have hmem {p : FrontConnection → Prop} (hp : ∃ y ∈ conns, p y) : ∃ y ∈ conns ++ [x], p y := by
    obtain ⟨y, hy, hpy⟩ := hp
    exact ⟨y, List.mem_append_left [x] hy, hpy⟩
  refine ⟨?_, ?_, fun y hy => ?_, fun d hd => hmem (h.lasting d hd), fun q hq => hmem (h.queried q hq),
    fun n hn htype => hmem (h.closing n hn htype), fun n hn htype => ?_, h.order⟩
  · rw [List.map_append, List.map_singleton]
    refine List.nodup_append.mpr ⟨h.fds, List.nodup_singleton _, ?_⟩
    rintro fd hfd z hz rfl
    obtain ⟨y, hy, rfl⟩ := List.mem_map.mp hfd
    exact (hother y hy).1 (List.mem_singleton.mp hz)
  · rw [List.map_append, List.map_singleton]
    refine List.nodup_append.mpr ⟨h.jobs, List.nodup_singleton _, ?_⟩
    rintro j hj z hz rfl
    obtain ⟨y, hy, rfl⟩ := List.mem_map.mp hj
    exact (hother y hy).2 (List.mem_singleton.mp hz)
  · rcases List.mem_append.mp hy with hy | hy
    · exact h.inRange y hy
    · exact List.mem_singleton.mp hy ▸ hfd
  · obtain ⟨hun, hx⟩ := h.readying n hn htype
    exact ⟨hun, hmem hx⟩

/-- A connection is freed to which nobody refers. -/
theorem freed (h : Held conns queries ns ready)
    (hclosed : ∀ x ∈ conns, x.job.fd = fd → x.closed = true)
    (hqueries : ∀ q ∈ queries, q.conn.fd ≠ fd) (hns : ∀ n ∈ ns, n.who.fd ≠ fd) :
    Held (conns.filter fun x => x.job.fd ≠ fd) queries ns ready := by
  have hsub : (conns.filter fun x => x.job.fd ≠ fd).Sublist conns := List.filter_sublist
  have hmem {y : FrontConnection} (hy : y ∈ conns) (hne : y.job.fd ≠ fd) :
      y ∈ conns.filter fun x => x.job.fd ≠ fd := List.mem_filter.mpr ⟨hy, decide_eq_true hne⟩
  refine ⟨h.fds.sublist (hsub.map _), h.jobs.sublist (hsub.map _),
    fun x hx => h.inRange x (hsub.subset hx), fun d hd => ?_, fun q hq => ?_,
    fun n hn htype => ?_, fun n hn htype => ?_, h.order⟩
  · obtain ⟨x, hx, rfl, hdc, hann, hclose⟩ := h.lasting d hd
    refine ⟨x, hmem hx fun hfd => ?_, rfl, hdc, hann, hclose⟩
    exact hns _ (hclose (hclosed x hx hfd)) hfd
  · obtain ⟨x, hx, hjob, htype⟩ := h.queried q hq
    exact ⟨x, hmem hx (hjob ▸ hqueries q hq), hjob, htype⟩
  · obtain ⟨x, hx, hjob, hc⟩ := h.closing n hn htype
    exact ⟨x, hmem hx (hjob ▸ hns n hn), hjob, hc⟩
  · obtain ⟨hun, x, hx, hjob, hrest⟩ := h.readying n hn htype
    exact ⟨hun, x, hmem hx (hjob ▸ hns n hn), hjob, hrest⟩

/-- A connection is written to, but not to what the references ask for. -/
theorem written (h : Held conns queries ns ready) {f : FrontConnection → FrontConnection}
    (hjob : ∀ x, (f x).job = x.job) (htype : ∀ x, (f x).type = x.type)
    (hann : ∀ x, (f x).announced = x.announced) (hclosed : ∀ x, (f x).closed = x.closed) :
    Held (conns.map f) queries ns ready := by
  refine ⟨?_, ?_, fun x hx => ?_, fun d hd => ?_, fun q hq => ?_, fun n hn ht => ?_,
    fun n hn ht => ?_, h.order⟩
  · simpa only [List.map_map, Function.comp_def, hjob] using h.fds
  · simpa only [List.map_map, Function.comp_def, hjob] using h.jobs
  · obtain ⟨y, hy, rfl⟩ := List.mem_map.mp hx
    rw [hjob]
    exact h.inRange y hy
  · obtain ⟨x, hx, hd⟩ := h.lasting d hd
    refine ⟨f x, List.mem_map_of_mem hx, ?_⟩
    rwa [hjob, htype, hann, hclosed]
  · obtain ⟨x, hx, hq⟩ := h.queried q hq
    refine ⟨f x, List.mem_map_of_mem hx, ?_⟩
    rwa [hjob, htype]
  · obtain ⟨x, hx, hn⟩ := h.closing n hn ht
    refine ⟨f x, List.mem_map_of_mem hx, ?_⟩
    rwa [hjob, hclosed]
  · obtain ⟨hun, x, hx, hn⟩ := h.readying n hn ht
    refine ⟨hun, f x, List.mem_map_of_mem hx, ?_⟩
    rwa [hjob, hann, hclosed]

/-- **That a connection is ready is put into the queue.** -/
theorem announced (h : Held conns queries ns ready) (hx : x ∈ conns)
    (hfresh : x.announced = false) (hopen : x.closed = false) :
    Held (conns.map fun y => if y.job.fd = x.job.fd then { y with announced := true } else y)
      queries (ns ++ [⟨.ready, x.job⟩]) ready := by
  let g (y : FrontConnection) : FrontConnection :=
    if y.job.fd = x.job.fd then { y with announced := true } else y
  have hjob (y : FrontConnection) : (g y).job = y.job := by
    simp only [g]
    split_ifs <;> rfl
  have htype (y : FrontConnection) : (g y).type = y.type := by
    simp only [g]
    split_ifs <;> rfl
  have hclosed (y : FrontConnection) : (g y).closed = y.closed := by
    simp only [g]
    split_ifs <;> rfl
  have hann {y : FrontConnection} (hy : y.announced = true) : (g y).announced = true := by
    simp only [g]
    split_ifs
    · rfl
    · exact hy
  have hself : (g x).announced = true := by simp only [g, if_true]
  have hmore {n : NotificationEvent} (hn : n ∈ ns) : n ∈ ns ++ [⟨.ready, x.job⟩] :=
    List.mem_append_left _ hn
  -- Nothing has been told of the connection yet.
  have hsilent : ∀ n ∈ ns, n.who ≠ x.job := by
    intro n hn hwho
    cases ht : n.type with
    | ready =>
      obtain ⟨-, y, hy, hyjob, hyann, -⟩ := h.readying n hn ht
      rw [h.of_job hy hx (congrArg ConnectionJob.job (hyjob.trans hwho)), hfresh] at hyann
      cases hyann
    | close =>
      obtain ⟨y, hy, hyjob, hyc⟩ := h.closing n hn ht
      rw [h.of_job hy hx (congrArg ConnectionJob.job (hyjob.trans hwho)), hopen] at hyc
      cases hyc
  change Held (conns.map g) queries (ns ++ [⟨.ready, x.job⟩]) ready
  refine ⟨?_, ?_, fun y' hy' => ?_, fun d hd => ?_, fun q hq => ?_, fun n hn ht => ?_,
    fun n hn ht => ?_, ?_⟩
  · simpa only [List.map_map, Function.comp_def, hjob] using h.fds
  · simpa only [List.map_map, Function.comp_def, hjob] using h.jobs
  · obtain ⟨y, hy, rfl⟩ := List.mem_map.mp hy'
    rw [hjob]
    exact h.inRange y hy
  · obtain ⟨y, hy, rfl, hdc, hyann, hyc⟩ := h.lasting d hd
    refine ⟨g y, List.mem_map_of_mem hy, hjob y, (htype y).trans hdc, hann hyann, fun hc => ?_⟩
    exact hmore (hyc (hclosed y ▸ hc))
  · obtain ⟨y, hy, hyjob, hyt⟩ := h.queried q hq
    exact ⟨g y, List.mem_map_of_mem hy, (hjob y).trans hyjob, (htype y).trans hyt⟩
  · rcases List.mem_append.mp hn with hn | hn
    · obtain ⟨y, hy, hyjob, hyc⟩ := h.closing n hn ht
      exact ⟨g y, List.mem_map_of_mem hy, (hjob y).trans hyjob, (hclosed y).trans hyc⟩
    · rw [List.mem_singleton.mp hn] at ht
      cases ht
  · rcases List.mem_append.mp hn with hn | hn
    · obtain ⟨hun, y, hy, hyjob, hyann, hyc⟩ := h.readying n hn ht
      refine ⟨hun, g y, List.mem_map_of_mem hy, (hjob y).trans hyjob, hann hyann, fun hc => ?_⟩
      exact hmore (hyc (hclosed y ▸ hc))
    · rw [List.mem_singleton.mp hn]
      refine ⟨fun hd => ?_, g x, List.mem_map_of_mem hx, hjob x, hself, fun hc => ?_⟩
      · obtain ⟨y, hy, hyjob, -, hyann, -⟩ := h.lasting x.job hd
        rw [h.of_job hy hx (congrArg ConnectionJob.job hyjob), hfresh] at hyann
        cases hyann
      · rw [hclosed, hopen] at hc
        cases hc
  · refine List.pairwise_append.mpr ⟨h.order, List.pairwise_singleton _ _, ?_⟩
    intro n hn n' hn' _
    rw [List.mem_singleton.mp hn']
    exact hsilent n hn

/-- **That a connection is closed is put into the queue.** -/
theorem closed (h : Held conns queries ns ready) (hx : x ∈ conns) :
    Held (conns.map fun y => if y.job.fd = x.job.fd then { y with closed := true } else y)
      queries (ns ++ [⟨.close, x.job⟩]) ready := by
  let g (y : FrontConnection) : FrontConnection :=
    if y.job.fd = x.job.fd then { y with closed := true } else y
  have hjob (y : FrontConnection) : (g y).job = y.job := by
    simp only [g]
    split_ifs <;> rfl
  have htype (y : FrontConnection) : (g y).type = y.type := by
    simp only [g]
    split_ifs <;> rfl
  have hann (y : FrontConnection) : (g y).announced = y.announced := by
    simp only [g]
    split_ifs <;> rfl
  have hclosed {y : FrontConnection} (hy : y.closed = true) : (g y).closed = true := by
    simp only [g]
    split_ifs
    · rfl
    · exact hy
  have hself : (g x).closed = true := by simp only [g, if_true]
  -- Who is closed was closed, or is told of now.
  have htold {y : FrontConnection} (hy : y ∈ conns)
      (hold : y.closed = true → (⟨.close, y.job⟩ : NotificationEvent) ∈ ns)
      (hc : (g y).closed = true) :
      (⟨.close, y.job⟩ : NotificationEvent) ∈ ns ++ [⟨.close, x.job⟩] := by
    by_cases hfd : y.job.fd = x.job.fd
    · rw [h.of_fd hy hx hfd]
      exact List.mem_append_right ns List.mem_cons_self
    · simp only [g, hfd, if_false] at hc
      exact List.mem_append_left _ (hold hc)
  change Held (conns.map g) queries (ns ++ [⟨.close, x.job⟩]) ready
  refine ⟨?_, ?_, fun y' hy' => ?_, fun d hd => ?_, fun q hq => ?_, fun n hn ht => ?_,
    fun n hn ht => ?_, ?_⟩
  · simpa only [List.map_map, Function.comp_def, hjob] using h.fds
  · simpa only [List.map_map, Function.comp_def, hjob] using h.jobs
  · obtain ⟨y, hy, rfl⟩ := List.mem_map.mp hy'
    rw [hjob]
    exact h.inRange y hy
  · obtain ⟨y, hy, rfl, hdc, hyann, hyc⟩ := h.lasting d hd
    exact ⟨g y, List.mem_map_of_mem hy, hjob y, (htype y).trans hdc, (hann y).trans hyann,
      htold hy hyc⟩
  · obtain ⟨y, hy, hyjob, hyt⟩ := h.queried q hq
    exact ⟨g y, List.mem_map_of_mem hy, (hjob y).trans hyjob, (htype y).trans hyt⟩
  · rcases List.mem_append.mp hn with hn | hn
    · obtain ⟨y, hy, hyjob, hyc⟩ := h.closing n hn ht
      exact ⟨g y, List.mem_map_of_mem hy, (hjob y).trans hyjob, hclosed hyc⟩
    · rw [List.mem_singleton.mp hn]
      exact ⟨g x, List.mem_map_of_mem hx, hjob x, hself⟩
  · rcases List.mem_append.mp hn with hn | hn
    · obtain ⟨hun, y, hy, hyjob, hyann, hyc⟩ := h.readying n hn ht
      refine ⟨hun, g y, List.mem_map_of_mem hy, (hjob y).trans hyjob, (hann y).trans hyann, ?_⟩
      rw [← hyjob] at hyc ⊢
      exact htold hy hyc
    · rw [List.mem_singleton.mp hn] at ht
      cases ht
  · refine List.pairwise_append.mpr ⟨h.order, List.pairwise_singleton _ _, ?_⟩
    intro n hn n' hn' ht
    rw [List.mem_singleton.mp hn'] at ht
    cases ht

end Held

end Server
end Teleproto3
