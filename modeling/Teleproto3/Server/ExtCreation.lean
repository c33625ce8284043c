/-
# An entry of the table of ext_connections is created

`create_ext_connection` goes through states that belong to no ledger: the cell is allocated, put
on its chain, on the circle of its `in_fd`, given its id, and put on the circle of its `out_fd`.
Each part has a lemma about the layout it leads to, and `ExtTable.Holds.create` puts them
together.
-/

import Teleproto3.Server.ExtTable

namespace Teleproto3
namespace Server

open Lib ExtMemory

variable {m : ExtTable} {L : ExtLedger} {S : ExtLayout} {a : ℕ} {c : ExtConnection}
  {f : ExtConnection → ExtConnection}

/-! ### The parts -/

/-- The youngest cell is written to. -/
theorem cellsWrite_concat {cells : List (ℕ × ExtConnection)} (ha : a ∉ cellAddresses cells) :
    cellsWrite (cells ++ [(a, c)]) a f = cells ++ [(a, f c)] := by
  unfold cellsWrite
  rw [List.map_append, List.map_singleton, if_pos rfl]
  congr 1
  refine (List.map_congr_left fun x hx => ?_).trans (List.map_id cells)
  rw [if_neg]
  · rfl
  · rintro rfl
    exact ha (List.mem_map_of_mem hx)

/-- What a cell is added to. -/
def ExtLayout.concat (S : ExtLayout) (a : ℕ) (c : ExtConnection) : ExtLayout :=
  { S with cells := S.cells ++ [(a, c)] }

theorem ExtLayout.mem_concat (S : ExtLayout) (a : ℕ) (c : ExtConnection) :
    a ∈ cellAddresses (S.concat a c).cells := by
  simp [ExtLayout.concat, cellAddresses]

/-- A write to the youngest cell. -/
theorem LaidOut.writeLast {mem : ExtMemory} {bucket : ℕ → Option ExtRef}
    (h : LaidOut mem bucket (S.concat a c)) (ha : a ∉ cellAddresses S.cells)
    (hf : ∀ c, (f c).unlinked = f c.unlinked) (hnext : ∀ c, (f c).hNext = c.hNext)
    (hlinks : ∀ c k, RingKind.links k (f c) = RingKind.links k c) :
    mem.modify (.cell a) f = .ok (mem.alter (.cell a) f) ∧
      LaidOut (mem.alter (.cell a) f) bucket (S.concat a (f c)) := by
  obtain ⟨d, hd, -⟩ := h.stored.load (S.mem_concat a c)
  refine ⟨modify_eq hd f, ?_⟩
  have hwrite := h.write (a := a) hf hnext hlinks
  have hcells : cellsWrite (S.concat a c).cells a f = S.cells ++ [(a, f c)] :=
    cellsWrite_concat ha
  rw [hcells] at hwrite
  exact hwrite

/-- The cell of an entry before it is joined to a data centre's connection. -/
def freshCell (inFd inGen : ℕ) (inConnId outConnId : UInt64) : ExtConnection where
  inFd := inFd
  inGen := inGen
  inConnId := inConnId
  outConnId := outConnId

/-- A layout with a cell more at the head of a chain. -/
def ExtLayout.pushed (S : ExtLayout) (h a : ℕ) : ExtLayout :=
  { S with chain := Function.update S.chain h (a :: S.chain h) }

/-- **A cell is allocated** and enters its chain. -/
theorem allocate_eq (h inFd inGen : ℕ) (inConnId : UInt64)
    (hl : LaidOut m.mem m.inExtConnectionHash S) (ha : a ∉ cellAddresses S.cells) :
    ∃ mem', m.allocate h inFd inGen inConnId (.cell a) = .ok { m with
        mem := mem'
        inExtConnectionHash := Function.update m.inExtConnectionHash h (some (.cell a)) } ∧
      LaidOut mem' (Function.update m.inExtConnectionHash h (some (.cell a)))
        ((S.pushed h a).concat a (freshCell inFd inGen inConnId 0)) := by
  have hno (i : ℕ) : a ∉ S.chain i := fun hmem => ha (hl.chained.onChain i a hmem)
  have h₁ : LaidOut (Function.update m.mem (.cell a) (some {})) m.inExtConnectionHash
      (S.concat a {}) := hl.calloc ha
  have h₂ : LaidOut _ _ ((S.pushed h a).concat a {}) := h₁.chainPush h (S.mem_concat a {}) hno
  obtain ⟨hrun, h₃⟩ := h₂.writeLast
    (f := fun c => { c with inFd := inFd, inGen := inGen, inConnId := inConnId }) ha
    (fun _ => rfl) (fun _ => rfl) (fun c k => by cases k <;> rfl)
  refine ⟨_, ?_, h₃⟩
  simp only [ExtTable.allocate, modify_eq (Function.update_self ..), ok_seq, hrun]
  rfl

/-- The circle of an `fd` is in use from now on. -/
theorem startInbound_eq {fd : ℕ} (h : LaidOut m.mem m.inExtConnectionHash S)
    (hring : S.ring (.inbound fd) = []) :
    ∃ mem', m.startInbound (.head fd) = .ok mem' ∧
      LaidOut mem' m.inExtConnectionHash
        { S with used := Function.update S.used (.inbound fd) True } := by
  obtain ⟨d, hd⟩ := exists_of_isSome (h.stored.heads fd)
  by_cases hu : S.used (.inbound fd)
  · have hcircle := h.ringed.circle hu
    rw [hring] at hcircle
    obtain ⟨d', hd', hnext⟩ := Option.map_eq_some_iff.mp hcircle.next_head
    obtain rfl := Option.some.inj (hd.symm.trans hd')
    have hn : d.iNext ≠ none := by
      have hsome : d.iNext = some (.head fd) := hnext
      rw [hsome]
      exact Option.some_ne_none _
    have hsame : Function.update S.used (.inbound fd) True = S.used :=
      Function.update_eq_self_iff.mpr (eq_true hu).symm
    refine ⟨m.mem, ?_, by rw [hsame]; exact h⟩
    simp only [ExtTable.startInbound, load_eq hd, ok_seq, ne_eq, hn, not_false_eq_true, if_true]
    rfl
  · obtain ⟨d', hd', hlinks⟩ := Option.map_eq_some_iff.mp
      ((h.ringed.tied (.inbound fd)).unused hu).1
    obtain rfl := Option.some.inj (hd.symm.trans hd')
    have hn : d.iNext = none := congrArg Prod.fst hlinks
    refine ⟨_, ?_, h.setUsed (R := .inbound fd) (u := True)
      (f := fun c => { c with iNext := some (.head fd), iPrev := some (.head fd) }) hring ?_
      (fun _ _ => rfl) (fun hf => absurd trivial hf) (h.stored.heads fd)⟩
    · simp only [ExtTable.startInbound, load_eq hd, ok_seq, hn, ne_eq, not_true_eq_false,
        if_false]
      exact modify_eq hd _
    · intro c k hk
      cases k with
      | inbound => exact absurd rfl hk
      | outbound => rfl
      | lru => rfl

/-- The circle of the client of a new entry. -/
def ExtLayout.joinInbound (S : ExtLayout) (fd a : ℕ) : ExtLayout :=
  if fd = 0 then S
  else { S with
    used := Function.update S.used (.inbound fd) True
    ring := ringWith S.ring (.inbound fd) a }

/-- **The new cell comes on the circle of its `in_fd`**, which begins now if it has not been
used. -/
theorem linkInbound_eq (fd : ℕ) (h : LaidOut m.mem m.inExtConnectionHash S)
    (ha : a ∈ cellAddresses S.cells) (hring : S.ring (.inbound fd) = [])
    (hno : ∀ R, R.kind = .inbound → a ∉ S.ring R) :
    ∃ mem', m.linkInbound fd (.cell a) = .ok { m with mem := mem' } ∧
      LaidOut mem' m.inExtConnectionHash (S.joinInbound fd a) := by
  by_cases hfd : fd = 0
  · refine ⟨m.mem, ?_, ?_⟩
    · rw [ExtTable.linkInbound, if_pos hfd]
      rfl
    · rw [ExtLayout.joinInbound, if_pos hfd]
      exact h
  · obtain ⟨mem₁, hrun₁, h₁⟩ := startInbound_eq h hring
    have hu : Function.update S.used (.inbound fd) True (.inbound fd) := by
      rw [Function.update_self]
      trivial
    have hcircle := h₁.ringed.circle (R := .inbound fd) hu
    obtain ⟨d, hd, hnext⟩ := Option.map_eq_some_iff.mp hcircle.next_head
    have hd' : mem₁ (.head fd) = some d := hd
    have hn : d.iNext = some (.head fd) := by
      refine Eq.trans hnext ?_
      rw [hring]
      rfl
    obtain ⟨mem', hrun, h'⟩ := h₁.linkLast (R := .inbound fd) hu ha hno
    refine ⟨mem', ?_, ?_⟩
    · have hrun' : mem₁.linkLast .inbound (.head fd) (.cell a) = .ok mem' := hrun
      simp only [ExtTable.linkInbound, hfd, if_false, ok_seq, hrun₁, load_eq hd', check_pos hn,
        hrun']
      rfl
    · rw [ExtLayout.joinInbound, if_neg hfd]
      exact h'

/-- The slots do not depend on memory. -/
theorem slotLoop_congr {m' : ExtTable} (h : m'.outExtConnections = m.outExtConnections)
    (draws : List ℕ) : m'.slotLoop draws = m.slotLoop draws := by
  induction draws with
  | nil => rfl
  | cons d draws ih => simp only [ExtTable.slotLoop, h, ih]

/-- **A slot without a live entry is found**, where one of the values has one. -/
theorem ExtTable.Holds.slotLoop (h : m.Holds L) {draws : List ℕ} {s : ℕ}
    (hp : L.pick draws = some s) : m.slotLoop draws = .ok s := by
  induction draws with
  | nil => exact absurd hp (by simp [ExtLedger.pick])
  | cons d draws ih =>
    have hfree : (m.outExtConnections (d &&& (EXT_CONN_TABLE_SIZE - 1))).ref = none ↔
        L.Free (d &&& (EXT_CONN_TABLE_SIZE - 1)) := by
      rw [Option.eq_none_iff_forall_not_mem]
      constructor
      · intro hnone x hx hs
        exact hnone (.cell x.1) ((h.refs _ _).mpr ⟨x, hx, rfl, hs⟩)
      · intro hf r hr
        obtain ⟨x, hx, -, hs⟩ := (h.refs _ _).mp hr
        exact hf x hx hs
    rw [ExtLedger.pick, List.map_cons, List.find?_cons] at hp
    by_cases hf : L.Free (d &&& (EXT_CONN_TABLE_SIZE - 1))
    · rw [decide_eq_true hf] at hp
      simp only [ExtTable.slotLoop, hfree.mpr hf, if_true]
      exact congrArg Except.ok (Option.some.inj hp)
    · rw [decide_eq_false hf] at hp
      simp only [ExtTable.slotLoop, mt hfree.mp hf, if_false]
      exact ih hp

theorem pick_spec {draws : List ℕ} {s : ℕ} (hp : L.pick draws = some s) :
    s < EXT_CONN_TABLE_SIZE ∧ L.Free s := by
  rw [ExtLedger.pick] at hp
  obtain ⟨h, -, rfl⟩ := List.mem_map.mp (List.mem_of_find?_eq_some hp)
  have hfree : decide (L.Free (h &&& (EXT_CONN_TABLE_SIZE - 1))) = true :=
    List.find?_some (p := fun s => decide (L.Free s)) hp
  exact ⟨and_mask_lt h, of_decide_eq_true hfree⟩

/-- **A cell is given a slot** and its id. -/
theorem issue_eq {s : ℕ} {draws : List ℕ}
    (h : LaidOut m.mem m.inExtConnectionHash (S.concat a c)) (ha : a ∉ cellAddresses S.cells)
    (hslot : m.slotLoop draws = .ok s)
    (hid : nextOutConnId (m.outExtConnections s).outConnId s ≠ 0) :
    ∃ mem', m.issue (.cell a) draws = .ok { m with
        mem := mem'
        outExtConnections := Function.update m.outExtConnections s
          ⟨some (.cell a), nextOutConnId (m.outExtConnections s).outConnId s⟩ } ∧
      LaidOut mem' m.inExtConnectionHash (S.concat a
        { c with outConnId := nextOutConnId (m.outExtConnections s).outConnId s }) := by
  obtain ⟨hrun, h'⟩ := h.writeLast
    (f := fun c => { c with outConnId := nextOutConnId (m.outExtConnections s).outConnId s })
    ha (fun _ => rfl) (fun _ => rfl) (fun c k => by cases k <;> rfl)
  refine ⟨_, ?_, h'⟩
  simp only [ExtTable.issue, hslot, ok_seq, hrun, check_pos hid]
  rfl

/-- **A new cell**, on its chain and its first circle, with its id. -/
theorem createNew_eq (h inGen : ℕ) {inFd s : ℕ} {inConnId : UInt64} {draws : List ℕ}
    (hl : LaidOut m.mem m.inExtConnectionHash S) (ha : a ∉ cellAddresses S.cells)
    (hcount : m.extConnections < (EXT_CONN_TABLE_SIZE / 2 : ℕ)) (hfd : inFd < MAX_CONNECTIONS)
    (hring : S.ring (.inbound inFd) = [])
    (hslot : m.slotLoop (if inConnId ≠ 0 then draws else inFd :: draws) = .ok s)
    (hid : nextOutConnId (m.outExtConnections s).outConnId s ≠ 0) :
    ∃ mem', m.createNew h inFd inGen inConnId (some a) draws = .ok ({ m with
        mem := mem'
        inExtConnectionHash := Function.update m.inExtConnectionHash h (some (.cell a))
        outExtConnections := Function.update m.outExtConnections s
          ⟨some (.cell a), nextOutConnId (m.outExtConnections s).outConnId s⟩
        extConnections := m.extConnections + 1
        extConnectionsCreated := m.extConnectionsCreated + 1 }, .cell a) ∧
      LaidOut mem' (Function.update m.inExtConnectionHash h (some (.cell a)))
        (((S.pushed h a).joinInbound inFd a).concat a (freshCell inFd inGen inConnId
          (nextOutConnId (m.outExtConnections s).outConnId s))) := by
  obtain ⟨mem₁, hrun₁, h₁⟩ := allocate_eq h inFd inGen inConnId hl ha
  let m₁ : ExtTable := { m with
    mem := mem₁
    inExtConnectionHash := Function.update m.inExtConnectionHash h (some (.cell a)) }
  obtain ⟨mem₂, hrun₂, h₂⟩ := linkInbound_eq (m := m₁) inFd h₁
    (ExtLayout.mem_concat _ a _) hring fun R _ hmem => ha (hl.ringed.onRing R a hmem)
  have hjoin (c : ExtConnection) : ((S.pushed h a).concat a c).joinInbound inFd a =
      ((S.pushed h a).joinInbound inFd a).concat a c := by
    unfold ExtLayout.joinInbound
    split_ifs <;> rfl
  have hcells : ((S.pushed h a).joinInbound inFd a).cells = S.cells := by
    unfold ExtLayout.joinInbound
    split_ifs <;> rfl
  rw [hjoin] at h₂
  let m₂ : ExtTable := { m₁ with mem := mem₂ }
  have hsame : m₂.outExtConnections = m.outExtConnections := rfl
  have hslot₂ : m₂.slotLoop (if inConnId ≠ 0 then draws else inFd :: draws) = .ok s :=
    (slotLoop_congr hsame _).trans hslot
  obtain ⟨mem₃, hrun₃, h₃⟩ := issue_eq (m := m₂) h₂ (hcells ▸ ha) hslot₂ hid
  refine ⟨mem₃, ?_, h₃⟩
  simp only [ExtTable.createNew, check_pos hcount, ok_seq, hrun₁, check_pos hfd]
  change (m₁.linkInbound inFd (.cell a) >>= _) = _
  rw [hrun₂, ok_seq]
  change (m₂.issue (.cell a) _ >>= _) = _
  rw [hrun₃]
  rfl

/-- The circle of a data centre's connection of a new entry. -/
def ExtLayout.joinOutbound (S : ExtLayout) (a : ℕ) : Option ConnectionJob → ExtLayout
  | none => S
  | some d => { S with ring := ringWith S.ring (.outbound d.fd) a }

/-- The cell of an entry that is joined to a data centre's connection. -/
def joinedCell (c : ExtConnection) : Option ConnectionJob → ExtConnection
  | none => c
  | some d => { c with outFd := d.fd, outGen := d.generation }

/-- **The new cell comes on the circle of its data centre's connection**, which is in use. -/
theorem linkOutbound_eq (co : Option ConnectionJob)
    (h : LaidOut m.mem m.inExtConnectionHash (S.concat a c)) (ha : a ∉ cellAddresses S.cells)
    (hu : ∀ d ∈ co, S.used (.outbound d.fd)) (hno : ∀ R, R.kind = .outbound → a ∉ S.ring R) :
    ∃ mem', m.linkOutbound (.cell a) co = .ok { m with mem := mem' } ∧
      LaidOut mem' m.inExtConnectionHash ((S.joinOutbound a co).concat a (joinedCell c co)) := by
  cases co with
  | none => exact ⟨m.mem, rfl, h⟩
  | some d =>
    have hd := hu d rfl
    have hcircle := h.ringed.circle (R := .outbound d.fd) hd
    obtain ⟨e, he, hnext⟩ := Option.map_eq_some_iff.mp hcircle.next_head
    have he' : m.mem (.head d.fd) = some e := he
    have hn : e.oNext ≠ none := by
      have hsome : e.oNext = _ := hnext
      rw [hsome]
      cases (cellRefs ((S.concat a c).ring (.outbound d.fd))).head? <;> exact Option.some_ne_none _
    obtain ⟨mem₁, hrun₁, h₁⟩ := h.linkLast (R := .outbound d.fd) hd (S.mem_concat a c) hno
    have h₁' : LaidOut mem₁ m.inExtConnectionHash ((S.joinOutbound a (some d)).concat a c) := h₁
    obtain ⟨hrun₂, h₂⟩ := h₁'.writeLast
      (f := fun c => { c with outFd := d.fd, outGen := d.generation }) ha (fun _ => rfl)
      (fun _ => rfl) (fun c k => by cases k <;> rfl)
    refine ⟨_, ?_, h₂⟩
    have hrun₁' : m.mem.linkLast .outbound (.head d.fd) (.cell a) = .ok mem₁ := hrun₁
    simp only [ExtTable.linkOutbound, load_eq he', ok_seq, check_pos hn, hrun₁', hrun₂]
    rfl

/-! ### The whole call -/

theorem ExtLayout.joinInbound_cells (S : ExtLayout) (fd a : ℕ) :
    (S.joinInbound fd a).cells = S.cells := by
  unfold ExtLayout.joinInbound
  split_ifs <;> rfl

theorem ExtLayout.joinOutbound_cells (S : ExtLayout) (a : ℕ) (co : Option ConnectionJob) :
    (S.joinOutbound a co).cells = S.cells := by
  cases co <;> rfl

theorem ExtLayout.joinInbound_ring_of_kind {S : ExtLayout} {fd a : ℕ} {R : ExtRing}
    (hR : R.kind ≠ .inbound) : (S.joinInbound fd a).ring R = S.ring R := by
  unfold ExtLayout.joinInbound
  split_ifs
  · rfl
  · refine ringWith_of_ne ?_
    rintro rfl
    exact hR rfl

theorem ExtLayout.joinInbound_used_of_kind {S : ExtLayout} {fd a : ℕ} {R : ExtRing}
    (hR : R.kind ≠ .inbound) : (S.joinInbound fd a).used R = S.used R := by
  have hne : R ≠ .inbound fd := by
    rintro rfl
    exact hR rfl
  unfold ExtLayout.joinInbound
  split_ifs
  · rfl
  · exact Function.update_of_ne hne True S.used

namespace ExtLedger

/-- **When an entry may be created**: the client has none, the cell is new, the data centre's
connection is ready, one of the slots that are tried is free, and its generation has not run
out. -/
structure Creates (L : ExtLedger) (ci : ConnectionJob) (inConnId : UInt64)
    (co : Option ConnectionJob) (a : ℕ) (draws : List ℕ) (s : ℕ) : Prop where
  inRange : ci.fd < MAX_CONNECTIONS
  none : ∀ x ∈ L.live, x.2.inFd ≠ ci.fd
  fresh : a ∉ L.addresses
  ready : ∀ d ∈ co, d ∈ L.ready ∧ d ≠ ci
  slot : L.pick (if inConnId ≠ 0 then draws else ci.fd :: draws) = some s
  unwrapped : Unwrapped (L.issued s) s

variable {ci : ConnectionJob} {inConnId authKeyId : UInt64} {co : Option ConnectionJob}
  {draws : List ℕ} {s : ℕ}

theorem Creates.slotOf (h : L.Creates ci inConnId co a draws s) :
    slotOf (L.newEntry ci inConnId co authKeyId s).outConnId = s :=
  slotOf_nextOutConnId h.unwrapped (pick_spec h.slot).1

theorem Creates.fits (h : L.Creates ci inConnId co a draws s) :
    L.Fits a (L.newEntry ci inConnId co authKeyId s) where
  fresh := h.fresh
  none := h.none
  inRange := h.inRange
  joined o ho := by
    obtain ⟨d, hd, rfl⟩ := Option.map_eq_some_iff.mp ho
    exact ⟨d, (h.ready d hd).1, rfl, rfl⟩
  later := by
    rw [h.slotOf]
    exact lt_nextOutConnId h.unwrapped
  free := by
    rw [h.slotOf]
    exact (pick_spec h.slot).2

/-- What the parts of the call put on the circles. -/
theorem ring_create (e : ExtEntry) (used : ExtRing → Prop)
    (hco : e.out = co.map fun d => (d.fd, d.generation)) (h : ℕ) (R : ExtRing) :
    ((((L.layout used).pushed h a).joinInbound e.inFd a).joinOutbound a co).ring R =
      (L.create a e).ring R := by
  have hin (R : ExtRing) : (((L.layout used).pushed h a).joinInbound e.inFd a).ring R =
      if R = .inbound e.inFd ∧ e.inFd ≠ 0 then L.ring R ++ [a] else L.ring R := by
    unfold ExtLayout.joinInbound
    by_cases hfd : e.inFd = 0
    · rw [if_pos hfd, if_neg (fun hc => hc.2 hfd)]
      rfl
    · rw [if_neg hfd]
      by_cases hR : R = .inbound e.inFd
      · rw [if_pos ⟨hR, hfd⟩, hR]
        exact ringWith_self _
      · rw [if_neg fun hc => hR hc.1]
        exact ringWith_of_ne hR
  have hout (fd : ℕ) (hfd : e.OutOn fd) : ((((L.layout used).pushed h a).joinInbound e.inFd
      a).joinOutbound a co).ring (.outbound fd) =
        (((L.layout used).pushed h a).joinInbound e.inFd a).ring (.outbound fd) ++ [a] := by
    rw [ExtEntry.OutOn, hco] at hfd
    cases co with
    | none => exact absurd hfd.symm (Option.some_ne_none fd)
    | some d =>
      obtain rfl : d.fd = fd := Option.some.inj hfd
      exact ringWith_self _
  have hother (hR : ∀ fd, R = .outbound fd → ¬ e.OutOn fd) : ((((L.layout used).pushed h
      a).joinInbound e.inFd a).joinOutbound a co).ring R =
        (((L.layout used).pushed h a).joinInbound e.inFd a).ring R := by
    cases co with
    | none => rfl
    | some d =>
      refine ringWith_of_ne fun hd => hR d.fd hd ?_
      rw [ExtEntry.OutOn, hco]
      rfl
  cases R with
  | lru =>
    rw [hother (fun fd hfd => absurd hfd (by simp)), hin]
    simp [ring, create]
  | inbound fd =>
    rw [hother (fun fd hfd => absurd hfd (by simp)), hin]
    by_cases hfd : fd = 0
    · rw [if_neg, ring, ring, if_pos hfd, if_pos hfd]
      rintro ⟨he, hne⟩
      exact hne ((ExtRing.inbound.inj he).symm.trans hfd)
    · rw [ring, ring, if_neg hfd, if_neg hfd, having_create]
      simp only [ExtRing.inbound.injEq, decide_eq_true_eq]
      by_cases he : e.inFd = fd
      · rw [if_pos ⟨he.symm, fun h0 => hfd (he.symm.trans h0)⟩, if_pos he]
      · rw [if_neg fun hc => he hc.1.symm, if_neg he]
  | outbound fd =>
    by_cases he : e.OutOn fd
    · rw [hout fd he, hin, if_neg (fun hc => absurd hc.1 (by simp)), ring, ring, having_create,
        if_pos (decide_eq_true he)]
    · rw [hother (fun fd' hfd' => ExtRing.outbound.inj hfd' ▸ he), hin,
        if_neg (fun hc => absurd hc.1 (by simp)), ring, ring, having_create,
        if_neg (by simpa using he)]

/-- **What the parts of the call lead to is what the ledger asks for.** -/
theorem layout_create (co : Option ConnectionJob) (e : ExtEntry) (used : ExtRing → Prop)
    (hco : e.out = co.map fun d => (d.fd, d.generation)) :
    ((((L.layout used).pushed (extConnHash e.inFd e.inConnId) a).joinInbound e.inFd a).joinOutbound
        a co).concat a e.connection =
      (L.create a e).layout (((L.layout used).joinInbound e.inFd a).used) := by
  refine ExtLayout.ext ?_ ?_ (funext fun R => ring_create e used hco _ R) (funext fun i => ?_)
  · have hcells : ((((L.layout used).pushed (extConnHash e.inFd e.inConnId) a).joinInbound e.inFd
        a).joinOutbound a co).cells = (L.layout used).cells := by
      unfold ExtLayout.joinInbound
      cases co <;> split_ifs <;> rfl
    simp only [ExtLayout.concat, hcells]
    simp [layout, create]
  · unfold ExtLayout.joinInbound
    cases co <;> split_ifs <;> rfl
  · have hchain : ((((L.layout used).pushed (extConnHash e.inFd e.inConnId) a).joinInbound e.inFd
        a).joinOutbound a co).chain = Function.update L.chain (extConnHash e.inFd e.inConnId)
          (a :: L.chain (extConnHash e.inFd e.inConnId)) := by
      unfold ExtLayout.joinInbound
      cases co <;> split_ifs <;> rfl
    refine (congrFun hchain i).trans ?_
    change _ = (L.create a e).chain i
    by_cases hi : i = extConnHash e.inFd e.inConnId
    · rw [hi, Function.update_self, chain, chain, having_create,
        if_pos (decide_eq_true rfl), List.reverse_append]
      rfl
    · rw [Function.update_of_ne hi, chain, chain, having_create, if_neg]
      simpa using fun h => hi h.symm

end ExtLedger

/-- A chain is no longer than the table. -/
theorem ExtTable.Holds.chain_length (h : m.Holds L) (i : ℕ) :
    (L.chain i).length < m.extConnections.toNat + 1 := by
  have hle : (L.chain i).length ≤ L.live.length := by
    unfold ExtLedger.chain ExtLedger.having
    rw [List.length_reverse, List.length_map]
    exact List.length_filter_le _ _
  rw [h.count, Int.toNat_natCast]
  exact Nat.lt_succ_of_le hle

/-- The walk down a chain finds nothing for an `fd` that has no entry. -/
theorem ExtTable.Holds.chainLoop_absent (h : m.Holds L) {fd : ℕ} (inConnId : UInt64)
    (hno : ∀ x ∈ L.live, x.2.inFd ≠ fd) :
    m.chainLoop fd inConnId (m.extConnections.toNat + 1) (.bucket (extConnHash fd inConnId)) =
      .ok none := by
  obtain ⟨used, hl, -, -⟩ := h.laidOut
  have hseg := hl.chained.chains (extConnHash fd inConnId)
  refine chainLoop_none rfl hseg (fun b hb d hd hsame => ?_) (h.chain_length _)
  obtain ⟨e, hx, -⟩ := ExtLedger.mem_having.mp (List.mem_reverse.mp hb)
  obtain ⟨d', hd', hde⟩ := h.load hx
  obtain rfl := Option.some.inj (hd.symm.trans hd')
  exact hno _ hx ((congrArg ExtConnection.inFd hde).symm.trans hsame.1)

/-- The last id of each slot after an entry was created. -/
theorem ExtTable.Holds.ids_create (h : m.Holds L) {ci : ConnectionJob} {inConnId : UInt64}
    (authKeyId : UInt64) {co : Option ConnectionJob} {draws : List ℕ} {s : ℕ}
    (hc : L.Creates ci inConnId co a draws s) (s' : ℕ) :
    (Function.update m.outExtConnections s
      ⟨some (.cell a), nextOutConnId (L.issued s) s⟩ s').outConnId =
      (L.create a (L.newEntry ci inConnId co authKeyId s)).issued s' := by
  change _ = Function.update L.issued
    (slotOf (L.newEntry ci inConnId co authKeyId s).outConnId) _ s'
  rw [hc.slotOf]
  by_cases hs : s' = s
  · rw [hs, Function.update_self, Function.update_self]
    rfl
  · rw [Function.update_of_ne hs, Function.update_of_ne hs]
    exact h.ids s'

/-- What the slots lead to after an entry was created. -/
theorem ExtTable.Holds.refs_create (h : m.Holds L) {ci : ConnectionJob} {inConnId : UInt64}
    (authKeyId : UInt64) {co : Option ConnectionJob} {draws : List ℕ} {s : ℕ}
    (hc : L.Creates ci inConnId co a draws s) (s' : ℕ) (r : ExtRef) :
    (Function.update m.outExtConnections s
      ⟨some (.cell a), nextOutConnId (L.issued s) s⟩ s').ref = some r ↔
      ∃ x ∈ (L.create a (L.newEntry ci inConnId co authKeyId s)).live,
        r = .cell x.1 ∧ slotOf x.2.outConnId = s' := by
  change _ ↔ ∃ x ∈ L.live ++ [_], _
  have hfree := (pick_spec hc.slot).2
  by_cases hs : s' = s
  · rw [hs, Function.update_self]
    constructor
    · rintro hr
      obtain rfl := Option.some.inj hr
      exact ⟨_, List.mem_append_right _ List.mem_cons_self, rfl, hc.slotOf⟩
    · rintro ⟨x, hx, rfl, hxs⟩
      rcases List.mem_append.mp hx with hx | hx
      · exact absurd hxs (hfree x hx)
      · rw [List.mem_singleton.mp hx]
  · rw [Function.update_of_ne hs, h.refs]
    constructor
    · rintro ⟨x, hx, hxs⟩
      exact ⟨x, List.mem_append_left _ hx, hxs⟩
    · rintro ⟨x, hx, hr, hxs⟩
      rcases List.mem_append.mp hx with hx | hx
      · exact ⟨x, hx, hr, hxs⟩
      · rw [List.mem_singleton.mp hx, hc.slotOf] at hxs
        exact absurd hxs.symm hs

/-- **`create_ext_connection` enters an entry**: no assertion fails, and the table holds the
ledger with it. -/
theorem ExtTable.Holds.create (h : m.Holds L) {ci : ConnectionJob} {inConnId : UInt64}
    (authKeyId : UInt64) {co : Option ConnectionJob} {draws : List ℕ} {s : ℕ}
    (hc : L.Creates ci inConnId co a draws s) :
    ∃ m', m.createExtConnection ci inConnId co authKeyId (some a) draws = .ok (m', .cell a) ∧
      m'.Holds (L.create a (L.newEntry ci inConnId co authKeyId s)) := by
  obtain ⟨used, hl, hlru, hout⟩ := h.laidOut
  have haddr : a ∉ cellAddresses (L.layout used).cells := by
    rw [ExtLedger.layout_addresses]
    exact hc.fresh
  -- No entry is found, and there is room.
  have hloop := h.chainLoop_absent inConnId hc.none
  have hcount : m.extConnections < (EXT_CONN_TABLE_SIZE / 2 : ℕ) := by
    rw [h.count]
    exact_mod_cast lt_of_le_of_lt h.sound.length_le (by decide)
  have hid : nextOutConnId (m.outExtConnections s).outConnId s =
      nextOutConnId (L.issued s) s := congrArg (nextOutConnId · s) (h.ids s)
  have hne : nextOutConnId (m.outExtConnections s).outConnId s ≠ 0 := by
    rw [hid]
    exact nextOutConnId_ne_zero hc.unwrapped
  obtain ⟨mem₁, hrun₁, h₁⟩ := createNew_eq (extConnHash ci.fd inConnId) ci.generation
    hl haddr hcount hc.inRange (ring_inbound_none hc.none)
    (h.slotLoop hc.slot) hne
  rw [hid] at hrun₁ h₁
  let m₁ : ExtTable := { m with
    mem := mem₁
    inExtConnectionHash :=
      Function.update m.inExtConnectionHash (extConnHash ci.fd inConnId) (some (.cell a))
    outExtConnections := Function.update m.outExtConnections s
      ⟨some (.cell a), nextOutConnId (L.issued s) s⟩
    extConnections := m.extConnections + 1
    extConnectionsCreated := m.extConnectionsCreated + 1 }
  have hcells := ExtLayout.joinInbound_cells
    ((L.layout used).pushed (extConnHash ci.fd inConnId) a) ci.fd a
  have hnoOut (R : ExtRing) (hR : R.kind = .outbound) :
      a ∉ (((L.layout used).pushed (extConnHash ci.fd inConnId) a).joinInbound ci.fd a).ring R := by
    rw [ExtLayout.joinInbound_ring_of_kind (by rw [hR]; decide)]
    exact fun hmem => haddr (hl.ringed.onRing R a hmem)
  -- The new entry is as `calloc` has left it where it has not been written to.
  obtain ⟨d, hd, hdc⟩ := Option.map_eq_some_iff.mp (h₁.stored.entries (a, _)
    (List.mem_append_right _ List.mem_cons_self))
  have hnew : d.outFd = 0 ∧ d.oNext = none ∧ d.authKeyId = 0 := by
    refine ⟨congrArg ExtConnection.outFd hdc, ?_, congrArg ExtConnection.authKeyId hdc⟩
    have hloose := h₁.ringed.loose .outbound a (ExtLayout.mem_concat _ a _) hnoOut
    rw [hd] at hloose
    exact congrArg Prod.fst (Option.some.inj hloose)
  have hrange : ∀ d ∈ co, d.fd < MAX_CONNECTIONS := fun d hd =>
    h.sound.readyRange d (hc.ready d hd).1
  have hother : co ≠ some ci := fun he => (hc.ready ci he).2 rfl
  obtain ⟨mem₂, hrun₂, h₂⟩ := linkOutbound_eq (m := m₁) co h₁ (hcells ▸ haddr)
    (fun d hd => by
      rw [ExtLayout.joinInbound_used_of_kind (by simp [ExtRing.kind])]
      exact (hout d.fd).mpr ⟨d, (hc.ready d hd).1, rfl⟩) hnoOut
  obtain ⟨hrun₃, h₃⟩ := h₂.writeLast (f := fun c => { c with authKeyId := authKeyId })
    (by rw [ExtLayout.joinOutbound_cells, hcells]; exact haddr) (fun _ => rfl) (fun _ => rfl)
    (fun c k => by cases k <;> rfl)
  refine ⟨{ m₁ with mem := mem₂.alter (.cell a) fun c => { c with authKeyId := authKeyId } }, ?_,
    h.sound.create hc.fits, ?_, ?_, ?_, ?_, ?_, h.tags, h.untagged⟩
  · have hfind : m.getExtConnectionByInConnId ci.fd ci.generation inConnId 2 (some a) draws =
        .ok (m₁, .entry (.cell a)) := by
      simp only [ExtTable.getExtConnectionByInConnId, hloop, ok_seq, hrun₁]
      rfl
    have hd₁ : m₁.mem (.cell a) = some d := hd
    simp only [ExtTable.createExtConnection, hfind, ok_seq, load_eq hd₁, check_pos hnew,
      check_pos hrange, check_pos hother, hrun₂, hrun₃]
    rfl
  · refine ⟨((L.layout used).joinInbound ci.fd a).used, ?_, ?_, fun fd => ?_⟩
    · have heq := ExtLedger.layout_create (L := L) (a := a) co
        (L.newEntry ci inConnId co authKeyId s) used rfl
      have hcell : (L.newEntry ci inConnId co authKeyId s).connection =
          { joinedCell (freshCell ci.fd ci.generation inConnId
              (nextOutConnId (L.issued s) s)) co with authKeyId := authKeyId } := by
        cases co <;> rfl
      rw [hcell] at heq
      exact heq ▸ h₃
    · rw [ExtLayout.joinInbound_used_of_kind (by decide)]
      exact hlru
    · rw [ExtLayout.joinInbound_used_of_kind (R := .outbound fd) (by simp [ExtRing.kind])]
      exact hout fd
  · exact h.ids_create authKeyId hc
  · exact h.refs_create authKeyId hc
  · change m.extConnections + 1 = ((L.live ++ [_]).length : ℤ)
    rw [h.count, List.length_append, List.length_singleton]
    push_cast
    rfl
  · change m.extConnectionsCreated + 1 = ((L.live ++ [_]).length : ℤ) + L.removed.length
    rw [h.created, List.length_append, List.length_singleton]
    push_cast
    omega

end Server
end Teleproto3
