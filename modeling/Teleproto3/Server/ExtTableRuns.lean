/-
# Every run of the table of ext_connections

The functions that change the table are called in any order, by a program that asks for an entry
only for a client that has none, removes only what it has found, and joins entries to connections
that are ready.  `extTable_exact` says what holds at the end of every such run: no assertion has
failed, the table holds exactly what the ledger lists, an id is found exactly while its entry is
live, and the id of an entry that was removed is not found again.
-/

import Mathlib.Data.Finset.Card
import Teleproto3.Server.ExtClosing

namespace Teleproto3
namespace Server

open Lib

/-- What happens to the table. -/
inductive ExtEvent
  /-- `mtfront_client_ready` -/
  | ready (c : ConnectionJob)
  /-- `mtfront_client_close` -/
  | close (conns : ExtTable.Connections) (c : ConnectionJob)
  /-- `create_ext_connection`, with what `calloc` and `lrand48` return -/
  | create (ci : ConnectionJob) (inConnId : UInt64) (co : Option ConnectionJob)
      (authKeyId : UInt64) (room : Option ℕ) (draws : List ℕ)
  /-- `remove_ext_connection` of the entry in a cell -/
  | remove (conns : ExtTable.Connections) (a : ℕ) (sendNotifications : ℕ)
  /-- `lru_insert_conn` -/
  | touch (c : ConnectionJob)

/-- One call. -/
def ExtTable.step (m : ExtTable) : ExtEvent → Except ExtFault (ExtTable × List ExtNotice)
  | .ready c => (m.mtfrontClientReady c).map fun m => (m, [])
  | .close conns c => m.mtfrontClientClose conns c
  | .create ci inConnId co authKeyId room draws =>
    (m.createExtConnection ci inConnId co authKeyId room draws).map fun x => (x.1, [])
  | .remove conns a sendNotifications =>
    m.removeExtConnection conns (some (.cell a)) sendNotifications
  | .touch c => (m.lruInsertConn c).map fun m => (m, [])

/-- Calls one after the other. -/
def ExtTable.run : ExtTable → List ExtEvent → Except ExtFault ExtTable
  | m, [] => .ok m
  | m, ev :: evs => (m.step ev).bind fun x => x.1.run evs

namespace ExtLedger

/-- What the ledger makes of a call. -/
def step (L : ExtLedger) : ExtEvent → ExtLedger
  | .ready c => L.markReady c
  | .close _ c => L.close c
  | .create ci inConnId co authKeyId room draws =>
    match room, L.pick (if inConnId ≠ 0 then draws else ci.fd :: draws) with
    | some a, some s => L.create a (L.newEntry ci inConnId co authKeyId s)
    | _, _ => L
  | .remove _ a _ => L.remove a
  | .touch c => L.touch c

/-- Calls one after the other. -/
def run (L : ExtLedger) (evs : List ExtEvent) : ExtLedger := evs.foldl step L

/-- **The calls that the program makes.** -/
def Legal (L : ExtLedger) : ExtEvent → Prop
  | .ready c => c.fd < MAX_CONNECTIONS ∧ (∀ d ∈ L.ready, d.fd ≠ c.fd) ∧
      ∀ d ∈ L.ready, d.job ≠ c.job
  | .close _ c => c.fd < MAX_CONNECTIONS ∧ (∀ d ∈ L.ready, d.job = c.job → d = c) ∧
      ∀ x ∈ L.joinedTo c.fd, x.2.Removable 2
  | .create ci inConnId co _ room draws =>
    ∃ a s, room = some a ∧ L.Creates ci inConnId co a draws s
  | .remove _ a sendNotifications => ∃ e, (a, e) ∈ L.live ∧ e.Removable sendNotifications
  | .touch c => c.fd < MAX_CONNECTIONS

/-- Every call of a run is legal when it is made. -/
def LegalRun (L : ExtLedger) : List ExtEvent → Prop
  | [] => True
  | ev :: evs => L.Legal ev ∧ (L.step ev).LegalRun evs

end ExtLedger

variable {m : ExtTable} {L : ExtLedger}

/-- **A legal call returns**, and the table holds what the ledger makes of it. -/
theorem ExtTable.Holds.step (h : m.Holds L) {ev : ExtEvent} (hev : L.Legal ev) :
    ∃ m' notices, m.step ev = .ok (m', notices) ∧ m'.Holds (L.step ev) := by
  cases ev with
  | ready c =>
    obtain ⟨hfd, hfds, hjobs⟩ := hev
    obtain ⟨m', hrun, h'⟩ := h.markReady hfd hfds hjobs
    exact ⟨m', [], by rw [ExtTable.step, hrun, Except.map], h'⟩
  | close conns c =>
    obtain ⟨hfd, hjob, hrem⟩ := hev
    obtain ⟨m', hrun, h'⟩ := h.close conns hfd hjob hrem
    exact ⟨m', _, hrun, h'⟩
  | create ci inConnId co authKeyId room draws =>
    obtain ⟨a, s, rfl, hc⟩ := hev
    obtain ⟨m', hrun, h'⟩ := h.create authKeyId hc
    have hstep : L.step (.create ci inConnId co authKeyId (some a) draws) =
        L.create a (L.newEntry ci inConnId co authKeyId s) := by
      simp only [ExtLedger.step, hc.slot]
    exact ⟨m', [], by rw [ExtTable.step, hrun, Except.map], hstep ▸ h'⟩
  | remove conns a flags =>
    obtain ⟨e, hx, hr⟩ := hev
    obtain ⟨m', hrun, h'⟩ := h.remove hx conns hr
    exact ⟨m', _, hrun, h'⟩
  | touch c =>
    obtain ⟨m', hrun, h'⟩ := h.touch hev
    exact ⟨m', [], by rw [ExtTable.step, hrun, Except.map], h'⟩

/-- The same of a run. -/
theorem ExtTable.Holds.run (h : m.Holds L) {evs : List ExtEvent} (hevs : L.LegalRun evs) :
    ∃ m', m.run evs = .ok m' ∧ m'.Holds (L.run evs) := by
  induction evs generalizing m L with
  | nil => exact ⟨m, rfl, h⟩
  | cons ev evs ih =>
    obtain ⟨hev, hevs⟩ := hevs
    obtain ⟨m₁, notices, hrun₁, h₁⟩ := h.step hev
    obtain ⟨m₂, hrun₂, h₂⟩ := ih h₁ hevs
    exact ⟨m₂, by rw [ExtTable.run, hrun₁, Except.bind, hrun₂], h₂⟩

/-- **What is found by an id is the live entry it was issued to.** -/
theorem ExtTable.Holds.find_iff (h : m.Holds L) (id : UInt64) (r : ExtRef) :
    m.findExtConnectionByOutConnId id = .ok (some r) ↔
      ∃ x ∈ L.live, r = .cell x.1 ∧ x.2.outConnId = id := by
  by_cases hent : ∃ x ∈ L.live, x.2.outConnId = id
  · obtain ⟨⟨a, e⟩, hx, rfl⟩ := hent
    rw [h.find_live hx]
    constructor
    · intro he
      exact ⟨(a, e), hx, (Option.some.inj (Except.ok.inj he)).symm, rfl⟩
    · rintro ⟨y, hy, rfl, hid⟩
      rw [h.sound.of_outConnId hy hx hid]
  · rw [h.find_other fun x hx he => hent ⟨x, hx, he⟩]
    refine iff_of_false (by simp) ?_
    rintro ⟨x, hx, -, hid⟩
    exact hent ⟨x, hx, hid⟩

/-- **The table of ext_connections is exact.**  Every run of legal calls ends without a fault, in a
table whose chains, circles and slots hold the live entries and no others; an id leads to the entry
it was issued to as long as that is live, and the id of a removed entry leads nowhere. -/
theorem extTable_exact (evs : List ExtEvent) (hevs : ExtLedger.start.LegalRun evs) :
    ∃ m, ExtTable.empty.run evs = .ok m ∧ m.Holds (ExtLedger.start.run evs) ∧
      (∀ id r, m.findExtConnectionByOutConnId id = .ok (some r) ↔
        ∃ x ∈ (ExtLedger.start.run evs).live, r = .cell x.1 ∧ x.2.outConnId = id) ∧
      ∀ e ∈ (ExtLedger.start.run evs).removed,
        m.findExtConnectionByOutConnId e.outConnId = .ok none := by
  obtain ⟨m, hrun, h⟩ := ExtTable.empty_holds.run hevs
  exact ⟨m, hrun, h, h.find_iff, fun e he => h.find_other (h.sound.past e he).2⟩

/-- A data centre's connection on 7, two clients on 5 and 6 of which the first comes again, and the
end of the connection. -/
def sampleTableCalls : List ExtEvent :=
  [.ready ⟨1, 7, 3⟩, .create ⟨2, 5, 8⟩ 0 (some ⟨1, 7, 3⟩) 11 (some 100) [],
    .create ⟨3, 6, 9⟩ 0 (some ⟨1, 7, 3⟩) 12 (some 101) [], .touch ⟨2, 5, 8⟩,
    .remove (fun _ _ => none) 100 3, .create ⟨4, 5, 10⟩ 0 (some ⟨1, 7, 3⟩) 13 (some 100) [],
    .close (fun _ _ => none) ⟨1, 7, 3⟩]

theorem extTable_exact_sample :
    ∃ m, ExtTable.empty.run sampleTableCalls = .ok m ∧
      m.Holds (ExtLedger.start.run sampleTableCalls) ∧
      (∀ id r, m.findExtConnectionByOutConnId id = .ok (some r) ↔
        ∃ x ∈ (ExtLedger.start.run sampleTableCalls).live, r = .cell x.1 ∧ x.2.outConnId = id) ∧
      ∀ e ∈ (ExtLedger.start.run sampleTableCalls).removed,
        m.findExtConnectionByOutConnId e.outConnId = .ok none := by
  refine extTable_exact sampleTableCalls ⟨⟨by decide, by decide, by decide⟩,
    ⟨100, 5, rfl, by decide, by decide, by decide, by decide, by decide, by decide⟩,
    ⟨101, 6, rfl, by decide, by decide, by decide, by decide, by decide, by decide⟩,
    (by decide : 5 < MAX_CONNECTIONS),
    ⟨⟨5, 8, 0, some (7, 3), 4194309, 11⟩, by decide, by decide⟩,
    ⟨100, 5, rfl, by decide, by decide, by decide, by decide, by decide, by decide⟩,
    ⟨by decide, by decide, by decide⟩, trivial⟩

/-- **Where the table is not exact, or an assertion fails**: an entry whose `in_fd` is 0 is live and
is found by its id, but its circle has not begun; an entry with an `in_conn_id` cannot be removed
with the client told; and `calloc` may find no room. -/
theorem extTable_limits :
    ((ExtTable.empty.run [.create ⟨1, 0, 5⟩ 0 none 9 (some 100) []]).bind fun m =>
        (m.findExtConnectionByOutConnId 4194304).bind fun found =>
          (m.mem.load (.head 0)).map fun h => (found, h.iNext)) = .ok (some (.cell 100), none) ∧
      ((ExtTable.empty.run [.create ⟨1, 6, 5⟩ 7 none 9 (some 100) [3],
        .remove (fun _ _ => none) 100 2]).map fun _ => ()) = .error .inConnId ∧
      ((ExtTable.empty.run [.create ⟨1, 6, 5⟩ 0 none 9 none []]).map fun _ => ()) =
        .error .noRoom :=
  ⟨rfl, rfl, rfl⟩

end Server
end Teleproto3
