/-
# The table of ext_connections in memory

`server/src/mtproto/mtproto-proxy.c` joins a client's connection to a connection of a data centre
by a `struct ext_connection`.  Each is linked four times: into a chain of
`InExtConnectionHash` by `(in_fd, in_conn_id)`, into the circles through `ExtConnectionHead` of
its `in_fd` and of its `out_fd`, and into the circle through `ConnLRU`.  A slot of
`OutExtConnections` leads back to it from its `out_conn_id`.

The functions are taken over with their pointers.  An access through a pointer to nothing, a
failed assertion and a walk that never ends are faults.
-/

import Mathlib.Algebra.Order.Ring.Int
import Mathlib.Data.List.Basic
import Mathlib.Logic.Function.Basic

namespace Teleproto3
namespace Server

/-! ### Memory -/

/-- `MAX_CONNECTIONS`. -/
def MAX_CONNECTIONS : ℕ := 65536

/-- `EXT_CONN_TABLE_SIZE`. -/
def EXT_CONN_TABLE_SIZE : ℕ := 2 ^ 22

/-- `EXT_CONN_HASH_SHIFT`. -/
def EXT_CONN_HASH_SHIFT : ℕ := 20

/-- `struct ext_connection *`: an entry of `ExtConnectionHead`, `ConnLRU`, or what `calloc`
returned. -/
inductive ExtRef
  | head (fd : ℕ)
  | connLru
  | cell (a : ℕ)
  deriving DecidableEq, Repr

/-- `struct ext_connection`.  The defaults are the zeros of `calloc`. -/
structure ExtConnection where
  oPrev : Option ExtRef := none
  oNext : Option ExtRef := none
  iPrev : Option ExtRef := none
  iNext : Option ExtRef := none
  hNext : Option ExtRef := none
  inFd : ℕ := 0
  inGen : ℕ := 0
  outFd : ℕ := 0
  outGen : ℕ := 0
  inConnId : UInt64 := 0
  outConnId : UInt64 := 0
  authKeyId : UInt64 := 0
  lruPrev : Option ExtRef := none
  lruNext : Option ExtRef := none
  deriving DecidableEq, Repr

/-- The three circles an entry can be on. -/
inductive RingKind
  | outbound
  | inbound
  | lru
  deriving DecidableEq, Repr

namespace RingKind

/-- `o_next`, `i_next` or `lru_next`. -/
def next : RingKind → ExtConnection → Option ExtRef
  | outbound, c => c.oNext
  | inbound, c => c.iNext
  | lru, c => c.lruNext

/-- `o_prev`, `i_prev` or `lru_prev`. -/
def prev : RingKind → ExtConnection → Option ExtRef
  | outbound, c => c.oPrev
  | inbound, c => c.iPrev
  | lru, c => c.lruPrev

/-- `o_next`, `i_next` or `lru_next` is written. -/
def setNext : RingKind → Option ExtRef → ExtConnection → ExtConnection
  | outbound, p, c => { c with oNext := p }
  | inbound, p, c => { c with iNext := p }
  | lru, p, c => { c with lruNext := p }

/-- `o_prev`, `i_prev` or `lru_prev` is written. -/
def setPrev : RingKind → Option ExtRef → ExtConnection → ExtConnection
  | outbound, p, c => { c with oPrev := p }
  | inbound, p, c => { c with iPrev := p }
  | lru, p, c => { c with lruPrev := p }

/-- Both links are set to zero. -/
def clear (k : RingKind) (c : ExtConnection) : ExtConnection := k.setNext none (k.setPrev none c)

end RingKind

/-- How a call fails. -/
inductive ExtFault
  /-- an access through a pointer to nothing -/
  | memory
  /-- a walk over more cells than there are comes by one twice, or the random slots run out -/
  | endless
  /-- `assert ((unsigned) fd < MAX_CONNECTIONS)` -/
  | fdRange
  /-- `assert (H->i_next == H->i_prev)` -/
  | manyInbound
  /-- `assert (Ex->in_fd == in_fd)` -/
  | otherInFd
  /-- `assert (cur->out_conn_id)`, `assert (Ex->out_conn_id)` -/
  | noId
  /-- `assert (OutExtConnections[h].ref == cur)` -/
  | slotRef
  /-- `assert (OutExtConnections[h].out_conn_id == cur->out_conn_id)` -/
  | slotId
  /-- `assert (ext_connections < EXT_CONN_TABLE_SIZE / 2)` -/
  | tableFull
  /-- `assert (cur)` behind `calloc` -/
  | noRoom
  /-- `assert (H->i_next == H)` -/
  | inboundTaken
  /-- `assert (cur->out_conn_id == out_conn_id)` -/
  | otherId
  /-- `assert (Ex && "ext_connection already exists")` -/
  | alreadyExists
  /-- `assert (!Ex->out_fd && !Ex->o_next && !Ex->auth_key_id)` -/
  | notNew
  /-- `assert (CO != CI)` -/
  | sameConnection
  /-- `assert (H->o_next)` -/
  | notReady
  /-- `assert (Ex)` -/
  | noEntry
  /-- `assert (Ex == find_ext_connection_by_out_conn_id (Ex->out_conn_id))` -/
  | notFound
  /-- `assert (Ex->o_next)` -/
  | noOutbound
  /-- `assert (Ex->i_next)` -/
  | noInbound
  /-- `assert (0)` of an entry with an `in_conn_id` -/
  | inConnId
  /-- `assert (get_ext_connection_by_in_conn_id (..) == (void *) -1L)` -/
  | notDeleted
  /-- `assert (!D->extra_int)`, `assert (D->extra_int == get_conn_tag (C))` -/
  | connTag
  /-- `assert (!H->o_prev)` -/
  | alreadyReady
  /-- `assert (Ex->out_fd == fd)` -/
  | otherOutFd
  /-- `assert (H->o_next == H && H->o_prev == H)` -/
  | outboundLeft
  deriving DecidableEq, Repr

/-- An assertion. -/
def check (p : Prop) [Decidable p] (f : ExtFault) : Except ExtFault Unit :=
  if p then .ok () else .error f

/-- The cells that are allocated. -/
abbrev ExtMemory := ExtRef → Option ExtConnection

namespace ExtMemory

variable (mem : ExtMemory)

/-- A cell is read. -/
def load (r : ExtRef) : Except ExtFault ExtConnection :=
  match mem r with
  | some c => .ok c
  | none => .error .memory

/-- A pointer is followed. -/
def deref : Option ExtRef → Except ExtFault ExtRef
  | some r => .ok r
  | none => .error .memory

/-- What stands in memory after a cell was changed. -/
def alter (r : ExtRef) (f : ExtConnection → ExtConnection) : ExtMemory :=
  fun x => if x = r then (mem x).map f else mem x

/-- A cell is changed. -/
def modify (r : ExtRef) (f : ExtConnection → ExtConnection) : Except ExtFault ExtMemory :=
  (mem.load r).map fun _ => mem.alter r f

/-- The neighbours of a cell are linked to each other:
`cur->i_next->i_prev = cur->i_prev; cur->i_prev->i_next = cur->i_next;`. -/
def bypass (k : RingKind) (cur : ExtRef) : Except ExtFault ExtMemory := do
  let c ← mem.load cur
  let mem ← mem.modify (← deref (k.next c)) (k.setPrev (k.prev c))
  let c ← mem.load cur
  mem.modify (← deref (k.prev c)) (k.setNext (k.next c))

/-- A cell leaves the circle it is on, if it is on one. -/
def unlink (k : RingKind) (cur : ExtRef) : Except ExtFault ExtMemory := do
  let c ← mem.load cur
  if k.next c = none then return mem
  let mem ← mem.bypass k cur
  mem.modify cur k.clear

/-- A cell is put in before the head of a circle:
`cur->i_next = H; cur->i_prev = H->i_prev; H->i_prev->i_next = cur; H->i_prev = cur;`. -/
def linkLast (k : RingKind) (H cur : ExtRef) : Except ExtFault ExtMemory := do
  let mem ← mem.modify cur (k.setNext (some H))
  let h ← mem.load H
  let mem ← mem.modify cur (k.setPrev (k.prev h))
  let h ← mem.load H
  let mem ← mem.modify (← deref (k.prev h)) (k.setNext (some cur))
  mem.modify H (k.setPrev (some cur))

/-- `lru_delete_ext_conn`. -/
def lruDeleteExtConn (ext : ExtRef) : Except ExtFault ExtMemory := do
  let c ← mem.load ext
  let mem ← if c.lruNext ≠ none then mem.bypass .lru ext else pure mem
  mem.modify ext (RingKind.clear .lru)

/-- `lru_insert_ext_conn`. -/
def lruInsertExtConn (ext : ExtRef) : Except ExtFault ExtMemory := do
  let mem ← mem.lruDeleteExtConn ext
  let h ← mem.load .connLru
  let mem ← mem.modify ext fun c => { c with lruPrev := h.lruPrev }
  let mem ← mem.modify ext fun c => { c with lruNext := some .connLru }
  let c ← mem.load ext
  let mem ← mem.modify (← deref c.lruNext) fun c => { c with lruPrev := some ext }
  let c ← mem.load ext
  mem.modify (← deref c.lruPrev) fun c => { c with lruNext := some ext }

end ExtMemory

/-- `connection_job_t` with the `fd` and the `generation` of its `CONN_INFO`. -/
structure ConnectionJob where
  job : ℕ
  fd : ℕ
  generation : ℕ
  deriving DecidableEq, Repr

/-- `get_conn_tag`. -/
def ConnectionJob.tag (c : ConnectionJob) : ℕ := 1 + c.generation % 2 ^ 24

/-- `struct ext_connection_ref`. -/
structure ExtConnectionRef where
  ref : Option ExtRef
  outConnId : UInt64
  deriving DecidableEq, Repr

/-- The static data of `mtproto-proxy.c`, and `extra_int` of the connections. -/
structure ExtTable where
  mem : ExtMemory
  inExtConnectionHash : ℕ → Option ExtRef
  outExtConnections : ℕ → ExtConnectionRef
  extConnections : ℤ
  extConnectionsCreated : ℤ
  extraInt : ℕ → ℕ

/-- A pointer that can be written: a bucket of `InExtConnectionHash`, or the `h_next` of a
cell. -/
inductive ExtLink
  | bucket (h : ℕ)
  | hNext (r : ExtRef)
  deriving DecidableEq, Repr

/-- What `get_ext_connection_by_in_conn_id` returns: `0`, `(void *) -1L` or an entry. -/
inductive ExtFound
  | null
  | deleted
  | entry (r : ExtRef)
  deriving DecidableEq, Repr

/-- What a call does to connections. -/
inductive ExtNotice
  /-- `_notify_remote_closed (CO, out_conn_id)` -/
  | remoteClosed (co : ConnectionJob) (outConnId : UInt64)
  /-- `fail_connection (CI, -33)` -/
  | failConnection (ci : ConnectionJob)
  deriving DecidableEq, Repr

/-- `ext_conn_hash`. -/
def extConnHash (inFd : ℕ) (inConnId : UInt64) : ℕ :=
  ((UInt64.ofNat inFd * 11400714819323198485 + inConnId * 13043817825332782213) >>>
    UInt64.ofNat (64 - EXT_CONN_HASH_SHIFT)).toNat

/-- `out_conn_id & (EXT_CONN_TABLE_SIZE - 1)`. -/
def slotOf (outConnId : UInt64) : ℕ := (outConnId &&& UInt64.ofNat (EXT_CONN_TABLE_SIZE - 1)).toNat

/-- `(out_conn_id | (EXT_CONN_TABLE_SIZE - 1)) + 1 + h`. -/
def nextOutConnId (outConnId : UInt64) (h : ℕ) : UInt64 :=
  (outConnId ||| UInt64.ofNat (EXT_CONN_TABLE_SIZE - 1)) + 1 + UInt64.ofNat h

namespace ExtTable

/-- The program as it starts: the heads are zero, `ConnLRU` is linked to itself. -/
def empty : ExtTable where
  mem
    | .head _ => some {}
    | .connLru => some { lruPrev := some .connLru, lruNext := some .connLru }
    | .cell _ => none
  inExtConnectionHash _ := none
  outExtConnections _ := ⟨none, 0⟩
  extConnections := 0
  extConnectionsCreated := 0
  extraInt _ := 0

variable (m : ExtTable)

/-- `*prev`. -/
def loadLink : ExtLink → Except ExtFault (Option ExtRef)
  | .bucket h => .ok (m.inExtConnectionHash h)
  | .hNext r => (m.mem.load r).map ExtConnection.hNext

/-- `*prev = p`. -/
def storeLink (p : Option ExtRef) : ExtLink → Except ExtFault ExtTable
  | .bucket h => .ok { m with inExtConnectionHash := Function.update m.inExtConnectionHash h p }
  | .hNext r => (m.mem.modify r fun c => { c with hNext := p }).map fun mem => { m with mem := mem }

/-! ### Looking up -/

/-- `get_ext_connection_by_in_fd`. -/
def getExtConnectionByInFd (inFd : ℕ) : Except ExtFault (Option ExtRef) := do
  check (inFd < MAX_CONNECTIONS) .fdRange
  let h ← m.mem.load (.head inFd)
  check (h.iNext = h.iPrev) .manyInbound
  match h.iNext with
  | none => return none
  | some ex =>
    if ex = .head inFd then return none
    let c ← m.mem.load ex
    check (c.inFd = inFd) .otherInFd
    return some ex

/-- `find_ext_connection_by_out_conn_id`. -/
def findExtConnectionByOutConnId (outConnId : UInt64) : Except ExtFault (Option ExtRef) := do
  let s := m.outExtConnections (slotOf outConnId)
  match s.ref with
  | none => return none
  | some cur =>
    if s.outConnId ≠ outConnId then return none
    let c ← m.mem.load cur
    check (c.outConnId = outConnId) .otherId
    return some cur

/-- The loop of `get_ext_connection_by_in_conn_id`: the pointer to the entry, and the entry. -/
def chainLoop (inFd : ℕ) (inConnId : UInt64) :
    ℕ → ExtLink → Except ExtFault (Option (ExtLink × ExtRef))
  | 0, _ => .error .endless
  | n + 1, prev => do
    match ← m.loadLink prev with
    | none => return none
    | some cur =>
      let c ← m.mem.load cur
      if c.inFd = inFd ∧ c.inConnId = inConnId then return some (prev, cur)
      chainLoop inFd inConnId n (.hNext cur)

/-! ### Deleting -/

/-- What `get_ext_connection_by_in_conn_id` does with the entry it has found in mode 1. -/
def deleteFound (prev : ExtLink) (cur : ExtRef) : Except ExtFault ExtTable := do
  let mem ← m.mem.unlink .inbound cur
  let mem ← mem.unlink .outbound cur
  let mem ← mem.lruDeleteExtConn cur
  let m := { m with mem := mem }
  let c ← m.mem.load cur
  let m ← m.storeLink c.hNext prev
  let mem ← m.mem.modify cur fun c => { c with hNext := none }
  let m := { m with mem := mem }
  let c ← m.mem.load cur
  let h := slotOf c.outConnId
  check ((m.outExtConnections h).ref = some cur) .slotRef
  check ((m.outExtConnections h).outConnId = c.outConnId) .slotId
  -- What is written to the cell between here and `free` is not read.
  return { m with
    mem := Function.update m.mem cur none
    outExtConnections :=
      Function.update m.outExtConnections h { m.outExtConnections h with ref := none }
    extConnections := m.extConnections - 1 }

/-! ### Creating -/

/-- `while (OutExtConnections[h &= (EXT_CONN_TABLE_SIZE - 1)].ref) { h = lrand48(); }`, over the
values that `h` is given. -/
def slotLoop : List ℕ → Except ExtFault ℕ
  | [] => .error .endless
  | h :: draws =>
    let h := h &&& (EXT_CONN_TABLE_SIZE - 1)
    if (m.outExtConnections h).ref = none then .ok h else slotLoop draws

/-- A cell is allocated at `cur`, put at the head of its chain and written. -/
def allocate (h inFd inGen : ℕ) (inConnId : UInt64) (cur : ExtRef) : Except ExtFault ExtTable := do
  let mem : ExtMemory := Function.update m.mem cur (some {})
  let mem ← mem.modify cur fun c => { c with hNext := m.inExtConnectionHash h }
  let mem ← mem.modify cur fun c =>
    { c with inFd := inFd, inGen := inGen, inConnId := inConnId }
  return { m with
    mem := mem, inExtConnectionHash := Function.update m.inExtConnectionHash h (some cur) }

/-- `if (!H->i_next) { H->i_next = H->i_prev = H; }`. -/
def startInbound (H : ExtRef) : Except ExtFault ExtMemory := do
  let h ← m.mem.load H
  if h.iNext ≠ none then return m.mem
  m.mem.modify H fun c => { c with iNext := some H, iPrev := some H }

/-- The new entry is put on the circle of its `in_fd`, if that is not 0. -/
def linkInbound (inFd : ℕ) (cur : ExtRef) : Except ExtFault ExtTable := do
  if inFd = 0 then return m
  let H := ExtRef.head inFd
  let mem ← m.startInbound H
  let h ← mem.load H
  check (h.iNext = some H) .inboundTaken
  let mem ← mem.linkLast .inbound H cur
  return { m with mem := mem }

/-- The new entry is given a slot and its `out_conn_id`. -/
def issue (cur : ExtRef) (draws : List ℕ) : Except ExtFault ExtTable := do
  let h ← m.slotLoop draws
  let outConnId := nextOutConnId (m.outExtConnections h).outConnId h
  let mem ← m.mem.modify cur fun c => { c with outConnId := outConnId }
  check (outConnId ≠ 0) .noId
  return { m with
    mem := mem
    outExtConnections := Function.update m.outExtConnections h ⟨some cur, outConnId⟩ }

/-- What `get_ext_connection_by_in_conn_id` does where it has found nothing in mode 2 or 3.
`room` is what `calloc` returns, `draws` what `lrand48` returns. -/
def createNew (h inFd inGen : ℕ) (inConnId : UInt64) (room : Option ℕ) (draws : List ℕ) :
    Except ExtFault (ExtTable × ExtRef) := do
  check (m.extConnections < (EXT_CONN_TABLE_SIZE / 2 : ℕ)) .tableFull
  match room with
  | none => .error .noRoom
  | some a =>
    let cur := ExtRef.cell a
    let m ← m.allocate h inFd inGen inConnId cur
    check (inFd < MAX_CONNECTIONS) .fdRange
    let m ← m.linkInbound inFd cur
    let m ← m.issue cur (if inConnId ≠ 0 then draws else inFd :: draws)
    return ({ m with
      extConnections := m.extConnections + 1
      extConnectionsCreated := m.extConnectionsCreated + 1 }, cur)

/-- `get_ext_connection_by_in_conn_id`, `created` being `0`. -/
def getExtConnectionByInConnId (inFd inGen : ℕ) (inConnId : UInt64) (mode : ℕ) (room : Option ℕ)
    (draws : List ℕ) : Except ExtFault (ExtTable × ExtFound) := do
  let h := extConnHash inFd inConnId
  match ← m.chainLoop inFd inConnId (m.extConnections.toNat + 1) (.bucket h) with
  | some (prev, cur) =>
    let c ← m.mem.load cur
    check (c.outConnId ≠ 0) .noId
    if mode = 0 ∨ mode = 3 then return (m, .entry cur)
    if mode ≠ 1 then return (m, .null)
    let m ← m.deleteFound prev cur
    return (m, .deleted)
  | none =>
    if mode ≠ 2 ∧ mode ≠ 3 then return (m, .null)
    let (m, cur) ← m.createNew h inFd inGen inConnId room draws
    return (m, .entry cur)

/-- The entry is put on the circle of its data centre's connection, if it has one. -/
def linkOutbound (ex : ExtRef) : Option ConnectionJob → Except ExtFault ExtTable
  | none => .ok m
  | some co => do
    let h ← m.mem.load (.head co.fd)
    check (h.oNext ≠ none) .notReady
    let mem ← m.mem.linkLast .outbound (.head co.fd) ex
    let mem ← mem.modify ex fun c => { c with outFd := co.fd, outGen := co.generation }
    return { m with mem := mem }

/-- `create_ext_connection`. -/
def createExtConnection (ci : ConnectionJob) (inConnId : UInt64) (co : Option ConnectionJob)
    (authKeyId : UInt64) (room : Option ℕ) (draws : List ℕ) :
    Except ExtFault (ExtTable × ExtRef) := do
  match ← m.getExtConnectionByInConnId ci.fd ci.generation inConnId 2 room draws with
  | (m, .entry ex) =>
    let c ← m.mem.load ex
    check (c.outFd = 0 ∧ c.oNext = none ∧ c.authKeyId = 0) .notNew
    check (∀ d ∈ co, d.fd < MAX_CONNECTIONS) .fdRange
    check (co ≠ some ci) .sameConnection
    let m ← m.linkOutbound ex co
    let mem ← m.mem.modify ex fun c => { c with authKeyId := authKeyId }
    return ({ m with mem := mem }, ex)
  | _ => .error .alreadyExists

/-! ### Removing -/

/-- `connection_get_by_fd_generation`. -/
abbrev Connections := ℕ → ℕ → Option ConnectionJob

/-- What `remove_ext_connection` asserts of the outbound side of an entry, and whom it tells. -/
def outboundNotices (conns : Connections) (c : ExtConnection) (sendNotifications : ℕ) :
    Except ExtFault (List ExtNotice) := do
  if c.outFd = 0 then return []
  check (c.outFd < MAX_CONNECTIONS) .fdRange
  check (c.oNext ≠ none) .noOutbound
  if sendNotifications % 2 = 0 then return []
  return ((conns c.outFd c.outGen).map fun co => .remoteClosed co c.outConnId).toList

/-- What `remove_ext_connection` asserts of the inbound side of an entry, and whom it tells. -/
def inboundNotices (conns : Connections) (c : ExtConnection) (sendNotifications : ℕ) :
    Except ExtFault (List ExtNotice) := do
  if c.inFd = 0 then return []
  check (c.inFd < MAX_CONNECTIONS) .fdRange
  check (c.iNext ≠ none) .noInbound
  if sendNotifications / 2 % 2 = 0 then return []
  check (c.inConnId = 0) .inConnId
  return ((conns c.inFd c.inGen).map .failConnection).toList

/-- `remove_ext_connection`. -/
def removeExtConnection (conns : Connections) (ex : Option ExtRef) (sendNotifications : ℕ) :
    Except ExtFault (ExtTable × List ExtNotice) := do
  match ex with
  | none => .error .noEntry
  | some r =>
    let c ← m.mem.load r
    check (c.outConnId ≠ 0) .noId
    check ((← m.findExtConnectionByOutConnId c.outConnId) = some r) .notFound
    let outbound ← outboundNotices conns c sendNotifications
    let inbound ← inboundNotices conns c sendNotifications
    let (m, found) ← m.getExtConnectionByInConnId c.inFd c.inGen c.inConnId 1 none []
    check (found = .deleted) .notDeleted
    return (m, outbound ++ inbound)

/-! ### The connections of the data centres -/

/-- `mtfront_client_ready`. -/
def mtfrontClientReady (c : ConnectionJob) : Except ExtFault ExtTable := do
  check (c.fd < MAX_CONNECTIONS) .fdRange
  check (m.extraInt c.job = 0) .connTag
  let H := ExtRef.head c.fd
  let h ← m.mem.load H
  check (h.oPrev = none) .alreadyReady
  let mem ← m.mem.modify H fun h => { h with oPrev := some H, oNext := some H, outFd := c.fd }
  return { m with mem := mem, extraInt := Function.update m.extraInt c.job c.tag }

/-- The loop of `mtfront_client_close`. -/
def closeLoop (conns : Connections) (fd : ℕ) :
    ℕ → Option ExtRef → ExtTable → Except ExtFault (ExtTable × List ExtNotice)
  | 0, _, _ => .error .endless
  | n + 1, ex, m =>
    if ex = some (.head fd) then return (m, [])
    else do
      let c ← m.mem.load (← ExtMemory.deref ex)
      check (c.outFd = fd) .otherOutFd
      let (m, notices) ← m.removeExtConnection conns ex 2
      let (m, later) ← closeLoop conns fd n c.oNext m
      return (m, notices ++ later)

/-- `mtfront_client_close`. -/
def mtfrontClientClose (conns : Connections) (c : ConnectionJob) :
    Except ExtFault (ExtTable × List ExtNotice) := do
  check (c.fd < MAX_CONNECTIONS) .fdRange
  if m.extraInt c.job = 0 then return (m, [])
  check (m.extraInt c.job = c.tag) .connTag
  let H := ExtRef.head c.fd
  let h ← m.mem.load H
  check (h.oNext ≠ none) .notReady
  let (m, notices) ← closeLoop conns c.fd (m.extConnections.toNat + 1) h.oNext m
  let h ← m.mem.load H
  check (h.oNext = some H ∧ h.oPrev = some H) .outboundLeft
  let mem ← m.mem.modify H fun h => { h with oNext := none, oPrev := none, outFd := 0 }
  return ({ m with mem := mem, extraInt := Function.update m.extraInt c.job 0 }, notices)

/-! ### The order of use -/

/-- `lru_insert_conn`. -/
def lruInsertConn (c : ConnectionJob) : Except ExtFault ExtTable := do
  match ← m.getExtConnectionByInFd c.fd with
  | none => return m
  | some ext =>
    let e ← m.mem.load ext
    if e.inFd = c.fd ∧ e.inGen = c.generation then
      let mem ← m.mem.lruInsertExtConn ext
      return { m with mem := mem }
    else return m

end ExtTable

end Server
end Teleproto3
