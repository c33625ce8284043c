/-
# The front end: queries of clients and answers of data centres

`server/src/mtproto/mtproto-proxy.c` and `mtproto-proxy-http.c`.  A packet of a client becomes a
job that runs `do_rpcs_execute` in the engine's thread, a packet of a data centre one that runs
`process_client_packet`.  That a connection is ready or closed goes through the queue of
`notification_event_run`.  Both kinds of job, and the entries of the queue, hold a reference to
their connection, and its `fd` is closed when nobody does.

A query is forwarded under an `ext_connection`, which `get_ext_connection_by_in_fd` looks up by the
`fd` of the client, or which is new.  What the engine's thread sends is kept in a log.
-/

import Teleproto3.Lib.Bytes
import Teleproto3.Server.ExtConnections
import Teleproto3.Server.ExtServer
import Teleproto3.Server.PacketHeaders

namespace Teleproto3
namespace Server

open Lib

/-! ### Connections -/

/-- `RPC_F_DROPPED`. -/
def RPC_F_DROPPED : BitVec 32 := 0x10000000

/-- `RPC_F_COMPACT`. -/
def RPC_F_COMPACT : BitVec 32 := 0x40000000

/-- `RPC_F_COMPACT_MEDIUM`. -/
def RPC_F_COMPACT_MEDIUM : BitVec 32 := 0x60000000

/-- `RPC_F_EXTMODE3`. -/
def RPC_F_EXTMODE3 : BitVec 32 := 0x30000

/-- `RPC_PROXY_ANS`. -/
def RPC_PROXY_ANS : ℕ := 0x4403da0d

/-- `RPC_SIMPLE_ACK`. -/
def RPC_SIMPLE_ACK : ℕ := 0x3bac409b

/-- `RPC_CLOSE_EXT`. -/
def RPC_CLOSE_EXT : ℕ := 0x5eb634a2

/-- `CODE_req_pq`, `CODE_req_pq_multi`, `CODE_req_DH_params` and `CODE_set_client_DH_params`. -/
def handshakeFunctions : List ℕ := [0x60469778, 0xbe7e8ef1, 0xd712e4be, 0xf5045f1f]

/-- Whom a connection leads to. -/
inductive FrontType
  /-- `ct_tcp_rpc_ext_server_mtfront` -/
  | client
  /-- a connection with `mtfront_rpc_client` -/
  | dataCentre
  deriving DecidableEq, Repr

/-- `struct connection_info` and `struct tcp_rpc_data` of a connection that is not freed. -/
structure FrontConnection where
  job : ConnectionJob
  type : FrontType
  /-- `TCP_RPC_DATA(c)->flags` -/
  flags : BitVec 32 := 0
  /-- `target` is not `NULL` -/
  target : Bool := true
  /-- `notification_event_insert_tcp_conn_ready` was called -/
  announced : Bool := false
  /-- the `close` of its type was called -/
  closed : Bool := false
  /-- `C_ERROR` in the flags of its `socket_connection_info` -/
  socketError : Bool := false
  remoteIp : ℕ := 0
  remoteIpv6 : Bytes := []
  remotePort : ℕ := 0
  ourIp : ℕ := 0
  ourIpv6 : Bytes := []
  ourPort : ℕ := 0
  deriving DecidableEq, Repr

/-- A job of `do_rpcs_execute`: `struct rpcs_exec_data`. -/
structure QueryJob where
  conn : ConnectionJob
  msg : Bytes
  rpcFlags : BitVec 32
  deriving DecidableEq, Repr

/-- A job of `process_client_packet`: `struct client_packet_info`. -/
structure PacketJob where
  conn : ConnectionJob
  msg : Bytes
  deriving DecidableEq, Repr

/-- `NEV_TCP_CONN_READY` and `NEV_TCP_CONN_CLOSE`. -/
inductive NotificationType
  | ready
  | close
  deriving DecidableEq, Repr

/-- `struct notification_event`. -/
structure NotificationEvent where
  type : NotificationType
  who : ConnectionJob
  deriving DecidableEq, Repr

/-! ### What is sent -/

/-- `RPC_PROXY_REQ` with what is stored behind it. -/
structure ProxyReq where
  flags : BitVec 32
  outConnId : UInt64
  remote : Bytes
  our : Bytes
  proxyTag : Option Bytes
  data : Bytes
  deriving DecidableEq, Repr

/-- What the engine's thread does to connections. -/
inductive FrontRecord
  /-- a query of `c` goes to `d`, under an entry -/
  | query (c d : ConnectionJob) (ex : ExtConnection) (req : ProxyReq)
  /-- `client_send_message` of an answer for an id -/
  | answer (d : ConnectionJob) (outConnId : UInt64) (data : Bytes)
  /-- `push_rpc_confirmation` of an acknowledgement for an id -/
  | confirmation (d : ConnectionJob) (outConnId : UInt64) (confirm : ℕ)
  /-- what the table does when an entry goes, or `_notify_remote_closed` -/
  | notice (n : ExtNotice)
  /-- `fail_connection` -/
  | failed (c : ConnectionJob) (err : ℤ)
  /-- `dropped_queries++` -/
  | droppedQuery (c : ConnectionJob)
  deriving DecidableEq, Repr

/-- How a job ends the program. -/
inductive FrontFault
  /-- a fault of the table -/
  | table (f : ExtFault)
  /-- a connection is used that was freed -/
  | freed
  /-- `assert (Ex->out_fd > 0 && Ex->out_fd < MAX_CONNECTIONS)` -/
  | outFd
  /-- `assert (0)` of an entry with an `in_conn_id` -/
  | inConnId
  deriving DecidableEq, Repr

/-- A call of the table's functions. -/
def onTable {α : Type} (r : Except ExtFault α) : Except FrontFault α :=
  match r with
  | .ok a => .ok a
  | .error f => .error (.table f)

/-- An assertion. -/
def insist (p : Prop) [Decidable p] (f : FrontFault) : Except FrontFault Unit :=
  if p then .ok () else .error f

/-- `proxy_tag`, if it is set, and `nat_info`. -/
structure FrontConfig where
  proxyTag : Option Bytes := none
  natInfo : List (ℕ × ℕ) := []
  deriving DecidableEq, Repr

/-- `nat_translate_ip`. -/
def FrontConfig.natTranslateIp (config : FrontConfig) (localIp : ℕ) : ℕ :=
  ((config.natInfo.find? fun rule => rule.1 = localIp).map Prod.snd).getD localIp

/-- An address as `forward_tcp_query` stores it, an IPv4 address in the form of IPv6. -/
def storeAddress (ip : ℕ) (ipv6 : Bytes) (port : ℕ) : Bytes :=
  (if ip ≠ 0 then le64 0 ++ le32 0xffff0000 ++ beBytes 4 ip else ipv6) ++ le32 port

/-- What `forward_mtproto_packet` finds a packet to be: the flags and the `auth_key_id` with which
`forward_tcp_query` is called, or nothing. -/
def forwardMtprotoPacket (msg : Bytes) : Option (BitVec 32 × UInt64) :=
  if msg.length < 28 ∨ msg.length % 4 ≠ 0 then none
  else
    let authKeyId := UInt64.ofNat (readLe64 msg)
    if authKeyId ≠ 0 then
      -- `forward_mtproto_enc_packet`: 56 is the offset of `message`
      if msg.length < 56 then none else some (0, authKeyId)
    else
      let innerLen := BitVec.ofNat 32 (readLe32 (msg.drop 16))
      if (BitVec.ofNat 32 msg.length).slt (innerLen + 20) then none
      else if innerLen.slt 20 then none
      else if readLe32 (msg.drop 20) ∉ handshakeFunctions then none
      else some (2, 0)

/-- What is drawn while a query is forwarded: the connections that
`rpc_target_choose_random_connections` gives to `choose_proxy_target` and to `forward_tcp_query`,
the cell that `calloc` comes upon, and the numbers of `lrand48`. -/
structure QueryDraws where
  targets : List (Option ConnectionJob)
  tries : List (Option ConnectionJob)
  room : Option ℕ
  slots : List ℕ
  deriving DecidableEq, Repr

/-- `if (Ex->auth_key_id != auth_key_id) { Ex->auth_key_id = auth_key_id; }`. -/
def ExtTable.setAuthKeyId (m : ExtTable) (ex : ExtRef) (authKeyId : UInt64) :
    Except ExtFault ExtTable := do
  let c ← m.mem.load ex
  if c.authKeyId = authKeyId then return m
  let mem ← m.mem.modify ex fun c => { c with authKeyId := authKeyId }
  return { m with mem := mem }

/-! ### The engine's thread -/

/-- What the jobs of the front end share: the table, the connections that are not freed, the jobs
that wait for the engine's thread and the queue of `notification_event_run`. -/
structure MtFront where
  config : FrontConfig
  table : ExtTable
  conns : List FrontConnection
  queries : List QueryJob
  packets : List PacketJob
  notifications : List NotificationEvent
  log : List FrontRecord
  fault : Option FrontFault

namespace MtFront

/-- The program as it starts. -/
def start (config : FrontConfig) : MtFront := ⟨config, ExtTable.empty, [], [], [], [], [], none⟩

variable (F : MtFront)

/-- `CONN_INFO` of a connection to which a job holds a reference. -/
def info (c : ConnectionJob) : Except FrontFault FrontConnection :=
  match F.conns.find? fun x => x.job = c with
  | some x => .ok x
  | none => .error .freed

/-- `connection_get_by_fd_generation`. -/
def connectionGetByFdGeneration (fd generation : ℕ) : Option FrontConnection :=
  (F.conns.find? fun x => x.job.fd = fd).filter fun x =>
    !x.socketError && x.job.generation = generation

/-- The same for the functions of the table. -/
def connections : ExtTable.Connections := fun fd generation =>
  (F.connectionGetByFdGeneration fd generation).map FrontConnection.job

/-- The connection on an `fd` is changed. -/
def setConn (fd : ℕ) (f : FrontConnection → FrontConnection) : MtFront :=
  { F with conns := F.conns.map fun x => if x.job.fd = fd then f x else x }

/-- What is done with the connection on an `fd`, if there is one. -/
def onConn (fd : ℕ) (f : FrontConnection → MtFront) : MtFront :=
  match F.conns.find? fun x => x.job.fd = fd with
  | some x => f x
  | none => F

/-- A notification is put into the queue. -/
def insertNotification (type : NotificationType) (who : ConnectionJob) : MtFront :=
  { F with notifications := F.notifications ++ [⟨type, who⟩] }

/-- Records are added to the log. -/
def record (rs : List FrontRecord) : MtFront := { F with log := F.log ++ rs }

/-- `remove_ext_connection`. -/
def removeExtConnection (ex : ExtRef) (sendNotifications : ℕ) : Except FrontFault MtFront := do
  let (m, notices) ← onTable
    (F.table.removeExtConnection F.connections (some ex) sendNotifications)
  return { F with table := m }.record (notices.map .notice)

/-! ### Queries -/

/-- At most five attempts to find a connection that carries its own tag. -/
def chooseConnection (tries : List (Option ConnectionJob)) : Option ConnectionJob :=
  (tries.take 5).findSome? fun d => d.filter fun d => F.table.extraInt d.job = d.tag

/-- What `forward_tcp_query` does with an entry that it has found: the connection of the data
centre, or the entry is removed. -/
def reuseOutbound (ex : ExtRef) (authKeyId : UInt64) :
    Except FrontFault (MtFront × Option ConnectionJob) := do
  let m ← onTable (F.table.setAuthKeyId ex authKeyId)
  let F := { F with table := m }
  let e ← onTable (F.table.mem.load ex)
  insist (0 < e.outFd ∧ e.outFd < MAX_CONNECTIONS) .outFd
  match (F.connectionGetByFdGeneration e.outFd e.outGen).filter FrontConnection.target with
  | some d => return (F, some d.job)
  | none =>
    let F ← F.removeExtConnection ex 1
    return (F, none)

/-- The packet that goes to the data centre.  What is stored for `flags & 4` belongs to queries over
HTTP. -/
def proxyReq (c : FrontConnection) (e : ExtConnection) (flags : BitVec 32) (data : Bytes) :
    ProxyReq where
  flags := if F.config.proxyTag.isSome then flags ||| 8 else flags
  outConnId := e.outConnId
  remote := storeAddress c.remoteIp c.remoteIpv6 c.remotePort
  our := storeAddress (if c.ourIp ≠ 0 then F.config.natTranslateIp c.ourIp else 0) c.ourIpv6
    c.ourPort
  proxyTag := F.config.proxyTag
  data := data

/-- The query is sent under an entry. -/
def sendQuery (c : FrontConnection) (d : ConnectionJob) (ex : ExtRef) (flags : BitVec 32)
    (data : Bytes) : Except FrontFault MtFront := do
  let e ← onTable (F.table.mem.load ex)
  return F.record [.query c.job d e (F.proxyReq c e flags data)]

/-- What `forward_tcp_query` does where no entry leads to a data centre. -/
def createOutbound (c : FrontConnection) (S : Bool) (draws : QueryDraws) (flags : BitVec 32)
    (authKeyId : UInt64) (data : Bytes) : Except FrontFault MtFront := do
  match if S then F.chooseConnection draws.tries else none with
  | none =>
    let F := F.setConn c.job.fd fun x => { x with flags := x.flags ||| RPC_F_DROPPED }
    return F.record [.droppedQuery c.job]
  | some d =>
    if flags &&& RPC_F_DROPPED ≠ 0 then return F.record [.failed c.job (-35)]
    -- `calloc` returns no cell that is in use.
    let room := draws.room.filter fun a => (F.table.mem (.cell a)).isNone
    let (m, ex) ← onTable
      (F.table.createExtConnection c.job 0 (some d) authKeyId room draws.slots)
    { F with table := m }.sendQuery c d ex flags data

/-- `forward_tcp_query` for a client. -/
def forwardTcpQuery (c : FrontConnection) (S : Bool) (draws : QueryDraws) (flags : BitVec 32)
    (authKeyId : UInt64) (data : Bytes) : Except FrontFault MtFront := do
  let flags := flags ||| (c.flags &&& RPC_F_DROPPED) ||| 0x1000
  match ← onTable (F.table.getExtConnectionByInFd c.job.fd) with
  | none => F.createOutbound c S draws flags authKeyId data
  | some ex =>
    let (F, d) ← F.reuseOutbound ex authKeyId
    match d with
    | some d => F.sendQuery c d ex flags data
    | none => F.createOutbound c S draws flags authKeyId data

/-- `do_rpcs_execute`. -/
def doRpcsExecute (q : QueryJob) (draws : QueryDraws) : Except FrontFault MtFront := do
  let c ← F.info q.conn
  let m ← onTable (F.table.lruInsertConn q.conn)
  let F := { F with table := m }
  match forwardMtprotoPacket q.msg with
  | none => return F
  | some (flags, authKeyId) =>
    -- `choose_proxy_target` is called first
    F.forwardTcpQuery c (F.chooseConnection draws.targets).isSome draws (flags ||| q.rpcFlags)
      authKeyId q.msg

/-! ### Answers -/

/-- The entry of an id, and the connection of its client, if the entry leads to `c`. -/
def answered (c : ConnectionJob) (outConnId : UInt64) :
    Except FrontFault (Option (ExtConnection × FrontConnection)) := do
  match ← onTable (F.table.findExtConnectionByOutConnId outConnId) with
  | none => return none
  | some r =>
    let ex ← onTable (F.table.mem.load r)
    if ex.outFd = c.fd ∧ ex.outGen = c.generation then
      return (F.connectionGetByFdGeneration ex.inFd ex.inGen).map fun d => (ex, d)
    return none

/-- `RPC_PROXY_ANS`.  `crowded` is what `check_conn_buffers` says. -/
def proxyAnswer (c : ConnectionJob) (outConnId : UInt64) (data : Bytes) (crowded : Bool) :
    Except FrontFault MtFront := do
  match ← F.answered c outConnId with
  | none => return F.record [.notice (.remoteClosed c outConnId)]
  | some (ex, d) =>
    if crowded then return F.record [.failed d.job (-429)]
    insist (ex.inConnId = 0) .inConnId
    return F.record [.answer d.job outConnId data]

/-- `RPC_SIMPLE_ACK`. -/
def simpleAck (c : ConnectionJob) (outConnId : UInt64) (confirm : Bytes) :
    Except FrontFault MtFront := do
  match ← F.answered c outConnId with
  | none => return F.record [.notice (.remoteClosed c outConnId)]
  | some (ex, d) =>
    insist (ex.inConnId = 0) .inConnId
    let confirm := if d.flags &&& RPC_F_COMPACT ≠ 0 then beValue confirm else readLe32 confirm
    return F.record [.confirmation d.job outConnId confirm]

/-- `RPC_CLOSE_EXT`. -/
def closeExt (outConnId : UInt64) : Except FrontFault MtFront := do
  match ← onTable (F.table.findExtConnectionByOutConnId outConnId) with
  | none => return F
  | some r => F.removeExtConnection r 2

/-- `process_client_packet`. -/
def processClientPacket (p : PacketJob) (crowded : Bool) : Except FrontFault MtFront :=
  let op := readLe32 p.msg
  if op = RPC_PROXY_ANS ∧ 16 ≤ p.msg.length then
    F.proxyAnswer p.conn (UInt64.ofNat (readLe64 (p.msg.drop 8))) (p.msg.drop 16) crowded
  else if op = RPC_SIMPLE_ACK ∧ p.msg.length = 16 then
    F.simpleAck p.conn (UInt64.ofNat (readLe64 (p.msg.drop 4))) (p.msg.drop 12)
  else if op = RPC_CLOSE_EXT ∧ p.msg.length = 12 then
    F.closeExt (UInt64.ofNat (readLe64 (p.msg.drop 4)))
  else .ok F

/-! ### Connections come and go -/

/-- `mtproto_ext_rpc_close`, as far as the table is concerned. -/
def mtprotoExtRpcClose (c : ConnectionJob) : Except FrontFault MtFront := do
  match ← onTable (F.table.getExtConnectionByInFd c.fd) with
  | none => return F
  | some ex => F.removeExtConnection ex 1

/-- `run_notification_event`. -/
def runNotificationEvent (n : NotificationEvent) : Except FrontFault MtFront := do
  let x ← F.info n.who
  match n.type, x.type with
  | .ready, .client =>
    -- `mtproto_ext_rpc_ready`
    let m ← onTable (F.table.lruInsertConn n.who)
    return { F with table := m }
  | .ready, .dataCentre =>
    let m ← onTable (F.table.mtfrontClientReady n.who)
    return { F with table := m }
  | .close, .client => F.mtprotoExtRpcClose n.who
  | .close, .dataCentre =>
    let (m, notices) ← onTable (F.table.mtfrontClientClose F.connections n.who)
    return { F with table := m }.record (notices.map .notice)

/-- `ext_rpcs_execute` and `rpcc_execute`: a packet becomes a job. -/
def received (x : FrontConnection) (msg : Bytes) (crowded : Bool) : MtFront :=
  match x.type with
  | .client =>
    if MAX_POST_SIZE < msg.length then F
    else if crowded then F.record [.failed x.job (-429)]
    else
      let rpcFlags := x.flags &&&
        (RPC_F_QUICKACK ||| RPC_F_DROPPED ||| RPC_F_COMPACT_MEDIUM ||| RPC_F_EXTMODE3)
      { F with queries := F.queries ++ [⟨x.job, msg, rpcFlags⟩] }
  | .dataCentre =>
    if readLe32 msg ∈ [RPC_PROXY_ANS, RPC_SIMPLE_ACK, RPC_CLOSE_EXT] then
      { F with packets := F.packets ++ [⟨x.job, msg⟩] }
    else F

end MtFront

/-- What happens to the front end. -/
inductive FrontEvent
  /-- `alloc_new_connection`, and what `new_conn_generation` returned -/
  | opened (x : FrontConnection)
  /-- `notification_event_insert_tcp_conn_ready` -/
  | announced (fd : ℕ)
  /-- `TCP_RPC_DATA(c)->flags` is written -/
  | flagged (fd : ℕ) (flags : BitVec 32)
  /-- a packet was read -/
  | received (fd : ℕ) (msg : Bytes) (crowded : Bool)
  /-- `tcp_rpcs_close_connection` or `tcp_rpcc_close_connection` -/
  | closed (fd : ℕ)
  /-- `C_ERROR` is set in the flags of the socket -/
  | socketFailed (fd : ℕ)
  /-- `target` is set to `NULL` -/
  | untargeted (fd : ℕ)
  /-- the last reference is dropped: `cpu_server_free_connection` closes the `fd` -/
  | freed (fd : ℕ)
  /-- a turn of `notification_event_run` -/
  | notify
  /-- a job runs `do_rpcs_execute` -/
  | execute (i : ℕ) (draws : QueryDraws)
  /-- a job runs `process_client_packet` -/
  | process (i : ℕ) (crowded : Bool)
  deriving DecidableEq, Repr

namespace MtFront

variable (F : MtFront)

/-- What an event does. -/
def act : FrontEvent → Except FrontFault MtFront
  | .opened x => .ok { F with conns := F.conns ++ [x] }
  | .announced fd => .ok <| F.onConn fd fun x =>
      (F.setConn fd fun y => { y with announced := true }).insertNotification .ready x.job
  | .flagged fd flags => .ok (F.setConn fd fun x => { x with flags := flags })
  | .received fd msg crowded => .ok (F.onConn fd fun x => F.received x msg crowded)
  | .closed fd => .ok <| F.onConn fd fun x =>
      (F.setConn fd fun y => { y with closed := true }).insertNotification .close x.job
  | .socketFailed fd => .ok (F.setConn fd fun x => { x with socketError := true })
  | .untargeted fd => .ok (F.setConn fd fun x => { x with target := false })
  | .freed fd => .ok { F with conns := F.conns.filter fun x => x.job.fd ≠ fd }
  | .notify =>
    match F.notifications with
    | [] => .ok F
    | n :: ns => { F with notifications := ns }.runNotificationEvent n
  | .execute i draws =>
    match F.queries[i]? with
    | none => .ok F
    | some q => { F with queries := F.queries.eraseIdx i }.doRpcsExecute q draws
  | .process i crowded =>
    match F.packets[i]? with
    | none => .ok F
    | some p => { F with packets := F.packets.eraseIdx i }.processClientPacket p crowded

/-- One event, unless the program has ended. -/
def step (ev : FrontEvent) : MtFront :=
  match F.fault with
  | some _ => F
  | none =>
    match F.act ev with
    | .ok F' => F'
    | .error f => { F with fault := some f }

end MtFront

end Server
end Teleproto3
